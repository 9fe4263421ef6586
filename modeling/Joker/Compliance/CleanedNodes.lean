import Joker.Compliance.OpraSanitizer

/-!
# What a cleaned dict looks like

Library `Compliance`. The sanitizer reads a `dict` through a few facts about each of its values.
Those of a cleaned value are the facts of its shell: the value cleaned at the top only. So a rebuilt
`dict` is read as the input's members with their shells.
-/

namespace Joker.Compliance

open Joker.Base

/-! ### Looks -/

/-- What a `dict` can tell of one of its values. -/
structure Look where
  truthy : Bool
  present : Bool
  text? : Option String
  isTrue : Bool
  hashable : Bool
  optionType : Bool
  source : String

/-- The members of a `dict`, and none of any other value. -/
def membersOf (value : Json) : Members := value.members?.getD []

/-- The look of a value. -/
def look (value : Json) : Look where
  truthy := value.truthy
  present := value.present
  text? := value.text?
  isTrue := value.isTrue
  hashable := value.hashable
  optionType := (membersOf value).truthy "option_type"
  source := (membersOf value).text "source"

/-- Two `dict`s whose values look the same under every key. -/
def Alike (a b : Members) : Prop := ∀ k, (a.get? k).map look = (b.get? k).map look

section

variable {a b : Members}

private theorem any_eq (h : Alike a b) (f : Look → Bool) (k : String) :
    (a.get? k).any (fun v ↦ f (look v)) = (b.get? k).any (fun v ↦ f (look v)) := by
  have hk := congrArg (Option.any f) (h k)
  rwa [Option.any_map, Option.any_map] at hk

private theorem Alike.has_eq (h : Alike a b) : a.has = b.has := by
  funext k
  have hk := congrArg Option.isSome (h k)
  rwa [Option.isSome_map, Option.isSome_map] at hk

private theorem Alike.truthy_eq (h : Alike a b) : a.truthy = b.truthy :=
  funext (any_eq h (fun l ↦ l.truthy))

private theorem Alike.present_eq (h : Alike a b) : a.present = b.present :=
  funext (any_eq h (fun l ↦ l.present))

private theorem Alike.isTrue_eq (h : Alike a b) (k : String) :
    (a.get? k).any Json.isTrue = (b.get? k).any Json.isTrue := any_eq h (fun l ↦ l.isTrue) k

private theorem Alike.hashable_eq (h : Alike a b) (k : String) :
    (a.get? k).all Json.hashable = (b.get? k).all Json.hashable := by
  have hk := congrArg (Option.all (fun l ↦ l.hashable)) (h k)
  rwa [Option.all_map, Option.all_map] at hk

private theorem text_eq_look (obj : Members) (k : String) :
    obj.text k = (((obj.get? k).map look).bind (fun l ↦ l.text?)).getD "" := by
  unfold Members.text
  cases obj.get? k <;> rfl

private theorem Alike.text_eq (h : Alike a b) : a.text = b.text := by
  funext k
  rw [text_eq_look, text_eq_look, h k]

private theorem contractOf_eq (obj : Members) :
    contractOf obj = ((obj.get? "contract").map membersOf).getD [] := by
  unfold contractOf
  cases obj.get? "contract" <;> rfl

private theorem optionType_eq_look (obj : Members) : (contractOf obj).truthy "option_type" =
    (((obj.get? "contract").map look).map (fun l ↦ l.optionType)).getD false := by
  rw [contractOf_eq]
  cases obj.get? "contract" <;> rfl

private theorem source_eq_look (obj : Members) : (contractOf obj).text "source" =
    (((obj.get? "contract").map look).map (fun l ↦ l.source)).getD "" := by
  rw [contractOf_eq]
  cases obj.get? "contract" <;> rfl

private theorem hasOptionMarkers_congr (h : Alike a b) :
    hasOptionMarkers a = hasOptionMarkers b := by
  unfold hasOptionMarkers
  rw [h.truthy_eq, h.present_eq, optionType_eq_look, optionType_eq_look, h "contract", h.has_eq,
    h.hashable_eq, h.text_eq]

/-- Alike `dict`s are classified alike. -/
theorem classifyMarketEvent_congr (h : Alike a b) :
    classifyMarketEvent a = classifyMarketEvent b := by
  unfold classifyMarketEvent isStockEvent classifyOpra isWebullOption hasDerivedOptionPrices
  rw [h.truthy_eq, h.present_eq, h.isTrue_eq, h.has_eq, h.text_eq, hasOptionMarkers_congr h]

/-- Objects that look alike and agree on the synthetic mark are synthetic together. -/
theorem isSyntheticObj_congr (h : Alike a b) (hmark : hasSyntheticMark a = hasSyntheticMark b) :
    isSyntheticObj a = isSyntheticObj b := by
  unfold isSyntheticObj
  rw [h.isTrue_eq, classifyMarketEvent_congr h, hmark, h.text_eq]

/-- Alike `dict`s are in OPRA context under the same parents. -/
theorem inOpraContext_congr (h : Alike a b) (hmark : hasSyntheticMark a = hasSyntheticMark b)
    (parentOpra : Bool) : inOpraContext a parentOpra = inOpraContext b parentOpra := by
  have hshape : hasOpraShape a = hasOpraShape b := by
    unfold hasOpraShape
    rw [h.truthy_eq, h.present_eq, h.has_eq, h.text_eq, optionType_eq_look, optionType_eq_look,
      source_eq_look, source_eq_look, h "contract"]
  unfold inOpraContext
  rw [isSyntheticObj_congr h hmark, classifyMarketEvent_congr h, hshape]

end

/-! ### Shells -/

/-- An empty `dict` that is cleaned in OPRA context gets the labels. -/
def marked (opraCtx : Bool) : Json → Json
  | .obj [] => .obj (label opraCtx [])
  | value => value

/-- A value cleaned at the top only. -/
def shell (opraContext : Bool) : Json → Json
  | .obj obj =>
    match treatment opraContext obj with
    | .ok .snapshot | .ok .quote => .obj [("source", .str sourceWebullOpraSafe)]
    | .ok (.rebuild opraCtx) =>
      .obj (label opraCtx ((obj.filter (fun m ↦ keeps opraCtx m.1)).map
        (fun m ↦ (m.1, marked opraCtx m.2))))
    | .ok .synthetic | .ok .stock | .error _ => .obj obj
  | value => value

/-- A rebuilt `dict`, as far as the sanitizer reads it. -/
def rebuilt (opraCtx : Bool) (obj : Members) : Members :=
  label opraCtx ((obj.filter (fun m ↦ keeps opraCtx m.1)).map (fun m ↦ (m.1, shell opraCtx m.2)))

/-! ### Lists of cleaned values -/

section

variable {m : Moneyness} {opraContext opraCtx : Bool}

/-- A list is cleaned item by item. -/
theorem sanitizeItems_eq_ok {items cleaned : List Json} :
    sanitizeItems m opraContext items = .ok cleaned ↔
      List.Forall₂ (fun v w ↦ sanitizeNode m opraContext v = .ok w) items cleaned := by
  induction items generalizing cleaned with
  | nil =>
    unfold sanitizeItems
    simp [eq_comm]
  | cons item rest ih =>
    unfold sanitizeItems
    simp only [bind_eq_ok, pure_eq_ok, List.forall₂_cons_left_iff, ih]
    constructor
    · rintro ⟨w, hw, ws, hws, rfl⟩
      exact ⟨w, ws, hw, hws, rfl⟩
    · rintro ⟨w, ws, hw, hws, rfl⟩
      exact ⟨w, hw, ws, hws, rfl⟩

/-- The kept members of a `dict` are cleaned one by one. -/
theorem sanitizeMembers_eq_ok {obj cleaned : Members} :
    sanitizeMembers m opraCtx obj = .ok cleaned ↔
      List.Forall₂ (fun v w ↦ w.1 = v.1 ∧ sanitizeNode m opraCtx v.2 = .ok w.2)
        (obj.filter (fun m ↦ keeps opraCtx m.1)) cleaned := by
  induction obj generalizing cleaned with
  | nil =>
    unfold sanitizeMembers
    simp [eq_comm]
  | cons member rest ih =>
    rcases member with ⟨key, value⟩
    unfold sanitizeMembers
    rw [List.filter_cons]
    split
    · simp only [bind_eq_ok, pure_eq_ok, List.forall₂_cons_left_iff, ih]
      constructor
      · rintro ⟨w, hw, ws, hws, rfl⟩
        exact ⟨(key, w), ws, ⟨rfl, hw⟩, hws, rfl⟩
      · rintro ⟨⟨_, w⟩, ws, ⟨rfl, hw⟩, hws, rfl⟩
        exact ⟨w, hw, ws, hws, rfl⟩
    · exact ih

/-! ### Labels -/

private theorem get?_label (opraCtx : Bool) (xs : Members) (k : String) :
    (label opraCtx xs).get? k =
      if opraCtx = true ∧ k = "opra_sanitized" then some (.bool true)
      else if opraCtx = true ∧ k = "data_classification" then some ((xs.get? k).getD
        (.str DataClassification.nonPriceDecisionMetadata.value))
      else xs.get? k := by
  unfold label
  cases opraCtx with
  | false => simp
  | true =>
    simp only [if_true, true_and, Members.get?_set, Members.get?_setDefault]
    by_cases hk : k = "data_classification"
    · subst hk
      rfl
    · simp only [hk, if_false]

/-- What holds of the labels holds of a labelled `dict` when it holds of the members that the
labels leave. -/
theorem forall_mem_label {P : String × Json → Prop}
    (hlabel : P ("data_classification", .str DataClassification.nonPriceDecisionMetadata.value))
    (hdone : P ("opra_sanitized", .bool true)) (xs : Members) :
    (∀ x ∈ label opraCtx xs, P x) ↔
      ∀ x ∈ xs, (opraCtx = true → x.1 ≠ "opra_sanitized") → P x := by
  unfold label
  cases opraCtx with
  | false => simp
  | true =>
    simp only [if_true, true_implies, Members.forall_mem_set, hdone, true_and]
    exact Members.forall_mem_setDefault (fun _ ↦ hlabel)

/-- The labels make no `dict` empty. -/
theorem isEmpty_label (opraCtx : Bool) (xs : Members) :
    (label opraCtx xs).isEmpty = (!opraCtx && xs.isEmpty) := by
  unfold label
  cases opraCtx with
  | false => rfl
  | true =>
    have hhas : (label true xs).get? "opra_sanitized" = some (.bool true) := get?_label _ _ _
    change (label true xs).isEmpty = false
    cases hlist : label true xs with
    | nil =>
      rw [hlist] at hhas
      cases hhas
    | cons x rest => rfl

/-! ### Cleaned values -/

/-- What a value is turned into: a `dict` by its treatment, a list item by item. -/
theorem sanitizeNode_obj {obj : Members} {w : Json}
    (h : sanitizeNode m opraContext (.obj obj) = .ok w) :
    ∃ t, treatment opraContext obj = .ok t ∧
      match t with
      | .synthetic | .stock => w = .obj obj
      | .snapshot => ∃ safe, snapshotToSafeMetadata m obj = .ok safe ∧ w = .obj safe
      | .quote => w = .obj (safeQuote obj)
      | .rebuild opraCtx => ∃ cleaned, sanitizeMembers m opraCtx obj = .ok cleaned ∧
          w = .obj (label opraCtx cleaned) := by
  unfold sanitizeNode at h
  simp only [bind_eq_ok] at h
  obtain ⟨t, ht, h⟩ := h
  refine ⟨t, ht, ?_⟩
  cases t with
  | synthetic => exact (Except.ok.inj h).symm
  | stock => exact (Except.ok.inj h).symm
  | quote => exact (Except.ok.inj h).symm
  | snapshot =>
    simp only [bind_eq_ok, pure_eq_ok] at h
    obtain ⟨safe, hsafe, rfl⟩ := h
    exact ⟨safe, hsafe, rfl⟩
  | rebuild opraCtx =>
    simp only [bind_eq_ok, pure_eq_ok] at h
    obtain ⟨cleaned, hcleaned, rfl⟩ := h
    exact ⟨cleaned, hcleaned, rfl⟩

/-- A sanitized list is the list of its sanitized items. -/
theorem sanitizeNode_arr {items : List Json} {w : Json}
    (h : sanitizeNode m opraContext (.arr items) = .ok w) :
    ∃ cleaned, sanitizeItems m opraContext items = .ok cleaned ∧ w = .arr cleaned := by
  unfold sanitizeNode at h
  simp only [bind_eq_ok, pure_eq_ok] at h
  obtain ⟨cleaned, hcleaned, rfl⟩ := h
  exact ⟨cleaned, hcleaned, rfl⟩

/-- Nothing is known of an empty `dict`, so it is rebuilt in the context around it. -/
theorem treatment_nil (opraContext : Bool) :
    treatment opraContext [] = .ok (.rebuild opraContext) := by
  cases opraContext <;> rfl

/-- The keys of a snapshot's metadata, and its source. -/
theorem snapshotToSafeMetadata_get? {obj safe : Members}
    (h : snapshotToSafeMetadata m obj = .ok safe) :
    safe.isEmpty = false ∧ safe.get? "option_type" = none ∧
      safe.get? "source" = some (.str sourceWebullOpraSafe) := by
  unfold snapshotToSafeMetadata contractSafeMetadata at h
  simp only [bind_eq_ok, pure_eq_ok] at h
  obtain ⟨spread, _, contract, hcontract, avail, _, rfl⟩ := h
  refine ⟨rfl, ?_, ?_⟩
  · split at hcontract
    · cases hcontract
      rfl
    · simp only [bind_eq_ok, pure_eq_ok] at hcontract
      obtain ⟨bucket, _, rfl⟩ := hcontract
      rfl
  · rfl

private theorem truthy_marked {v w : Json} (h : sanitizeNode m opraContext v = .ok w) :
    (marked opraContext v).truthy = w.truthy := by
  cases v with
  | null | bool _ | num _ | str _ =>
    cases h
    rfl
  | arr items =>
    obtain ⟨cleaned, hcleaned, rfl⟩ := sanitizeNode_arr h
    have hall := sanitizeItems_eq_ok.mp hcleaned
    cases hall <;> rfl
  | obj obj =>
    obtain ⟨t, ht, hw⟩ := sanitizeNode_obj h
    cases obj with
    | nil =>
      rw [treatment_nil] at ht
      cases ht
      obtain ⟨cleaned, hcleaned, rfl⟩ := hw
      cases hcleaned
      rfl
    | cons x rest =>
      change true = w.truthy
      cases t with
      | synthetic | stock | quote =>
        rw [hw]
        rfl
      | snapshot =>
        obtain ⟨safe, hsafe, rfl⟩ := hw
        change true = !safe.isEmpty
        rw [(snapshotToSafeMetadata_get? hsafe).1]
        rfl
      | rebuild opraCtx =>
        obtain ⟨cleaned, hcleaned, rfl⟩ := hw
        change true = !(label opraCtx cleaned).isEmpty
        rw [isEmpty_label]
        cases opraCtx with
        | true => rfl
        | false =>
          have hall := sanitizeMembers_eq_ok.mp hcleaned
          have hkept : (x :: rest).filter (fun y ↦ keeps false y.1) = x :: rest :=
            List.filter_eq_self.mpr (fun _ _ ↦ rfl)
          rw [hkept] at hall
          cases hall
          rfl

private theorem text?_marked {v w : Json} (h : sanitizeNode m opraContext v = .ok w) :
    (marked opraContext v).text? = w.text? := by
  cases v with
  | null | bool _ | num _ | str _ =>
    cases h
    rfl
  | arr items =>
    obtain ⟨cleaned, _, rfl⟩ := sanitizeNode_arr h
    rfl
  | obj obj =>
    have hleft : (marked opraContext (.obj obj)).text? = none := by
      cases obj <;> rfl
    rw [hleft]
    obtain ⟨t, ht, hw⟩ := sanitizeNode_obj h
    cases t with
    | synthetic | stock | quote =>
      rw [hw]
      rfl
    | snapshot =>
      obtain ⟨safe, _, rfl⟩ := hw
      rfl
    | rebuild opraCtx =>
      obtain ⟨cleaned, _, rfl⟩ := hw
      rfl

private theorem look_label {xs ys : Members} (hempty : xs.isEmpty = ys.isEmpty)
    (htype : (xs.get? "option_type").map Json.truthy = (ys.get? "option_type").map Json.truthy)
    (hsource : (xs.get? "source").map Json.text? = (ys.get? "source").map Json.text?) :
    look (.obj (label opraCtx xs)) = look (.obj (label opraCtx ys)) := by
  have hnot {k : String} (h₁ : k ≠ "opra_sanitized") (h₂ : k ≠ "data_classification")
      (zs : Members) : (label opraCtx zs).get? k = zs.get? k := by
    rw [get?_label, if_neg (fun h ↦ h₁ h.2), if_neg (fun h ↦ h₂ h.2)]
  have hoption : (label opraCtx xs).truthy "option_type" =
      (label opraCtx ys).truthy "option_type" := by
    unfold Members.truthy
    rw [hnot (by decide) (by decide), hnot (by decide) (by decide)]
    have h := congrArg (Option.any id) htype
    rwa [Option.any_map, Option.any_map] at h
  have htext : (label opraCtx xs).text "source" = (label opraCtx ys).text "source" := by
    unfold Members.text
    rw [hnot (by decide) (by decide), hnot (by decide) (by decide)]
    have h := congrArg (fun o ↦ (Option.bind o id).getD "") hsource
    simpa only [Option.bind_map, Function.id_comp] using h
  unfold look
  simp only [membersOf, Json.members?, Option.getD_some, hoption, htext, Json.truthy, isEmpty_label,
    hempty, Json.present, Json.text?, Json.isTrue, Json.hashable]

/-- A cleaned value looks like its shell. -/
theorem look_shell {v w : Json} (h : sanitizeNode m opraContext v = .ok w) :
    look (shell opraContext v) = look w := by
  cases v with
  | null | bool _ | num _ | str _ =>
    cases h
    rfl
  | arr items =>
    obtain ⟨cleaned, hcleaned, rfl⟩ := sanitizeNode_arr h
    have hall := sanitizeItems_eq_ok.mp hcleaned
    cases hall <;> rfl
  | obj obj =>
    obtain ⟨t, ht, hw⟩ := sanitizeNode_obj h
    simp only [shell, ht]
    cases t with
    | synthetic | stock =>
      rw [hw]
    | quote =>
      rw [hw]
      rfl
    | snapshot =>
      obtain ⟨safe, hsafe, rfl⟩ := hw
      obtain ⟨hempty, htype, hsource⟩ := snapshotToSafeMetadata_get? hsafe
      unfold look
      simp only [membersOf, Json.members?, Option.getD_some, Members.truthy, Members.text, htype,
        hsource, Json.truthy, hempty, Json.present, Json.text?, Json.isTrue, Json.hashable]
      rfl
    | rebuild opraCtx =>
      obtain ⟨cleaned, hcleaned, rfl⟩ := hw
      have hall := sanitizeMembers_eq_ok.mp hcleaned
      apply look_label
      · rw [Bool.eq_iff_iff, List.isEmpty_iff_length_eq_zero, List.isEmpty_iff_length_eq_zero,
          List.length_map, hall.length_eq]
      · rw [Members.get?_map, Option.map_map]
        exact Members.map_get?_of_forall₂ (fun _ _ hvw ↦ truthy_marked hvw) hall _
      · rw [Members.get?_map, Option.map_map]
        exact Members.map_get?_of_forall₂ (fun _ _ hvw ↦ text?_marked hvw) hall _

/-! ### Marks -/

private theorem unmarked_keys :
    hasToken "data_classification" = false ∧ hasToken "source" = false ∧
      hasToken "opra_sanitized" = false ∧ hasToken "event_type" = false ∧
      hasToken "contract_role" = false ∧ hasToken "selected_direction" = false ∧
      hasToken "expiration_type" = false ∧ hasToken "moneyness_bucket" = false ∧
      hasToken "contract_selected" = false ∧ hasToken "spread_check" = false ∧
      hasToken "freshness_check" = false ∧ hasToken "bid_ask_available" = false ∧
      hasToken "greeks_available" = false ∧ hasToken "iv_available" = false ∧
      hasToken "open_interest_available" = false ∧ hasToken "volume_available" = false ∧
      hasToken "contract_quality" = false := by
  decide +kernel

private theorem unmarked_texts :
    hasToken DataClassification.nonPriceDecisionMetadata.value = false ∧
      hasToken sourceWebullOpraSafe = false ∧ hasToken "option_quote_safe" = false ∧
      hasToken "0DTE" = false ∧ hasToken "PASS" = false ∧ hasToken "FAIL" = false ∧
      hasToken "ATM_CALL" = false ∧ hasToken "ATM_PUT" = false ∧
      hasToken "long_call" = false ∧ hasToken "long_put" = false := by
  decide +kernel

private theorem unmarked_bucket (bucket : Bucket) : hasToken bucket.value = false := by
  cases bucket <;> decide +kernel

private theorem unmarked_passFail (b : Bool) : (passFail b).hasSome hasToken = false := by
  cases b <;> simp [passFail, Json.hasSome, unmarked_texts]

private theorem unmarked_contractRole (t : Option String) :
    (contractRole t).hasSome hasToken = false := by
  unfold contractRole
  split <;> simp [Json.hasSome, unmarked_texts]

private theorem unmarked_selectedDirection (t : Option String) :
    (selectedDirection t).hasSome hasToken = false := by
  unfold selectedDirection
  split <;> simp [Json.hasSome, unmarked_texts]

private theorem unmarked_safeQuote (obj : Members) :
    ∀ x ∈ safeQuote obj, hasToken x.1 = false ∧ x.2.hasSome hasToken = false := by
  unfold safeQuote
  simp [Json.hasSome, unmarked_keys, unmarked_texts, unmarked_passFail, unmarked_contractRole,
    unmarked_selectedDirection]

private theorem unmarked_contract {contract safe : Members} {underlying : Option Json}
    (h : contractSafeMetadata m contract underlying = .ok safe) :
    ∀ x ∈ safe, hasToken x.1 = false ∧ x.2.hasSome hasToken = false := by
  unfold contractSafeMetadata at h
  split at h
  · cases h
    simp [Json.hasSome, unmarked_keys]
  · simp only [bind_eq_ok, pure_eq_ok] at h
    obtain ⟨bucket, _, rfl⟩ := h
    simp [Json.hasSome, unmarked_keys, unmarked_texts, unmarked_bucket, unmarked_contractRole,
      unmarked_selectedDirection]

private theorem unmarked_snapshot {obj safe : Members}
    (h : snapshotToSafeMetadata m obj = .ok safe) :
    ∀ x ∈ safe, hasToken x.1 = false ∧ x.2.hasSome hasToken = false := by
  unfold snapshotToSafeMetadata at h
  simp only [bind_eq_ok, pure_eq_ok] at h
  obtain ⟨spread, _, contract, hcontract, avail, _, rfl⟩ := h
  rw [List.forall_mem_append, List.forall_mem_append]
  refine ⟨⟨?_, unmarked_contract hcontract⟩, ?_⟩
  · simp [Json.hasSome, unmarked_keys, unmarked_texts]
  · simp [Json.hasSome, unmarked_keys, unmarked_passFail]

private theorem unmarked_label {opraCtx : Bool} {xs : Members} :
    (Json.obj (label opraCtx xs)).hasSome hasToken = false ↔
      ∀ x ∈ xs, (opraCtx = true → x.1 ≠ "opra_sanitized") →
        hasToken x.1 = false ∧ x.2.hasSome hasToken = false := by
  simp only [Json.hasSome, Json.someMember_eq_false]
  apply forall_mem_label
  · simp [Json.hasSome, unmarked_keys, unmarked_texts]
  · simp [Json.hasSome, unmarked_keys]

/-- Cleaning brings no mark of a synthetic source. -/
theorem hasSome_sanitizeNode {v : Json} {opraContext : Bool} {w : Json}
    (h : sanitizeNode m opraContext v = .ok w) (hv : v.hasSome hasToken = false) :
    w.hasSome hasToken = false := by
  induction v using Json.induction generalizing opraContext w with
  | null | bool | num | str =>
    cases h
    exact hv
  | arr items ih =>
    obtain ⟨cleaned, hcleaned, rfl⟩ := sanitizeNode_arr h
    have hall := sanitizeItems_eq_ok.mp hcleaned
    simp only [Json.hasSome, Json.someItem_eq_false] at hv ⊢
    intro y hy
    obtain ⟨x, hx, hxy⟩ := exists_of_mem_forall₂ hall hy
    exact ih x hx hxy (hv x hx)
  | obj obj ih =>
    obtain ⟨t, ht, hw⟩ := sanitizeNode_obj h
    cases t with
    | synthetic | stock =>
      rw [hw]
      exact hv
    | quote =>
      rw [hw]
      simp only [Json.hasSome, Json.someMember_eq_false]
      exact unmarked_safeQuote obj
    | snapshot =>
      obtain ⟨safe, hsafe, rfl⟩ := hw
      simp only [Json.hasSome, Json.someMember_eq_false]
      exact unmarked_snapshot hsafe
    | rebuild opraCtx =>
      obtain ⟨cleaned, hcleaned, rfl⟩ := hw
      have hall := sanitizeMembers_eq_ok.mp hcleaned
      simp only [Json.hasSome, Json.someMember_eq_false] at hv
      apply unmarked_label.mpr
      intro y hy _
      obtain ⟨x, hx, hkey, hxy⟩ := exists_of_mem_forall₂ hall hy
      obtain ⟨hkeyMark, hvalueMark⟩ := hv x (List.mem_filter.mp hx).1
      exact ⟨hkey ▸ hkeyMark, ih x (List.mem_filter.mp hx).1 hxy hvalueMark⟩

private theorem hasSome_shell {v : Json} (hv : v.hasSome hasToken = false) (opraContext : Bool) :
    (shell opraContext v).hasSome hasToken = false := by
  cases v with
  | null | bool _ | num _ | str _ | arr _ => exact hv
  | obj obj =>
    have hsource : (Json.obj [("source", .str sourceWebullOpraSafe)]).hasSome hasToken = false := by
      simp [Json.hasSome, Json.someMember, unmarked_keys, unmarked_texts]
    unfold shell
    simp only
    split
    · exact hsource
    · exact hsource
    · next opraCtx _ =>
      simp only [Json.hasSome, Json.someMember_eq_false] at hv
      rw [unmarked_label, List.forall_mem_map]
      intro x hx _
      obtain ⟨hkey, hvalue⟩ := hv x (List.mem_filter.mp hx).1
      refine ⟨hkey, ?_⟩
      unfold marked
      split
      · exact unmarked_label.mpr (fun _ hx ↦ (List.not_mem_nil hx).elim)
      · exact hvalue
    all_goals exact hv

/-! ### Rebuilt dicts -/

section

variable {obj cleaned : Members}

private theorem get?_source_label (xs : Members) :
    (label opraCtx xs).get? "source" = xs.get? "source" := by
  rw [get?_label, if_neg (fun hk ↦ absurd hk.2 (by decide)),
    if_neg (fun hk ↦ absurd hk.2 (by decide))]

private theorem get?_source_kept :
    Members.get? (obj.filter (fun x ↦ keeps opraCtx x.1)) "source" = obj.get? "source" := by
  rw [Members.get?_filter, if_pos]
  cases opraCtx <;> decide

/-- A rebuilt `dict` looks like the input's members with their shells. -/
theorem alike_rebuilt (h : sanitizeMembers m opraCtx obj = .ok cleaned) :
    Alike (label opraCtx cleaned) (rebuilt opraCtx obj) := by
  have hall := sanitizeMembers_eq_ok.mp h
  have hlook (k : String) : (cleaned.get? k).map look = (Members.get?
      ((obj.filter (fun x ↦ keeps opraCtx x.1)).map (fun x ↦ (x.1, shell opraCtx x.2))) k).map
        look := by
    rw [Members.get?_map, Option.map_map]
    exact (Members.map_get?_of_forall₂ (fun _ _ hvw ↦ look_shell hvw) hall k).symm
  intro k
  unfold rebuilt
  rw [get?_label, get?_label]
  split
  · rfl
  · split
    · have hk := congrArg (fun o ↦ some (o.getD
        (look (.str DataClassification.nonPriceDecisionMetadata.value)))) (hlook k)
      rw [Option.map_some, Option.map_some]
      simpa only [Option.getD_map] using hk
    · exact hlook k

/-- Neither the rebuilt `dict` nor its look has a mark of a synthetic source when the input has
none. -/
theorem mark_rebuilt (h : sanitizeMembers m opraCtx obj = .ok cleaned)
    (hmark : hasSyntheticMark obj = false) :
    hasSyntheticMark (label opraCtx cleaned) = hasSyntheticMark (rebuilt opraCtx obj) := by
  have hall := sanitizeMembers_eq_ok.mp h
  unfold hasSyntheticMark at hmark ⊢
  unfold rebuilt
  rw [get?_source_label, get?_source_label, Members.get?_map, get?_source_kept]
  have hrel := Members.get?_of_forall₂
    (R := fun v w ↦ sanitizeNode m opraCtx v = .ok w) hall "source"
  rw [get?_source_kept] at hrel
  rcases hrel with ⟨hx, hy⟩ | ⟨v, w, hx, hy, hvw⟩
  · rw [hx, hy]
    rfl
  · rw [hx] at hmark
    rw [hx, hy]
    change w.hasSome hasToken = (shell opraCtx v).hasSome hasToken
    rw [hasSome_sanitizeNode hvw hmark, hasSome_shell hmark]

end

end

end Joker.Compliance
