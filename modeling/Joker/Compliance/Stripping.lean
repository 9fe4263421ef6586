import Joker.Compliance.CleanedNodes

/-!
# What the cleaner leaves to the detector

Library `Compliance`. The cleaner hands stock data back whole, while the detector walks on into it.
So the detector flags what was cleaned exactly where stock data holds OPRA values, or where a `dict`
comes into OPRA context only by being rebuilt. Everything else is stripped, at any depth.
-/

namespace Joker.Compliance

open Joker.Base

/-! ### The detector, `dict` by `dict` -/

/-- How the detector goes on below a `dict`: not at all, or in a context. -/
def detectorContext (opraContext : Bool) (obj : Members) :
    Except ComplianceError (Option Bool) := do
  if ← isSyntheticObj obj then pure none
  else do
    let opraCtx ← inOpraContext obj opraContext
    pure (some opraCtx)

/-- A `dict` is clear in a context when it has no OPRA value and its members are clear below. -/
def ClearBelow (context : Except ComplianceError (Option Bool)) (value : Bool)
    (below : Bool → Prop) : Prop :=
  match context with
  | .error _ => False
  | .ok none => True
  | .ok (some opraCtx) => (opraCtx = true → value = false) ∧ below opraCtx

private theorem memberContains_eq_false {opraContext : Bool} {obj : Members} :
    memberContains opraContext obj = .ok false ↔
      ∀ x ∈ obj, containsRawOpraValues opraContext x.2 = .ok false := by
  induction obj with
  | nil => simp [memberContains]
  | cons x rest ih =>
    rw [memberContains, List.forall_mem_cons, ← ih]
    cases containsRawOpraValues opraContext x.2 with
    | error e => exact iff_of_false (fun h ↦ nomatch h) (fun h ↦ nomatch h.1)
    | ok b =>
      cases b with
      | true => exact iff_of_false (fun h ↦ nomatch h) (fun h ↦ nomatch h.1)
      | false => exact (and_iff_right rfl).symm

/-- No item contains raw values exactly when the detector clears each. -/
theorem itemContains_eq_false {opraContext : Bool} {items : List Json} :
    itemContains opraContext items = .ok false ↔
      ∀ item ∈ items, containsRawOpraValues opraContext item = .ok false := by
  induction items with
  | nil => simp [itemContains]
  | cons item rest ih =>
    rw [itemContains, List.forall_mem_cons, ← ih]
    cases containsRawOpraValues opraContext item with
    | error e => exact iff_of_false (fun h ↦ nomatch h) (fun h ↦ nomatch h.1)
    | ok b =>
      cases b with
      | true => exact iff_of_false (fun h ↦ nomatch h) (fun h ↦ nomatch h.1)
      | false => exact (and_iff_right rfl).symm

/-- The detector finds nothing in a `dict` exactly when it is clear. -/
theorem contains_obj_eq_false {opraContext : Bool} {obj : Members} :
    containsRawOpraValues opraContext (.obj obj) = .ok false ↔
      ClearBelow (detectorContext opraContext obj) (hasOpraValue obj)
        (fun opraCtx ↦ ∀ x ∈ obj, containsRawOpraValues opraCtx x.2 = .ok false) := by
  rw [containsRawOpraValues]
  unfold detectorContext ClearBelow
  cases isSyntheticObj obj with
  | error e => exact iff_of_false (fun h ↦ nomatch h) id
  | ok synthetic =>
    cases synthetic with
    | true => exact iff_of_true rfl trivial
    | false =>
      cases inOpraContext obj opraContext with
      | error e => exact iff_of_false (fun h ↦ nomatch h) id
      | ok opraCtx =>
        change (if opraCtx && hasOpraValue obj then _ else _) = _ ↔
          (opraCtx = true → hasOpraValue obj = false) ∧
            ∀ x ∈ obj, containsRawOpraValues opraCtx x.2 = .ok false
        rw [← memberContains_eq_false]
        cases opraCtx <;> cases hasOpraValue obj <;> simp [pure, Except.pure]

/-! ### Conditions -/

mutual

/-- The cleaner raises nothing: every `dict` it comes to is classified, and the snapshots that it
replaces are converted. -/
def Cleans (m : Moneyness) (opraContext : Bool) : Json → Prop
  | .obj obj =>
    match treatment opraContext obj with
    | .error _ => False
    | .ok .snapshot => ∃ safe, snapshotToSafeMetadata m obj = .ok safe
    | .ok (.rebuild opraCtx) => MembersClean m opraCtx obj
    | .ok .synthetic | .ok .stock | .ok .quote => True
  | .arr items => ItemsClean m opraContext items
  | .null | .bool _ | .num _ | .str _ => True

/-- `Cleans` for the items of a list. -/
def ItemsClean (m : Moneyness) (opraContext : Bool) : List Json → Prop
  | [] => True
  | item :: rest => Cleans m opraContext item ∧ ItemsClean m opraContext rest

/-- `Cleans` for the members that a rebuilt `dict` keeps. -/
def MembersClean (m : Moneyness) (opraCtx : Bool) : List (String × Json) → Prop
  | [] => True
  | (key, value) :: rest =>
    (keeps opraCtx key = true → Cleans m opraCtx value) ∧ MembersClean m opraCtx rest

end

mutual

/-- Nothing that the cleaner leaves is flagged, where cleaner and detector come in their contexts.
Stock data is clear as it is, and a `dict` that was rebuilt outside OPRA context holds no OPRA value
if the detector takes it as inside. -/
def Strips (opraContext detected : Bool) : Json → Prop
  | .obj obj =>
    match treatment opraContext obj with
    | .ok .stock => containsRawOpraValues detected (.obj obj) = .ok false
    | .ok (.rebuild opraCtx) =>
      ClearBelow (detectorContext detected (rebuilt opraCtx obj)) (!opraCtx && hasOpraValue obj)
        (fun detected ↦ MembersStrip opraCtx detected obj)
    | .ok .synthetic | .ok .snapshot | .ok .quote | .error _ => True
  | .arr items => ItemsStrip opraContext detected items
  | .null | .bool _ | .num _ | .str _ => True

/-- `Strips` for the items of a list. -/
def ItemsStrip (opraContext detected : Bool) : List Json → Prop
  | [] => True
  | item :: rest => Strips opraContext detected item ∧ ItemsStrip opraContext detected rest

/-- `Strips` for the members that a rebuilt `dict` keeps and its labels do not replace. -/
def MembersStrip (opraCtx detected : Bool) : List (String × Json) → Prop
  | [] => True
  | (key, value) :: rest =>
    (keeps opraCtx key = true → (opraCtx = true → key ≠ "opra_sanitized") →
      Strips opraCtx detected value) ∧ MembersStrip opraCtx detected rest

end

private theorem itemsClean_iff {m : Moneyness} {opraContext : Bool} {items : List Json} :
    ItemsClean m opraContext items ↔ ∀ item ∈ items, Cleans m opraContext item := by
  induction items with
  | nil => simp [ItemsClean]
  | cons item rest ih => rw [ItemsClean, List.forall_mem_cons, ih]

private theorem membersClean_iff {m : Moneyness} {opraCtx : Bool} {obj : Members} :
    MembersClean m opraCtx obj ↔
      ∀ x ∈ obj.filter (fun x ↦ keeps opraCtx x.1), Cleans m opraCtx x.2 := by
  induction obj with
  | nil => simp [MembersClean]
  | cons x rest ih =>
    rw [MembersClean, ih, List.filter_cons]
    split
    · next hk => rw [List.forall_mem_cons, forall_prop_of_true hk]
    · next hk => rw [and_iff_right (fun h ↦ absurd h hk)]

private theorem itemsStrip_iff {opraContext detected : Bool} {items : List Json} :
    ItemsStrip opraContext detected items ↔ ∀ item ∈ items, Strips opraContext detected item := by
  induction items with
  | nil => simp [ItemsStrip]
  | cons item rest ih => rw [ItemsStrip, List.forall_mem_cons, ih]

private theorem membersStrip_iff {opraCtx detected : Bool} {obj : Members} :
    MembersStrip opraCtx detected obj ↔ ∀ x ∈ obj.filter (fun x ↦ keeps opraCtx x.1),
      (opraCtx = true → x.1 ≠ "opra_sanitized") → Strips opraCtx detected x.2 := by
  induction obj with
  | nil => simp [MembersStrip]
  | cons x rest ih =>
    rw [MembersStrip, ih, List.filter_cons]
    split
    · next hk => rw [List.forall_mem_cons, forall_prop_of_true hk]
    · next hk => rw [and_iff_right (fun h ↦ absurd h hk)]

/-! ### What is returned -/

section

variable {m : Moneyness} {opraContext : Bool}

private theorem exists_forall₂_iff {α β : Type} {R : α → β → Prop} {xs : List α} :
    (∃ ys, List.Forall₂ R xs ys) ↔ ∀ x ∈ xs, ∃ y, R x y := by
  induction xs with
  | nil => simp
  | cons x rest ih =>
    rw [List.forall_mem_cons, ← ih]
    constructor
    · rintro ⟨_, h⟩
      cases h with
      | cons hxy hrest => exact ⟨⟨_, hxy⟩, _, hrest⟩
    · rintro ⟨⟨y, hxy⟩, ys, hrest⟩
      exact ⟨y :: ys, .cons hxy hrest⟩

/-- The cleaner returns exactly where it raises nothing on its way. -/
theorem cleans_iff {x : Json} :
    (∃ w, sanitizeNode m opraContext x = .ok w) ↔ Cleans m opraContext x := by
  induction x using Json.induction generalizing opraContext with
  | null | bool | num | str => exact iff_of_true ⟨_, rfl⟩ trivial
  | arr items ih =>
    have hitems : (∃ cleaned, sanitizeItems m opraContext items = .ok cleaned) ↔
        Cleans m opraContext (.arr items) := by
      rw [Cleans, itemsClean_iff]
      simp only [sanitizeItems_eq_ok, exists_forall₂_iff]
      exact forall₂_congr (fun item hitem ↦ ih item hitem)
    rw [← hitems]
    constructor
    · rintro ⟨w, hw⟩
      obtain ⟨cleaned, hcleaned, -⟩ := sanitizeNode_arr hw
      exact ⟨cleaned, hcleaned⟩
    · rintro ⟨cleaned, hcleaned⟩
      refine ⟨.arr cleaned, ?_⟩
      rw [sanitizeNode, hcleaned]
      rfl
  | obj obj ih =>
    rw [sanitizeNode, Cleans]
    cases treatment opraContext obj with
    | error e => exact iff_of_false (fun ⟨w, hw⟩ ↦ nomatch hw) id
    | ok t =>
      cases t with
      | synthetic | stock | quote => exact iff_of_true ⟨_, rfl⟩ trivial
      | snapshot =>
        change (∃ w, (snapshotToSafeMetadata m obj >>= fun safe ↦ pure (Json.obj safe)) = .ok w) ↔
          ∃ safe, snapshotToSafeMetadata m obj = .ok safe
        constructor
        · rintro ⟨w, hw⟩
          obtain ⟨safe, hsafe, -⟩ := bind_eq_ok.mp hw
          exact ⟨safe, hsafe⟩
        · rintro ⟨safe, hsafe⟩
          exact ⟨.obj safe, bind_eq_ok.mpr ⟨safe, hsafe, rfl⟩⟩
      | rebuild opraCtx =>
        have hmembers : (∃ cleaned, sanitizeMembers m opraCtx obj = .ok cleaned) ↔
            MembersClean m opraCtx obj := by
          rw [membersClean_iff]
          simp only [sanitizeMembers_eq_ok, exists_forall₂_iff]
          refine forall₂_congr (fun x hx ↦ ?_)
          rw [← ih x (List.mem_filter.mp hx).1]
          exact ⟨fun ⟨w, _, hw⟩ ↦ ⟨w.2, hw⟩, fun ⟨w, hw⟩ ↦ ⟨(x.1, w), rfl, hw⟩⟩
        change (∃ w, (sanitizeMembers m opraCtx obj >>= fun cleaned ↦
          pure (Json.obj (label opraCtx cleaned))) = .ok w) ↔ MembersClean m opraCtx obj
        rw [← hmembers]
        constructor
        · rintro ⟨w, hw⟩
          obtain ⟨cleaned, hcleaned, -⟩ := bind_eq_ok.mp hw
          exact ⟨cleaned, hcleaned⟩
        · rintro ⟨cleaned, hcleaned⟩
          exact ⟨.obj (label opraCtx cleaned), bind_eq_ok.mpr ⟨cleaned, hcleaned, rfl⟩⟩

/-! ### What is flagged -/

/-- Properties that relate along two lists hold of the one exactly when they hold of the other. -/
theorem forall_iff_of_forall₂ {α β : Type} {R : α → β → Prop} {P : α → Prop} {Q : β → Prop}
    {xs : List α} {ys : List β} (h : List.Forall₂ R xs ys)
    (hPQ : ∀ x ∈ xs, ∀ y, R x y → (Q y ↔ P x)) : (∀ y ∈ ys, Q y) ↔ ∀ x ∈ xs, P x := by
  induction h with
  | nil => simp
  | @cons x y xs ys hxy _ ih =>
    rw [List.forall_mem_cons, List.forall_mem_cons, hPQ x List.mem_cons_self y hxy,
      ih (fun x' hx' ↦ hPQ x' (List.mem_cons_of_mem x hx'))]

private theorem present_sanitizeNode {v w : Json} (h : sanitizeNode m opraContext v = .ok w) :
    w.present = v.present := by
  have hlook := congrArg Look.present (look_shell h)
  change (shell opraContext v).present = w.present at hlook
  rw [← hlook]
  cases v with
  | obj obj =>
    unfold shell
    simp only
    split <;> rfl
  | _ => rfl

/-- A rebuilt `dict` holds an OPRA value when the input does, outside OPRA context. -/
theorem hasOpraValue_label {opraCtx : Bool} {obj cleaned : Members}
    (h : sanitizeMembers m opraCtx obj = .ok cleaned) :
    hasOpraValue (label opraCtx cleaned) = (!opraCtx && hasOpraValue obj) := by
  have hfalse (xs : Members) : hasOpraValue xs = false ↔
      ∀ x ∈ xs, ¬ (x.1 ∈ opraValueFields ∧ x.2.present = true) := by
    unfold hasOpraValue
    simp
  rw [Bool.eq_iff_iff, ← not_iff_not, Bool.not_eq_true, Bool.not_eq_true, hfalse,
    forall_mem_label (by decide) (by decide)]
  cases opraCtx with
  | true =>
    refine iff_of_true ?_ rfl
    intro y hy _
    obtain ⟨x, hx, hkey, -⟩ := exists_of_mem_forall₂ (sanitizeMembers_eq_ok.mp h) hy
    have hk := (List.mem_filter.mp hx).2
    rw [hkey]
    rintro ⟨hvalue, -⟩
    simp [keeps, hvalue] at hk
  | false =>
    have hall := sanitizeMembers_eq_ok.mp h
    have hkept : obj.filter (fun x ↦ keeps false x.1) = obj :=
      List.filter_eq_self.mpr (fun _ _ ↦ rfl)
    rw [hkept] at hall
    change _ ↔ hasOpraValue obj = false
    rw [hfalse]
    simp only [Bool.false_eq_true, false_implies, true_implies]
    apply forall_iff_of_forall₂ hall
    intro x _ y hxy
    rw [hxy.1, present_sanitizeNode hxy.2]

/-- A rebuilt `dict` is read as its look. -/
theorem detectorContext_rebuilt {opraCtx : Bool} {obj cleaned : Members}
    (h : sanitizeMembers m opraCtx obj = .ok cleaned) (hmark : hasSyntheticMark obj = false)
    (detected : Bool) :
    detectorContext detected (label opraCtx cleaned) =
      detectorContext detected (rebuilt opraCtx obj) := by
  unfold detectorContext
  rw [isSyntheticObj_congr (alike_rebuilt h) (mark_rebuilt h hmark),
    inOpraContext_congr (alike_rebuilt h) (mark_rebuilt h hmark)]

/-- Only `dict`s without a mark of a synthetic source are not synthetic. -/
theorem mark_of_not_synthetic {obj : Members} (h : isSyntheticObj obj = .ok false) :
    hasSyntheticMark obj = false := by
  by_contra hmark
  rw [Bool.not_eq_false] at hmark
  unfold isSyntheticObj at h
  split at h
  · cases h
  · obtain ⟨classification, -, h⟩ := bind_eq_ok.mp h
    split at h <;> cases h

/-- The treatment of a `dict` tells whether it is synthetic. -/
theorem isSyntheticObj_of_treatment {obj : Members} {t : Treatment}
    (h : treatment opraContext obj = .ok t) :
    isSyntheticObj obj = .ok (decide (t = .synthetic)) := by
  unfold treatment at h
  obtain ⟨synthetic, hsynthetic, h⟩ := bind_eq_ok.mp h
  rw [hsynthetic]
  cases synthetic with
  | true =>
    cases h
    rfl
  | false =>
    simp only [Bool.false_eq_true, if_false, bind_eq_ok] at h
    obtain ⟨classification, -, h⟩ := h
    split at h
    · cases h
      rfl
    · obtain ⟨opraCtx, -, h⟩ := bind_eq_ok.mp h
      split at h
      · cases h
        rfl
      · split at h <;> cases h <;> rfl

/-! ### Replacements -/

/-- The members of a replacement: no OPRA value fields, and no lists or `dict`s. -/
def Plain (obj : Members) : Prop :=
  obj.truthy "data_classification" = true ∧
    ∀ x ∈ obj, x.1 ∉ opraValueFields ∧ x.2.hashable = true

/-- A plain object has no raw value. -/
theorem Plain.hasOpraValue_eq_false {obj : Members} (h : Plain obj) : hasOpraValue obj = false := by
  unfold hasOpraValue
  rw [List.any_eq_false]
  intro x hx
  rw [decide_eq_false (h.2 x hx).1]
  simp

/-- A labelled `dict` without OPRA value fields, lists and `dict`s is clear in every context. -/
theorem contains_of_plain {obj : Members} (h : Plain obj) (detected : Bool) :
    containsRawOpraValues detected (.obj obj) = .ok false := by
  have hlabel := h.1
  have hclass : ∃ classification, classifyMarketEvent obj = .ok classification := by
    unfold classifyMarketEvent
    simp only [hlabel, if_true]
    exact ⟨_, rfl⟩
  obtain ⟨classification, hclass⟩ := hclass
  have hsynthetic : ∃ b, isSyntheticObj obj = .ok b := by
    unfold isSyntheticObj
    split
    · exact ⟨true, rfl⟩
    · rw [hclass]
      simp only [bind, Except.bind]
      split
      · exact ⟨true, rfl⟩
      · split
        · exact ⟨true, rfl⟩
        · exact ⟨_, rfl⟩
  obtain ⟨synthetic, hsynthetic⟩ := hsynthetic
  have hcontext : ∃ c, detectorContext detected obj = .ok c := by
    unfold detectorContext inOpraContext
    rw [hsynthetic, hclass]
    cases synthetic with
    | true => exact ⟨none, rfl⟩
    | false =>
      cases detected with
      | true => exact ⟨some true, rfl⟩
      | false => cases classification <;> exact ⟨some _, rfl⟩
  obtain ⟨c, hcontext⟩ := hcontext
  rw [contains_obj_eq_false, hcontext]
  cases c with
  | none => trivial
  | some opraCtx =>
    refine ⟨fun _ ↦ h.hasOpraValue_eq_false, fun x hx ↦ ?_⟩
    have hscalar := (h.2 x hx).2
    cases hvalue : x.2 with
    | arr items =>
      rw [hvalue] at hscalar
      cases hscalar
    | obj inner =>
      rw [hvalue] at hscalar
      cases hscalar
    | _ => rfl

private theorem hashable_passFail (b : Bool) : (passFail b).hashable = true := rfl

private theorem hashable_contractRole (t : Option String) : (contractRole t).hashable = true := by
  unfold contractRole
  split <;> rfl

private theorem hashable_selectedDirection (t : Option String) :
    (selectedDirection t).hashable = true := by
  unfold selectedDirection
  split <;> rfl

/-- What is made of a quote is plain. -/
theorem plain_safeQuote (obj : Members) : Plain (safeQuote obj) := by
  refine ⟨rfl, ?_⟩
  unfold safeQuote
  simp only [List.forall_mem_cons, hashable_passFail, hashable_contractRole,
    hashable_selectedDirection]
  simp only [Json.hashable]
  decide

/-- What is made of a snapshot is plain. -/
theorem plain_snapshot {obj safe : Members} (h : snapshotToSafeMetadata m obj = .ok safe) :
    Plain safe := by
  unfold snapshotToSafeMetadata at h
  simp only [bind_eq_ok, pure_eq_ok] at h
  obtain ⟨spread, _, contract, hcontract, avail, _, rfl⟩ := h
  refine ⟨rfl, ?_⟩
  have hown : ∀ x ∈ contract, x.1 ∉ opraValueFields ∧ x.2.hashable = true := by
    unfold contractSafeMetadata at hcontract
    split at hcontract
    · cases hcontract
      decide
    · simp only [bind_eq_ok, pure_eq_ok] at hcontract
      obtain ⟨bucket, _, rfl⟩ := hcontract
      simp only [List.forall_mem_cons, hashable_contractRole, hashable_selectedDirection]
      simp only [Json.hashable]
      decide
  simp only [List.forall_mem_append, List.forall_mem_cons, hashable_passFail]
  simp only [Json.hashable]
  exact ⟨⟨by decide, hown⟩, by decide⟩

/-! ### The exact extent -/

/-- What the cleaner returns is clear to the detector exactly when the input strips. -/
theorem contains_sanitizeNode_iff {x w : Json} {detected : Bool}
    (h : sanitizeNode m opraContext x = .ok w) :
    containsRawOpraValues detected w = .ok false ↔ Strips opraContext detected x := by
  induction x using Json.induction generalizing opraContext detected w with
  | null | bool | num | str =>
    cases h
    exact iff_of_true rfl trivial
  | arr items ih =>
    obtain ⟨cleaned, hcleaned, rfl⟩ := sanitizeNode_arr h
    rw [containsRawOpraValues, itemContains_eq_false, Strips, itemsStrip_iff]
    exact forall_iff_of_forall₂ (sanitizeItems_eq_ok.mp hcleaned) (fun x hx y hxy ↦ ih x hx hxy)
  | obj obj ih =>
    obtain ⟨t, ht, hw⟩ := sanitizeNode_obj h
    rw [Strips]
    simp only [ht]
    cases t with
    | synthetic =>
      obtain rfl := hw
      refine iff_of_true ?_ trivial
      rw [containsRawOpraValues, isSyntheticObj_of_treatment ht]
      rfl
    | stock =>
      obtain rfl := hw
      rfl
    | snapshot =>
      obtain ⟨safe, hsafe, rfl⟩ := hw
      exact iff_of_true (contains_of_plain (plain_snapshot hsafe) detected) trivial
    | quote =>
      obtain rfl := hw
      exact iff_of_true (contains_of_plain (plain_safeQuote obj) detected) trivial
    | rebuild opraCtx =>
      obtain ⟨cleaned, hcleaned, rfl⟩ := hw
      have hmark := mark_of_not_synthetic (isSyntheticObj_of_treatment ht)
      rw [contains_obj_eq_false, detectorContext_rebuilt hcleaned hmark,
        hasOpraValue_label hcleaned]
      have hbelow (opraCtx' : Bool) :
          (∀ y ∈ label opraCtx cleaned, containsRawOpraValues opraCtx' y.2 = .ok false) ↔
            MembersStrip opraCtx opraCtx' obj := by
        rw [forall_mem_label (by rfl) (by rfl), membersStrip_iff]
        apply forall_iff_of_forall₂ (sanitizeMembers_eq_ok.mp hcleaned)
        intro x hx y hxy
        rw [hxy.1, ih x (List.mem_filter.mp hx).1 hxy.2]
      simp only [hbelow]

end

/-- `_contains_raw_opra_values(_sanitize_node(obj))`. -/
def flaggedAfterCleaning (m : Moneyness) (obj : Json) : Except ComplianceError Bool := do
  let cleaned ← sanitizeNode m false obj
  containsRawOpraValues false cleaned

/-- The detector finds nothing in what the cleaner returns exactly when the input is cleaned and
strips. -/
theorem nothingFlagged_iff (m : Moneyness) (x : Json) :
    flaggedAfterCleaning m x = .ok false ↔ Cleans m false x ∧ Strips false false x := by
  unfold flaggedAfterCleaning
  rw [bind_eq_ok]
  constructor
  · rintro ⟨w, hw, hclear⟩
    exact ⟨cleans_iff.mp ⟨w, hw⟩, (contains_sanitizeNode_iff hw).mp hclear⟩
  · rintro ⟨hcleans, hstrips⟩
    obtain ⟨w, hw⟩ := cleans_iff.mpr hcleans
    exact ⟨w, hw, (contains_sanitizeNode_iff hw).mpr hstrips⟩

/-- Nothing is written of what is still flagged. -/
theorem sanitizeForPersistence_of_flagged {m : Moneyness} {x : Json} {hadRaw : Bool}
    (hread : containsRawOpraValues false x = .ok hadRaw)
    (hflagged : flaggedAfterCleaning m x = .ok true) :
    sanitizeForPersistence m x = .error .rawOpraViolation := by
  obtain ⟨w, hw, hraw⟩ := bind_eq_ok.mp hflagged
  unfold sanitizeForPersistence assertNoRawOpra
  rw [hread, hw]
  simp only [bind, Except.bind, hraw, if_true]

/-- Any strike is read, and is at the money. -/
def atTheMoney : Moneyness where
  reads _ := true
  bucket _ _ _ := some .atm

/-- A stock quote that carries an OPRA quote. -/
def quoteWithOption : Json :=
  .obj [("event_type", .str "spy_quote"),
    ("option", .obj [("data_classification", .str "RAW_OPRA"), ("bid", .num 1)])]

/-- Stock data is handed back whole, and the OPRA quote in it stops the write. -/
theorem not_nothingFlagged_quoteWithOption :
    flaggedAfterCleaning atTheMoney quoteWithOption = .ok true ∧
      sanitizeForPersistence atTheMoney quoteWithOption = .error .rawOpraViolation := by
  have hflagged : flaggedAfterCleaning atTheMoney quoteWithOption = .ok true := by decide +kernel
  have hread : containsRawOpraValues false quoteWithOption = .ok true := by decide +kernel
  exact ⟨hflagged, sanitizeForPersistence_of_flagged hread hflagged⟩

end Joker.Compliance
