import Joker.Compliance.Stripping

/-!
# What a write exposes

Library `Compliance`. A `dict` that says that it is OPRA data is written with its values where the
cleaner does not look at it as OPRA data: inside synthetic and stock data, and where its label or
its checks make it safe metadata. Nothing else that is OPRA by its own word is written.
-/

namespace Joker.Compliance

open Joker.Base

/-! ### Leaks -/

/-- A `dict` is OPRA data by its own label or source, and does not say that it is synthetic. -/
def explicitlyOpra (obj : Members) : Bool :=
  (decide (obj.text "data_classification" ∈
      [DataClassification.rawOpra.value, DataClassification.derivedOpraPrice.value]) ||
    isOpraSource (obj.text "source")) && !(obj.get? "is_synthetic").any Json.isTrue

mutual

/-- An explicitly OPRA `dict` with a value in an OPRA value field, at any depth. -/
def leaks : Json → Bool
  | .obj obj => (explicitlyOpra obj && hasOpraValue obj) || memberLeaks obj
  | .arr items => itemLeaks items
  | .null | .bool _ | .num _ | .str _ => false

/-- Some item of a list leaks. -/
def itemLeaks : List Json → Bool
  | [] => false
  | item :: rest => leaks item || itemLeaks rest

/-- Some member of a `dict` leaks. -/
def memberLeaks : List (String × Json) → Bool
  | [] => false
  | (_, value) :: rest => leaks value || memberLeaks rest

end

mutual

/-- The input has an explicitly OPRA `dict` with a value where the cleaner leaves it: in what it
hands back whole, or in a `dict` that it rebuilds outside OPRA context. -/
def exposed (opraContext : Bool) : Json → Bool
  | .obj obj =>
    match treatment opraContext obj with
    | .ok .synthetic | .ok .stock => leaks (.obj obj)
    | .ok (.rebuild opraCtx) =>
      (!opraCtx && explicitlyOpra obj && hasOpraValue obj) || memberExposed opraCtx obj
    | .ok .snapshot | .ok .quote | .error _ => false
  | .arr items => itemExposed opraContext items
  | .null | .bool _ | .num _ | .str _ => false

/-- Some item of a list is exposed. -/
def itemExposed (opraContext : Bool) : List Json → Bool
  | [] => false
  | item :: rest => exposed opraContext item || itemExposed opraContext rest

/-- Some member that a rebuilt `dict` keeps, and that its labels do not replace, is exposed. -/
def memberExposed (opraCtx : Bool) : List (String × Json) → Bool
  | [] => false
  | (key, value) :: rest =>
    (keeps opraCtx key && !(opraCtx && key = "opra_sanitized") && exposed opraCtx value) ||
      memberExposed opraCtx rest

end

private theorem itemLeaks_eq_false {items : List Json} :
    itemLeaks items = false ↔ ∀ item ∈ items, leaks item = false := by
  induction items with
  | nil => simp [itemLeaks]
  | cons item rest ih => rw [itemLeaks, Bool.or_eq_false_iff, List.forall_mem_cons, ih]

private theorem memberLeaks_eq_false {obj : Members} :
    memberLeaks obj = false ↔ ∀ x ∈ obj, leaks x.2 = false := by
  induction obj with
  | nil => simp [memberLeaks]
  | cons x rest ih => rw [memberLeaks, Bool.or_eq_false_iff, List.forall_mem_cons, ih]

private theorem itemExposed_eq_false {opraContext : Bool} {items : List Json} :
    itemExposed opraContext items = false ↔ ∀ item ∈ items, exposed opraContext item = false := by
  induction items with
  | nil => simp [itemExposed]
  | cons item rest ih => rw [itemExposed, Bool.or_eq_false_iff, List.forall_mem_cons, ih]

private theorem memberExposed_eq_false {opraCtx : Bool} {obj : Members} :
    memberExposed opraCtx obj = false ↔ ∀ x ∈ obj.filter (fun x ↦ keeps opraCtx x.1),
      (opraCtx = true → x.1 ≠ "opra_sanitized") → exposed opraCtx x.2 = false := by
  induction obj with
  | nil => simp [memberExposed]
  | cons x rest ih =>
    rw [memberExposed, Bool.or_eq_false_iff, ih, List.filter_cons]
    split
    · next hk =>
      rw [List.forall_mem_cons, hk]
      cases opraCtx <;> simp
    · next hk =>
      rw [Bool.not_eq_true] at hk
      simp only [hk, Bool.false_and, true_and]

/-! ### Cleaned dicts -/

section

variable {m : Moneyness} {opraContext : Bool}

private theorem outside_sanitizeNode {v w : Json} (h : sanitizeNode m opraContext v = .ok w) :
    w.text? = v.text? ∧ w.isTrue = v.isTrue := by
  have hlook := look_shell h
  have hshell : (shell opraContext v).text? = v.text? ∧
      (shell opraContext v).isTrue = v.isTrue := by
    cases v with
    | obj obj =>
      unfold shell
      simp only
      split <;> exact ⟨rfl, rfl⟩
    | _ => exact ⟨rfl, rfl⟩
  exact ⟨(congrArg Look.text? hlook).symm.trans hshell.1,
    (congrArg Look.isTrue hlook).symm.trans hshell.2⟩

/-- Outside OPRA context a rebuilt `dict` says of itself what the input says. -/
theorem explicitlyOpra_rebuilt {obj cleaned : Members}
    (h : sanitizeMembers m false obj = .ok cleaned) :
    explicitlyOpra cleaned = explicitlyOpra obj := by
  have hall := sanitizeMembers_eq_ok.mp h
  have hkept : obj.filter (fun x ↦ keeps false x.1) = obj :=
    List.filter_eq_self.mpr (fun _ _ ↦ rfl)
  rw [hkept] at hall
  have htext (k : String) : cleaned.text k = obj.text k := by
    have hk := Members.map_get?_of_forall₂ (f := Json.text?) (g := Json.text?)
      (fun _ _ hvw ↦ (outside_sanitizeNode hvw).1.symm) hall k
    have hbind := congrArg (fun o ↦ (Option.bind o id).getD "") hk
    unfold Members.text
    simpa only [Option.bind_map, Function.id_comp] using hbind.symm
  have htrue : (cleaned.get? "is_synthetic").any Json.isTrue =
      (obj.get? "is_synthetic").any Json.isTrue := by
    have hk := Members.map_get?_of_forall₂ (f := Json.isTrue) (g := Json.isTrue)
      (fun _ _ hvw ↦ (outside_sanitizeNode hvw).2.symm) hall "is_synthetic"
    have hany := congrArg (Option.any id) hk
    rw [Option.any_map, Option.any_map] at hany
    exact hany.symm
  unfold explicitlyOpra
  rw [htext, htext, htrue]

/-- A replacement leaks nothing. -/
theorem leaks_of_plain {obj : Members} (h : Plain obj) : leaks (.obj obj) = false := by
  rw [leaks, Bool.or_eq_false_iff, Bool.and_eq_false_iff, memberLeaks_eq_false]
  refine ⟨.inr h.hasOpraValue_eq_false, fun x hx ↦ ?_⟩
  have hscalar := (h.2 x hx).2
  cases hvalue : x.2 with
  | arr items =>
    rw [hvalue] at hscalar
    cases hscalar
  | obj inner =>
    rw [hvalue] at hscalar
    cases hscalar
  | _ => rfl

/-! ### The exact extent -/

/-- What the cleaner returns leaks exactly when the input is exposed. -/
theorem leaks_sanitizeNode {x w : Json} (h : sanitizeNode m opraContext x = .ok w) :
    leaks w = exposed opraContext x := by
  induction x using Json.induction generalizing opraContext w with
  | null | bool | num | str =>
    cases h
    rfl
  | arr items ih =>
    obtain ⟨cleaned, hcleaned, rfl⟩ := sanitizeNode_arr h
    rw [leaks, exposed, Bool.eq_iff_iff, ← not_iff_not, Bool.not_eq_true, Bool.not_eq_true,
      itemLeaks_eq_false, itemExposed_eq_false]
    apply forall_iff_of_forall₂ (sanitizeItems_eq_ok.mp hcleaned)
    intro item hitem y hxy
    rw [ih item hitem hxy]
  | obj obj ih =>
    obtain ⟨t, ht, hw⟩ := sanitizeNode_obj h
    rw [exposed]
    simp only [ht]
    cases t with
    | synthetic | stock => rw [hw]
    | snapshot =>
      obtain ⟨safe, hsafe, rfl⟩ := hw
      exact leaks_of_plain (plain_snapshot hsafe)
    | quote =>
      rw [hw]
      exact leaks_of_plain (plain_safeQuote obj)
    | rebuild opraCtx =>
      obtain ⟨cleaned, hcleaned, rfl⟩ := hw
      have hown : (explicitlyOpra (label opraCtx cleaned) &&
          hasOpraValue (label opraCtx cleaned)) =
            (!opraCtx && explicitlyOpra obj && hasOpraValue obj) := by
        rw [hasOpraValue_label hcleaned]
        cases opraCtx with
        | true => simp
        | false =>
          change (explicitlyOpra cleaned && _) = _
          rw [explicitlyOpra_rebuilt hcleaned]
          rfl
      have hbelow : memberLeaks (label opraCtx cleaned) = memberExposed opraCtx obj := by
        rw [Bool.eq_iff_iff, ← not_iff_not, Bool.not_eq_true, Bool.not_eq_true,
          memberLeaks_eq_false, memberExposed_eq_false, forall_mem_label (by rfl) (by rfl)]
        apply forall_iff_of_forall₂ (sanitizeMembers_eq_ok.mp hcleaned)
        intro x hx y hxy
        rw [hxy.1, ih x (List.mem_filter.mp hx).1 hxy.2]
      rw [leaks, hown, hbelow]

end

/-- The sanitizer returns: neither walk raises, and the input strips. -/
def Returns (m : Moneyness) (x : Json) : Prop :=
  (∃ hadRaw, containsRawOpraValues false x = .ok hadRaw) ∧ Cleans m false x ∧ Strips false false x

/-- The sanitizer returns what the cleaner returns, when the detector finds nothing in it. -/
theorem sanitizeForPersistence_eq_ok {m : Moneyness} {x y : Json} :
    sanitizeForPersistence m x = .ok y ↔ (∃ hadRaw, containsRawOpraValues false x = .ok hadRaw) ∧
      sanitizeNode m false x = .ok y ∧ containsRawOpraValues false y = .ok false := by
  unfold sanitizeForPersistence assertNoRawOpra
  simp only [bind_eq_ok, pure_eq_ok]
  constructor
  · rintro ⟨hadRaw, hread, w, hw, _, ⟨raw, hraw, hpass⟩, rfl⟩
    cases raw with
    | true => cases hpass
    | false => exact ⟨⟨hadRaw, hread⟩, hw, hraw⟩
  · rintro ⟨⟨hadRaw, hread⟩, hy, hclear⟩
    exact ⟨hadRaw, hread, y, hy, (), ⟨false, hclear, rfl⟩, rfl⟩

/-- Whenever the sanitizer returns, nothing that is OPRA by its own word has kept a value, exactly
when an input for which it returns exposes nothing. -/
theorem leaksNothing_iff (m : Moneyness) (x : Json) :
    (∀ y, sanitizeForPersistence m x = .ok y → leaks y = false) ↔
      (Returns m x → exposed false x = false) := by
  simp only [sanitizeForPersistence_eq_ok]
  constructor
  · rintro h ⟨hread, hcleans, hstrips⟩
    obtain ⟨w, hw⟩ := cleans_iff.mpr hcleans
    rw [← leaks_sanitizeNode hw]
    exact h w ⟨hread, hw, (contains_sanitizeNode_iff hw).mpr hstrips⟩
  · rintro h y ⟨hread, hy, hclear⟩
    rw [leaks_sanitizeNode hy]
    exact h ⟨hread, cleans_iff.mp ⟨y, hy⟩, (contains_sanitizeNode_iff hy).mp hclear⟩

/-- An OPRA quote with one of the checks that safe metadata has. -/
def checkedQuote : Members :=
  [("source", .str "webull_opra"), ("spread_check", .str "PASS"), ("bid", .num 1)]

/-- The check makes the quote safe metadata: it is written as it is, with the bid. -/
theorem not_leaksNothing_checkedQuote :
    sanitizeForPersistence atTheMoney (.obj checkedQuote) = .ok (.obj checkedQuote) ∧
      leaks (.obj checkedQuote) = true := by
  have ht : treatment false checkedQuote = .ok (.rebuild false) := by decide +kernel
  have hcleaned : sanitizeNode atTheMoney false (.obj checkedQuote) = .ok (.obj checkedQuote) := by
    rw [sanitizeNode, ht]
    rfl
  have hclear : containsRawOpraValues false (.obj checkedQuote) = .ok false := by decide +kernel
  exact ⟨sanitizeForPersistence_eq_ok.mpr ⟨⟨false, hclear⟩, hcleaned, hclear⟩, by decide +kernel⟩

/-- An OPRA quote inside synthetic data is exposed as well. -/
example : exposed false (.obj [("data_classification", .str "SYNTHETIC_DATA"),
    ("quote", .obj [("source", .str "webull_opra"), ("bid", .num 1)])]) = true := by
  decide +kernel

end Joker.Compliance
