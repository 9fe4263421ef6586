import Joker.Compliance.Exposure

/-!
# Clean payloads

Library `Compliance`. A payload none of whose `dict`s is in OPRA context by its own content is
written as it is: the inherited context stays off at every level, so nothing is stripped, labelled
or replaced, and the detector finds nothing.
-/

namespace Joker.Compliance

open Joker.Base

mutual

/-- The `dict`s in a value, at any depth. -/
def dictNodes : Json → List Members
  | .obj obj => obj :: memberNodes obj
  | .arr items => itemNodes items
  | .null | .bool _ | .num _ | .str _ => []

/-- `dictNodes` for the items of a list. -/
def itemNodes : List Json → List Members
  | [] => []
  | item :: rest => dictNodes item ++ itemNodes rest

/-- `dictNodes` for the members of a `dict`. -/
def memberNodes : List (String × Json) → List Members
  | [] => []
  | (_, value) :: rest => dictNodes value ++ memberNodes rest

end

private theorem mem_itemNodes {items : List Json} {node : Members} :
    node ∈ itemNodes items ↔ ∃ item ∈ items, node ∈ dictNodes item := by
  induction items with
  | nil => simp [itemNodes]
  | cons item rest ih => rw [itemNodes, List.mem_append, ih, List.exists_mem_cons_iff]

private theorem mem_memberNodes {obj : Members} {node : Members} :
    node ∈ memberNodes obj ↔ ∃ x ∈ obj, node ∈ dictNodes x.2 := by
  induction obj with
  | nil => simp [memberNodes]
  | cons x rest ih => rw [memberNodes, List.mem_append, ih, List.exists_mem_cons_iff]

/-- No `dict` in the payload is in OPRA context by its own content. -/
def CleanPayload (x : Json) : Prop := ∀ node ∈ dictNodes x, inOpraContext node false = .ok false

private theorem CleanPayload.item {items : List Json} (h : CleanPayload (.arr items)) {item : Json}
    (hitem : item ∈ items) : CleanPayload item := by
  intro node hnode
  apply h
  rw [dictNodes]
  exact mem_itemNodes.mpr ⟨item, hitem, hnode⟩

private theorem CleanPayload.node {obj : Members} (h : CleanPayload (.obj obj)) :
    inOpraContext obj false = .ok false := by
  apply h
  rw [dictNodes]
  exact List.mem_cons_self

private theorem CleanPayload.member {obj : Members} (h : CleanPayload (.obj obj))
    {x : String × Json}
    (hx : x ∈ obj) : CleanPayload x.2 := by
  intro node hnode
  apply h
  rw [dictNodes]
  exact List.mem_cons_of_mem _ (mem_memberNodes.mpr ⟨x, hx, hnode⟩)

/-- A `dict` outside OPRA context is told to be synthetic or is classified. -/
theorem reads_of_outside {obj : Members} (h : inOpraContext obj false = .ok false) :
    isSyntheticObj obj = .ok true ∨ (isSyntheticObj obj = .ok false ∧
      ∃ classification, classifyMarketEvent obj = .ok classification) := by
  unfold inOpraContext at h
  obtain ⟨synthetic, hsynthetic, h⟩ := bind_eq_ok.mp h
  cases synthetic with
  | true => exact Or.inl hsynthetic
  | false =>
    obtain ⟨classification, hclass, -⟩ := bind_eq_ok.mp h
    exact Or.inr ⟨hsynthetic, classification, hclass⟩

/-- A `dict` outside OPRA context is handed back or rebuilt outside it. -/
theorem treatment_of_outside {obj : Members} (h : inOpraContext obj false = .ok false) :
    treatment false obj = .ok .synthetic ∨ treatment false obj = .ok .stock ∨
      treatment false obj = .ok (.rebuild false) := by
  unfold treatment
  rcases reads_of_outside h with hsynthetic | ⟨hsynthetic, classification, hclass⟩
  · left
    rw [hsynthetic]
    rfl
  · right
    rw [hsynthetic, hclass, h]
    by_cases hstock : classification = .stockMarketData
    · left
      simp [bind, Except.bind, pure, Except.pure, hstock]
    · right
      simp [bind, Except.bind, pure, Except.pure, hstock]

/-- A clean payload is cleaned into itself. -/
theorem sanitizeNode_of_clean (m : Moneyness) {x : Json} (h : CleanPayload x) :
    sanitizeNode m false x = .ok x := by
  induction x using Json.induction with
  | null | bool _ | num _ | str _ => rfl
  | arr items ih =>
    have hitems : sanitizeItems m false items = .ok items := by
      rw [sanitizeItems_eq_ok, List.forall₂_same]
      intro item hitem
      exact ih item hitem (h.item hitem)
    rw [sanitizeNode, hitems]
    rfl
  | obj obj ih =>
    rw [sanitizeNode]
    rcases treatment_of_outside h.node with ht | ht | ht
    · rw [ht]
      rfl
    · rw [ht]
      rfl
    · have hall : obj.filter (fun x ↦ keeps false x.1) = obj :=
        List.filter_eq_self.mpr (fun _ _ ↦ rfl)
      have hmembers : sanitizeMembers m false obj = .ok obj := by
        rw [sanitizeMembers_eq_ok, hall, List.forall₂_same]
        intro x hx
        exact ⟨rfl, ih x hx (h.member hx)⟩
      rw [ht]
      change (do
        let cleaned ← sanitizeMembers m false obj
        pure (Json.obj (label false cleaned))) = _
      rw [hmembers]
      rfl

/-- The detector finds nothing in a clean payload. -/
theorem contains_of_clean {x : Json} (h : CleanPayload x) :
    containsRawOpraValues false x = .ok false := by
  induction x using Json.induction with
  | null | bool _ | num _ | str _ => rfl
  | arr items ih =>
    rw [containsRawOpraValues, itemContains_eq_false]
    intro item hitem
    exact ih item hitem (h.item hitem)
  | obj obj ih =>
    rw [contains_obj_eq_false]
    unfold detectorContext
    rcases reads_of_outside h.node with hsynthetic | ⟨hsynthetic, -⟩
    · rw [hsynthetic]
      exact trivial
    · rw [hsynthetic, h.node]
      constructor
      · intro hctx
        cases hctx
      · intro x hx
        exact ih x hx (h.member hx)

/-- A clean payload is written as it is, and nothing is raised. -/
theorem sanitizeForPersistence_of_clean (m : Moneyness) (x : Json)
    (h : ∀ node ∈ dictNodes x, inOpraContext node false = .ok false) :
    sanitizeForPersistence m x = .ok x :=
  sanitizeForPersistence_eq_ok.mpr
    ⟨⟨false, contains_of_clean h⟩, sanitizeNode_of_clean m h, contains_of_clean h⟩

/-- A stock quote in a list of decisions, next to synthetic data with option prices. -/
def cleanDecision : Json :=
  .obj [("decision", .str "hold"),
    ("inputs", .arr [.obj [("event_type", .str "spy_quote"), ("bid", .num 501)],
      .obj [("is_synthetic", .bool true), ("option_type", .str "call"), ("mid", .num 2)]])]

/-- The sanitizer leaves the clean decision as it is. -/
theorem sanitizeForPersistence_cleanDecision :
    sanitizeForPersistence atTheMoney cleanDecision = .ok cleanDecision :=
  sanitizeForPersistence_of_clean atTheMoney cleanDecision (by decide +kernel)

end Joker.Compliance
