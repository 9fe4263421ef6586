import Mathlib.Data.Rat.Defs
import Joker.Base.Dict

/-!
# JSON values

Library `Base`. The values that `model_dump(mode="json")` gives. The members of an object are
listed in one order, so that equality of values is Python's equality of what they stand for.
-/

namespace Joker.Base

/-- Every element of the second of two related lists has a partner in the first. -/
theorem exists_of_mem_forall₂ {α β : Type} {R : α → β → Prop} {xs : List α} {ys : List β}
    (h : List.Forall₂ R xs ys) {y : β} (hy : y ∈ ys) : ∃ x ∈ xs, R x y := by
  induction h with
  | nil => cases hy
  | @cons x y' xs ys hxy _ ih =>
    rcases List.mem_cons.mp hy with rfl | hy
    · exact ⟨x, List.mem_cons_self, hxy⟩
    · obtain ⟨x', hx', hR⟩ := ih hy
      exact ⟨x', List.mem_cons_of_mem x hx', hR⟩

/-- A JSON value. -/
inductive Json where
  | null
  | bool (b : Bool)
  | num (value : ℚ)
  | str (text : String)
  | arr (items : List Json)
  | obj (members : List (String × Json))

namespace Json

/-- A text or `None`. -/
def ofText : Option String → Json
  | some text => str text
  | none => null

/-- A value or `None`. -/
def ofOption : Option Json → Json
  | some value => value
  | none => null

/-- The text, when the value is one: `isinstance(value, str)`. -/
def text? : Json → Option String
  | str text => some text
  | _ => none

/-- A list of texts. -/
def texts (xs : List String) : Json := arr (xs.map str)

/-- Lists of texts agree exactly when their values do. -/
theorem texts_inj {xs ys : List String} : texts xs = texts ys ↔ xs = ys := by
  unfold texts
  rw [arr.injEq]
  exact List.map_inj_right (fun _ _ h ↦ str.inj h)

/-- `bool(value)`. -/
def truthy : Json → Bool
  | null => false
  | bool b => b
  | num value => decide (value ≠ 0)
  | str text => decide (text ≠ "")
  | arr items => !items.isEmpty
  | obj members => !members.isEmpty

/-- `value is not None`. -/
def present : Json → Bool
  | null => false
  | _ => true

/-- `value is True`. -/
def isTrue : Json → Bool
  | bool b => b
  | _ => false

/-- The value has a hash: it is no list and no `dict`. -/
def hashable : Json → Bool
  | arr _ | obj _ => false
  | _ => true

/-- The members, when the value is a `dict`. -/
def members? : Json → Option (List (String × Json))
  | obj members => some members
  | _ => none

mutual

/-- Some text in the value, at any depth and keys included, has a property. -/
def hasSome (p : String → Bool) : Json → Bool
  | str text => p text
  | arr items => someItem p items
  | obj members => someMember p members
  | null | bool _ | num _ => false

/-- `hasSome` for the items of a list. -/
def someItem (p : String → Bool) : List Json → Bool
  | [] => false
  | item :: rest => hasSome p item || someItem p rest

/-- `hasSome` for the members of a `dict`. -/
def someMember (p : String → Bool) : List (String × Json) → Bool
  | [] => false
  | (key, value) :: rest => p key || hasSome p value || someMember p rest

end

/-- No item has a member exactly when every item has none. -/
theorem someItem_eq_false {p : String → Bool} {items : List Json} :
    someItem p items = false ↔ ∀ item ∈ items, item.hasSome p = false := by
  induction items with
  | nil => simp [someItem]
  | cons item rest ih => simp [someItem, ih]

/-- No member matches exactly when no key does and no value has one. -/
theorem someMember_eq_false {p : String → Bool} {members : List (String × Json)} :
    someMember p members = false ↔
      ∀ member ∈ members, p member.1 = false ∧ member.2.hasSome p = false := by
  induction members with
  | nil => simp [someMember]
  | cons member rest ih => simp [someMember, ih, and_assoc]

/-- The induction rule: a property of the items and members of a value holds of the value. -/
@[elab_as_elim]
theorem induction {P : Json → Prop} (null : P null) (bool : ∀ b, P (bool b))
    (num : ∀ value, P (num value)) (str : ∀ text, P (str text))
    (arr : ∀ items, (∀ item ∈ items, P item) → P (arr items))
    (obj : ∀ members, (∀ member ∈ members, P member.2) → P (obj members)) (x : Json) : P x := by
  refine @Json.rec P (fun items ↦ ∀ item ∈ items, P item)
    (fun members ↦ ∀ member ∈ members, P member.2) (fun member ↦ P member.2)
    null bool num str arr obj ?_ ?_ ?_ ?_ ?_ x
  · exact fun item h ↦ nomatch h
  · intro item rest hitem hrest x hx
    rcases List.mem_cons.mp hx with rfl | hx
    · exact hitem
    · exact hrest x hx
  · exact fun member h ↦ nomatch h
  · intro member rest hmember hrest x hx
    rcases List.mem_cons.mp hx with rfl | hx
    · exact hmember
    · exact hrest x hx
  · exact fun key value h ↦ h

end Json

/-- The members of a JSON object, as a `dict[str, Any]` holds them. -/
abbrev Members := List (String × Json)

namespace Members

/-- `members.get(key)`. -/
def get? (members : Members) (key : String) : Option Json := List.lookup key members

/-- `key in members`. -/
def has (members : Members) (key : String) : Bool := (members.get? key).isSome

/-- `bool(members.get(key))`. -/
def truthy (members : Members) (key : String) : Bool := (members.get? key).any Json.truthy

/-- `members.get(key) is not None`. -/
def present (members : Members) (key : String) : Bool := (members.get? key).any Json.present

/-- The text under a key, if there is one. -/
def text (members : Members) (key : String) : String :=
  ((members.get? key).bind Json.text?).getD ""

/-- `members[key] = value`. -/
def set (members : Members) (key : String) (value : Json) : Members :=
  if members.has key then members.map (fun m ↦ if m.1 = key then (key, value) else m)
  else members ++ [(key, value)]

/-- `members.setdefault(key, value)`. -/
def setDefault (members : Members) (key : String) (value : Json) : Members :=
  if members.has key then members else members ++ [(key, value)]

/-- An empty object has no members. -/
theorem get?_nil (k : String) : get? [] k = none := rfl

/-- The first member is found under its key, and later ones under theirs. -/
theorem get?_cons (key : String) (value : Json) (rest : Members) (k : String) :
    get? ((key, value) :: rest) k = if k = key then some value else rest.get? k := by
  unfold get?
  rw [List.lookup_cons]
  by_cases h : k = key
  · simp [h]
  · rw [if_neg h, beq_false_of_ne h]

private theorem get?_append (xs ys : Members) (k : String) :
    get? (xs ++ ys) k = (xs.get? k).or (ys.get? k) := by
  induction xs with
  | nil => rfl
  | cons m rest ih =>
    rcases m with ⟨key, value⟩
    change get? ((key, value) :: (rest ++ ys)) k = _
    rw [get?_cons, get?_cons, ih]
    split <;> rfl

/-- Of the members whose keys pass, those are found that were found before. -/
theorem get?_filter (members : Members) (p : String → Bool) (k : String) :
    get? (members.filter (fun m ↦ p m.1)) k = if p k then members.get? k else none := by
  induction members with
  | nil => simp [get?_nil]
  | cons m rest ih =>
    rcases m with ⟨key, value⟩
    rw [List.filter_cons]
    split
    · next hp =>
      rw [get?_cons, get?_cons, ih]
      split
      · next hk => rw [if_pos (hk ▸ hp)]
      · rfl
    · next hp =>
      rw [ih, get?_cons]
      split
      · next hpk =>
        have hne : k ≠ key := by
          rintro rfl
          exact hp hpk
        rw [if_neg hne]
      · rfl

/-- Lists of related members with the same keys are looked up alike. -/
theorem get?_of_forall₂ {R : Json → Json → Prop} {xs ys : Members}
    (h : List.Forall₂ (fun x y ↦ y.1 = x.1 ∧ R x.2 y.2) xs ys) (k : String) :
    (xs.get? k = none ∧ ys.get? k = none) ∨
      ∃ v w, xs.get? k = some v ∧ ys.get? k = some w ∧ R v w := by
  induction h with
  | nil => exact Or.inl ⟨rfl, rfl⟩
  | @cons x y xs ys hxy _ ih =>
    rcases x with ⟨key, v⟩
    rcases y with ⟨key', w⟩
    obtain ⟨hkey, hR⟩ := hxy
    change key' = key at hkey
    subst hkey
    rw [get?_cons, get?_cons]
    split
    · exact Or.inr ⟨v, w, rfl, rfl, hR⟩
    · exact ih

/-- Objects with the same keys and related values look alike under any view that relates them. -/
theorem map_get?_of_forall₂ {R : Json → Json → Prop} {γ : Type} {f g : Json → γ}
    (hfg : ∀ v w, R v w → f v = g w) {xs ys : Members}
    (h : List.Forall₂ (fun x y ↦ y.1 = x.1 ∧ R x.2 y.2) xs ys) (k : String) :
    (xs.get? k).map f = (ys.get? k).map g := by
  rcases get?_of_forall₂ h k with ⟨hx, hy⟩ | ⟨v, w, hx, hy, hR⟩
  · rw [hx, hy]
    rfl
  · rw [hx, hy]
    exact congrArg some (hfg v w hR)

/-- A mapped object has the mapped values. -/
theorem get?_map (members : Members) (f : Json → Json) (k : String) :
    get? (members.map (fun m ↦ (m.1, f m.2))) k = (members.get? k).map f := by
  induction members with
  | nil => rfl
  | cons m rest ih =>
    rw [List.map_cons, get?_cons, get?_cons, ih]
    split <;> rfl

private theorem has_eq_false {members : Members} {key : String} :
    members.has key = false ↔ ∀ m ∈ members, m.1 ≠ key := by
  unfold has get?
  rw [Option.isSome_eq_false_iff, Option.isNone_iff_eq_none, List.lookup_eq_none_iff]
  constructor
  · intro h m hm he
    have hne := h m hm
    rw [he] at hne
    simp at hne
  · intro h m hm
    simpa using (h m hm).symm

/-- An assignment is seen under its key only. -/
theorem get?_set (members : Members) (key : String) (value : Json) (k : String) :
    (members.set key value).get? k = if k = key then some value else members.get? k := by
  unfold set
  split
  · next h =>
    -- some member has the key, and every such member gets the value
    have hsome : members.any (fun m ↦ decide (m.1 = key)) = true := by
      by_contra hno
      have hfalse := has_eq_false.mpr (fun m hm he ↦
        hno (List.any_eq_true.mpr ⟨m, hm, decide_eq_true he⟩))
      rw [hfalse] at h
      cases h
    clear h
    induction members with
    | nil => cases hsome
    | cons m rest ih =>
      rcases m with ⟨key', value'⟩
      rw [List.map_cons]
      by_cases hkey : key' = key
      · subst hkey
        simp only [if_true, get?_cons]
        split
        · rfl
        · next hk =>
          by_cases hrest : rest.any (fun m ↦ decide (m.1 = key')) = true
          · rw [ih hrest, if_neg hk]
          · congr 1
            rw [List.map_congr_left (g := id), List.map_id]
            intro m hm
            have hne : m.1 ≠ key' := by
              intro he
              exact hrest (List.any_eq_true.mpr ⟨m, hm, decide_eq_true he⟩)
            rw [if_neg hne]
            rfl
      · rw [List.any_cons, decide_eq_false hkey, Bool.false_or] at hsome
        simp only [hkey, if_false, get?_cons, ih hsome]
        split
        · next hk =>
          subst hk
          rw [if_neg hkey]
        · rfl
  · next h =>
    rw [get?_append, get?_cons, get?_nil]
    have hnone : members.get? key = none := by
      simpa [has] using h
    split
    · next hk =>
      rw [hk, hnone]
      rfl
    · rw [Option.or_none]

/-- A default is found where nothing was before. -/
theorem get?_setDefault (members : Members) (key : String) (value : Json) (k : String) :
    (members.setDefault key value).get? k =
      if k = key then some ((members.get? key).getD value) else members.get? k := by
  unfold setDefault
  split
  · next h =>
    obtain ⟨found, hfound⟩ := Option.isSome_iff_exists.mp h
    split
    · next hk => rw [hk, hfound, Option.getD_some]
    · rfl
  · next h =>
    have hnone : members.get? key = none := by
      simpa [has] using h
    rw [get?_append, get?_cons, get?_nil]
    split
    · next hk =>
      rw [hk, hnone]
      rfl
    · rw [Option.or_none]

/-- After an assignment the other members are as they were. -/
theorem forall_mem_set {members : Members} {key : String} {value : Json}
    {P : String × Json → Prop} : (∀ m ∈ members.set key value, P m) ↔
      P (key, value) ∧ ∀ m ∈ members, m.1 ≠ key → P m := by
  unfold set
  split
  · next h =>
    constructor
    · intro hall
      constructor
      · by_contra hno
        have hfalse : members.has key = false := by
          apply has_eq_false.mpr
          intro m hm he
          have hm' := hall _ (List.mem_map.mpr ⟨m, hm, rfl⟩)
          rw [if_pos he] at hm'
          exact hno hm'
        rw [hfalse] at h
        cases h
      · intro m hm hne
        have hm' := hall _ (List.mem_map.mpr ⟨m, hm, rfl⟩)
        rwa [if_neg hne] at hm'
    · rintro ⟨hnew, hold⟩ m' hm'
      obtain ⟨m, hm, rfl⟩ := List.mem_map.mp hm'
      split
      · exact hnew
      · next hne => exact hold m hm hne
  · next h =>
    rw [List.forall_mem_append]
    constructor
    · intro hall
      exact ⟨hall.2 _ List.mem_cons_self, fun m hm _ ↦ hall.1 m hm⟩
    · rintro ⟨hnew, hold⟩
      refine ⟨fun m hm ↦ hold m hm (has_eq_false.mp (Bool.not_eq_true _ ▸ h) m hm), ?_⟩
      intro m hm
      rwa [List.mem_singleton.mp hm]

/-- A default that has the property keeps it for all members. -/
theorem forall_mem_setDefault {members : Members} {key : String} {value : Json}
    {P : String × Json → Prop} (h : P (key, value)) :
    (∀ m ∈ members.setDefault key value, P m) ↔ ∀ m ∈ members, P m := by
  unfold setDefault
  split
  · rfl
  · rw [List.forall_mem_append]
    refine ⟨fun hall ↦ hall.1, fun hall ↦ ⟨hall, ?_⟩⟩
    intro m hm
    rwa [List.mem_singleton.mp hm]

end Members

end Joker.Base
