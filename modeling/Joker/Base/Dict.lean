import Mathlib.Data.List.Basic
import Mathlib.Data.List.Nodup
import Mathlib.Tactic.Common

/-!
# Insertion-ordered dictionaries

Library `Base`. A finite map with the iteration order of a Python `dict`: a new key is
appended, an existing key keeps its place and takes the new value. Keys are distinct by
construction, so lookups and membership of entries describe the same map.
-/

namespace Joker.Base

universe u v

/-- Finite map in insertion order; the field `nodup` excludes a second entry for a key. -/
structure Dict (K : Type u) (V : Type v) where
  entries : List (K × V)
  nodup : (entries.map Prod.fst).Nodup

namespace Dict

variable {K : Type u} {V : Type v} [DecidableEq K]

instance [DecidableEq V] : DecidableEq (Dict K V) := fun a b ↦
  decidable_of_iff (a.entries = b.entries) (by
    constructor
    · intro h
      cases a
      cases b
      cases h
      rfl
    · exact congrArg entries)

private def getEntry (k : K) : List (K × V) → Option V
  | [] => none
  | (key, value) :: rest => if key = k then some value else getEntry k rest

private def setEntry (k : K) (v : V) : List (K × V) → List (K × V)
  | [] => [(k, v)]
  | (key, value) :: rest =>
    if key = k then (k, v) :: rest else (key, value) :: setEntry k v rest

private theorem keys_setEntry (k : K) (v : V) (xs : List (K × V)) :
    (setEntry k v xs).map Prod.fst =
      if k ∈ xs.map Prod.fst then xs.map Prod.fst else xs.map Prod.fst ++ [k] := by
  induction xs with
  | nil => simp [setEntry]
  | cons e rest ih =>
    rcases e with ⟨key, value⟩
    by_cases hk : key = k
    · subst hk
      simp [setEntry]
    · have hn : k ≠ key := Ne.symm hk
      simp only [setEntry, hk, if_false, List.map_cons, ih, List.mem_cons, hn, false_or]
      split <;> rfl

private theorem nodup_setEntry (k : K) (v : V) (xs : List (K × V))
    (h : (xs.map Prod.fst).Nodup) : ((setEntry k v xs).map Prod.fst).Nodup := by
  rw [keys_setEntry]
  split
  · exact h
  · next hk =>
    rw [List.nodup_append]
    refine ⟨h, List.nodup_singleton k, ?_⟩
    intro a ha b hb he
    rw [List.mem_singleton] at hb
    exact hk (hb ▸ he ▸ ha)

/-- The dictionary without entries, `{}`. -/
def empty : Dict K V := ⟨[], List.nodup_nil⟩

instance : Inhabited (Dict K V) := ⟨empty⟩

/-- `d.get(k)`. -/
def get? (d : Dict K V) (k : K) : Option V := getEntry k d.entries

/-- `d[k] = v`. -/
def set (d : Dict K V) (k : K) (v : V) : Dict K V :=
  ⟨setEntry k v d.entries, nodup_setEntry k v d.entries d.nodup⟩

/-- `d.keys()` in iteration order. -/
def keys (d : Dict K V) : List K := d.entries.map Prod.fst

/-- `d.values()` in iteration order. -/
def values (d : Dict K V) : List V := d.entries.map Prod.snd

/-- The dictionary a comprehension builds: later pairs overwrite earlier ones. -/
def ofList (xs : List (K × V)) : Dict K V := xs.foldl (fun d e ↦ d.set e.1 e.2) empty

/-- Equality of dictionaries as Python compares them: the same value at every key, in any
order of insertion. -/
def sameItems [DecidableEq V] (a b : Dict K V) : Bool :=
  decide (a.entries.length = b.entries.length) &&
    a.entries.all (fun e ↦ decide (b.get? e.1 = some e.2))

/-- `{k: f(v) for k, v in d.items()}`. -/
def mapValues {W : Type*} (f : V → W) (d : Dict K V) : Dict K W :=
  ⟨d.entries.map (fun e ↦ (e.1, f e.2)), by
    rw [List.map_map]
    exact d.nodup⟩

omit [DecidableEq K] in
/-- The values are mapped in their order. -/
@[simp] theorem values_mapValues {W : Type*} (f : V → W) (d : Dict K V) :
    (d.mapValues f).values = d.values.map f := by
  unfold values mapValues
  rw [List.map_map, List.map_map]
  rfl

/-- `{k: f(k, v) for k, v in d.items()}`. -/
def mapItems (f : K → V → V) (d : Dict K V) : Dict K V :=
  ⟨d.entries.map (fun e ↦ (e.1, f e.1 e.2)), by
    rw [List.map_map]
    exact d.nodup⟩

/-- `d.pop(k, None)`. -/
def erase (d : Dict K V) (k : K) : Dict K V :=
  ⟨d.entries.filter (fun e ↦ decide (e.1 ≠ k)),
    d.nodup.sublist (List.filter_sublist.map Prod.fst)⟩

/-- Lookup in the empty dictionary. -/
@[simp] theorem get?_empty (k : K) : (empty : Dict K V).get? k = none := rfl

private theorem getEntry_setEntry (k a : K) (v : V) (xs : List (K × V)) :
    getEntry a (setEntry k v xs) = if k = a then some v else getEntry a xs := by
  induction xs with
  | nil => simp [setEntry, getEntry]
  | cons e rest ih =>
    rcases e with ⟨key, value⟩
    by_cases hk : key = k
    · subst hk
      by_cases ha : key = a
      · simp [setEntry, getEntry, ha]
      · simp [setEntry, getEntry, ha]
    · by_cases ha : key = a
      · subst ha
        simp [setEntry, getEntry, hk, Ne.symm hk]
      · simp [setEntry, getEntry, hk, ha, ih]

/-- Lookup after an assignment: the assigned key has the new value, others are unchanged. -/
@[simp] theorem get?_set (d : Dict K V) (k a : K) (v : V) :
    (d.set k v).get? a = if k = a then some v else d.get? a :=
  getEntry_setEntry k a v d.entries

/-- Lookup of the key just assigned. -/
theorem get?_set_self (d : Dict K V) (k : K) (v : V) : (d.set k v).get? k = some v := by simp

/-- Lookup of another key than the one just assigned. -/
theorem get?_set_ne (d : Dict K V) {k a : K} (v : V) (h : k ≠ a) :
    (d.set k v).get? a = d.get? a := by simp [h]

private theorem getEntry_mapItems (f : K → V → V) (a : K) (xs : List (K × V)) :
    getEntry a (xs.map (fun e ↦ (e.1, f e.1 e.2))) = (getEntry a xs).map (f a) := by
  induction xs with
  | nil => rfl
  | cons e rest ih =>
    rcases e with ⟨key, value⟩
    by_cases hk : key = a
    · subst hk
      simp [getEntry]
    · simp [getEntry, hk, ih]

/-- Lookup after every value was rewritten. -/
@[simp] theorem get?_mapItems (f : K → V → V) (d : Dict K V) (a : K) :
    (d.mapItems f).get? a = (d.get? a).map (f a) :=
  getEntry_mapItems f a d.entries

private theorem getEntry_erase (k a : K) (xs : List (K × V)) :
    getEntry a (xs.filter (fun e ↦ decide (e.1 ≠ k))) = if k = a then none else getEntry a xs := by
  induction xs with
  | nil => simp [getEntry]
  | cons e rest ih =>
    rcases e with ⟨key, value⟩
    by_cases hk : key = k
    · subst hk
      rw [List.filter_cons_of_neg (by simp), ih]
      split
      · rfl
      · next ha => simp [getEntry, ha]
    · rw [List.filter_cons_of_pos (by simpa using hk)]
      by_cases ha : key = a
      · subst ha
        simp [getEntry, Ne.symm hk]
      · simp only [getEntry, ha, if_false, ih]

/-- Lookup after a key was removed. -/
@[simp] theorem get?_erase (d : Dict K V) (k a : K) :
    (d.erase k).get? a = if k = a then none else d.get? a :=
  getEntry_erase k a d.entries

private theorem getEntry_mapValues {W : Type*} (f : V → W) (a : K) (xs : List (K × V)) :
    getEntry a (xs.map (fun e ↦ (e.1, f e.2))) = (getEntry a xs).map f := by
  induction xs with
  | nil => rfl
  | cons e rest ih =>
    rcases e with ⟨key, value⟩
    by_cases hk : key = a <;> simp [getEntry, hk, ih]

/-- Lookup after the values were mapped. -/
@[simp] theorem get?_mapValues {W : Type*} (f : V → W) (d : Dict K V) (a : K) :
    (d.mapValues f).get? a = (d.get? a).map f :=
  getEntry_mapValues f a d.entries

omit [DecidableEq K] in
private theorem eq_of_entries {d d' : Dict K V} (h : d.entries = d'.entries) : d = d' := by
  cases d
  cases d'
  cases h
  rfl

private theorem map_setEntry {W : Type*} (f : V → W) (k : K) (v : V) (xs : List (K × V)) :
    (setEntry k v xs).map (fun e ↦ (e.1, f e.2)) =
      setEntry k (f v) (xs.map (fun e ↦ (e.1, f e.2))) := by
  induction xs with
  | nil => rfl
  | cons e rest ih =>
    rcases e with ⟨key, value⟩
    by_cases hk : key = k <;> simp [setEntry, hk, ih]

/-- Mapping the values after an assignment. -/
theorem mapValues_set {W : Type*} (f : V → W) (d : Dict K V) (k : K) (v : V) :
    (d.set k v).mapValues f = (d.mapValues f).set k (f v) :=
  eq_of_entries (map_setEntry f k v d.entries)

omit [DecidableEq K] in
/-- Mapping the values after they were rewritten to values with the same image. -/
theorem mapValues_mapItems {W : Type*} (f : V → W) {g : K → V → V} (d : Dict K V)
    (h : ∀ k v, f (g k v) = f v) : (d.mapItems g).mapValues f = d.mapValues f := by
  apply eq_of_entries
  simp [mapValues, mapItems, h]

/-- Mapping the values after a key was removed. -/
theorem mapValues_erase {W : Type*} (f : V → W) (d : Dict K V) (k : K) :
    (d.erase k).mapValues f = (d.mapValues f).erase k := by
  apply eq_of_entries
  simp only [mapValues, erase, List.filter_map]
  rfl

private theorem setEntry_of_getEntry (k : K) (v : V) (xs : List (K × V))
    (h : getEntry k xs = some v) : setEntry k v xs = xs := by
  induction xs with
  | nil => cases h
  | cons e rest ih =>
    rcases e with ⟨key, value⟩
    by_cases hk : key = k
    · subst hk
      simp only [getEntry, if_true, Option.some.injEq] at h
      simp [setEntry, h]
    · simp only [getEntry, hk, if_false] at h
      simp [setEntry, hk, ih h]

/-- Assigning a key the value it has changes nothing. -/
theorem set_of_get? (d : Dict K V) {k : K} {v : V} (h : d.get? k = some v) : d.set k v = d :=
  eq_of_entries (setEntry_of_getEntry k v d.entries h)

private theorem mem_iff_getEntry (xs : List (K × V)) (h : (xs.map Prod.fst).Nodup)
    (k : K) (v : V) : (k, v) ∈ xs ↔ getEntry k xs = some v := by
  induction xs with
  | nil => simp [getEntry]
  | cons e rest ih =>
    rcases e with ⟨key, value⟩
    simp only [List.map_cons, List.nodup_cons] at h
    by_cases hk : key = k
    · subst hk
      have hn : (key, v) ∉ rest := fun hm ↦ h.1 (List.mem_map.mpr ⟨(key, v), hm, rfl⟩)
      simp [getEntry, hn, eq_comm]
    · simp [getEntry, hk, ih h.2, Ne.symm hk]

/-- An entry is in the dictionary exactly when its key looks up its value. -/
theorem mem_entries_iff (d : Dict K V) (k : K) (v : V) :
    (k, v) ∈ d.entries ↔ d.get? k = some v :=
  mem_iff_getEntry d.entries d.nodup k v

/-- The values are what some key looks up. -/
theorem mem_values_iff (d : Dict K V) (v : V) : v ∈ d.values ↔ ∃ k, d.get? k = some v := by
  constructor
  · intro h
    obtain ⟨⟨k, w⟩, hm, rfl⟩ := List.mem_map.mp h
    exact ⟨k, (d.mem_entries_iff k w).mp hm⟩
  · rintro ⟨k, h⟩
    exact List.mem_map.mpr ⟨(k, v), (d.mem_entries_iff k v).mpr h, rfl⟩

/-- A value after `set` is the new one or was there before. -/
theorem mem_values_of_set {d : Dict K V} {k : K} {v w : V} (h : w ∈ (d.set k v).values) :
    w = v ∨ w ∈ d.values := by
  obtain ⟨k', hk⟩ := (mem_values_iff _ _).mp h
  rw [get?_set] at hk
  split at hk
  · exact Or.inl (Option.some.inj hk).symm
  · exact Or.inr ((mem_values_iff _ _).mpr ⟨k', hk⟩)

/-- The keys are those with a value. -/
theorem mem_keys_iff (d : Dict K V) (k : K) : k ∈ d.keys ↔ ∃ v, d.get? k = some v := by
  constructor
  · intro h
    obtain ⟨⟨a, v⟩, hm, rfl⟩ := List.mem_map.mp h
    exact ⟨v, (d.mem_entries_iff a v).mp hm⟩
  · rintro ⟨v, h⟩
    exact List.mem_map.mpr ⟨(k, v), (d.mem_entries_iff k v).mpr h, rfl⟩

/-- A key without a value is not a key. -/
theorem not_mem_keys_iff (d : Dict K V) (k : K) : k ∉ d.keys ↔ d.get? k = none := by
  rw [mem_keys_iff, not_exists, Option.eq_none_iff_forall_ne_some]

private theorem setEntry_of_absent (k : K) (v : V) (xs : List (K × V))
    (h : k ∉ xs.map Prod.fst) : setEntry k v xs = xs ++ [(k, v)] := by
  induction xs with
  | nil => rfl
  | cons e rest ih =>
    rcases e with ⟨key, value⟩
    simp only [List.map_cons, List.mem_cons, not_or] at h
    simp [setEntry, Ne.symm h.1, ih h.2]

/-- Assigning a new key appends its entry. -/
theorem entries_set_of_absent (d : Dict K V) (k : K) (v : V) (h : d.get? k = none) :
    (d.set k v).entries = d.entries ++ [(k, v)] :=
  setEntry_of_absent k v d.entries ((d.not_mem_keys_iff k).mpr h)

private theorem setEntry_of_split (k : K) (v w : V) (pre post : List (K × V))
    (h : k ∉ pre.map Prod.fst) :
    setEntry k v (pre ++ (k, w) :: post) = pre ++ (k, v) :: post := by
  induction pre with
  | nil => simp [setEntry]
  | cons e rest ih =>
    rcases e with ⟨key, value⟩
    simp only [List.map_cons, List.mem_cons, not_or] at h
    simp [setEntry, Ne.symm h.1, ih h.2]

/-- Assigning a known key replaces its value in place. -/
theorem entries_set_of_present (d : Dict K V) (k : K) (v w : V) (h : d.get? k = some w) :
    ∃ pre post, d.entries = pre ++ (k, w) :: post ∧
      (d.set k v).entries = pre ++ (k, v) :: post := by
  obtain ⟨pre, post, he⟩ := List.append_of_mem ((d.mem_entries_iff k w).mpr h)
  refine ⟨pre, post, he, ?_⟩
  have hn := d.nodup
  rw [he, List.map_append, List.map_cons, List.nodup_append] at hn
  have hk : k ∉ pre.map Prod.fst := fun hm ↦ hn.2.2 k hm k (by simp) rfl
  change setEntry k v d.entries = _
  rw [he, setEntry_of_split k v w pre post hk]

/-- Replacing a value by one with the same image changes no image. -/
theorem map_values_set {W : Type*} (f : V → W) (d : Dict K V) {k : K} {v w : V}
    (h : d.get? k = some w) (hf : f v = f w) : (d.set k v).values.map f = d.values.map f := by
  obtain ⟨pre, post, he, hs⟩ := d.entries_set_of_present k v w h
  unfold values
  rw [hs, he]
  simp [hf]

private theorem get?_foldl_set (xs : List (K × V)) (d : Dict K V) (k : K)
    (h : k ∉ xs.map Prod.fst) :
    (xs.foldl (fun d e ↦ d.set e.1 e.2) d).get? k = d.get? k := by
  induction xs generalizing d with
  | nil => rfl
  | cons e rest ih =>
    simp only [List.map_cons, List.mem_cons, not_or] at h
    rw [List.foldl_cons, ih _ h.2, get?_set_ne _ _ (Ne.symm h.1)]

private theorem get?_foldl_set_mem (xs : List (K × V)) (d : Dict K V) (k : K) (v : V)
    (hn : (xs.map Prod.fst).Nodup) (h : (k, v) ∈ xs) :
    (xs.foldl (fun d e ↦ d.set e.1 e.2) d).get? k = some v := by
  induction xs generalizing d with
  | nil => simp at h
  | cons e rest ih =>
    simp only [List.map_cons, List.nodup_cons] at hn
    rw [List.foldl_cons]
    rcases List.mem_cons.mp h with he | hm
    · subst he
      rw [get?_foldl_set rest _ k hn.1, get?_set_self]
    · exact ih _ hn.2 hm

/-- A comprehension over pairs with distinct keys looks up exactly those pairs. -/
theorem get?_ofList_eq_some_iff (xs : List (K × V)) (hn : (xs.map Prod.fst).Nodup)
    (k : K) (v : V) : (ofList xs).get? k = some v ↔ (k, v) ∈ xs := by
  constructor
  · intro h
    by_cases hk : k ∈ xs.map Prod.fst
    · obtain ⟨⟨a, w⟩, hm, ha⟩ := List.mem_map.mp hk
      change a = k at ha
      subst ha
      have hw := get?_foldl_set_mem xs empty a w hn hm
      rw [ofList, hw, Option.some.injEq] at h
      exact h ▸ hm
    · rw [ofList, get?_foldl_set xs empty k hk, get?_empty] at h
      cases h
  · exact get?_foldl_set_mem xs empty k v hn

private theorem mem_of_get?_foldl_set (xs : List (K × V)) (d : Dict K V) (k : K) (v : V)
    (h : (xs.foldl (fun d e ↦ d.set e.1 e.2) d).get? k = some v) :
    (k, v) ∈ xs ∨ d.get? k = some v := by
  induction xs generalizing d with
  | nil => exact Or.inr h
  | cons e rest ih =>
    rw [List.foldl_cons] at h
    rcases ih _ h with hm | hs
    · exact Or.inl (List.mem_cons_of_mem e hm)
    · rw [get?_set] at hs
      split at hs
      · next he =>
        cases hs
        exact Or.inl (he ▸ List.mem_cons_self)
      · exact Or.inr hs

/-- A comprehension looks up only pairs it was built from. -/
theorem mem_of_get?_ofList {xs : List (K × V)} {k : K} {v : V}
    (h : (ofList xs).get? k = some v) : (k, v) ∈ xs := by
  rcases mem_of_get?_foldl_set xs empty k v h with hm | hs
  · exact hm
  · rw [get?_empty] at hs
    cases hs

private theorem isSome_get?_foldl_set (xs : List (K × V)) (d : Dict K V) (k : K)
    (h : k ∈ xs.map Prod.fst ∨ (d.get? k).isSome = true) :
    ((xs.foldl (fun d e ↦ d.set e.1 e.2) d).get? k).isSome = true := by
  induction xs generalizing d with
  | nil => exact h.resolve_left List.not_mem_nil
  | cons e rest ih =>
    rw [List.foldl_cons]
    apply ih
    rw [List.map_cons, List.mem_cons] at h
    rw [get?_set]
    rcases h with (he | hm) | hs
    · exact Or.inr (by rw [if_pos he.symm]; rfl)
    · exact Or.inl hm
    · right
      split
      · rfl
      · exact hs

/-- A comprehension has every key it was built from. -/
theorem isSome_get?_ofList {xs : List (K × V)} {k : K} (h : k ∈ xs.map Prod.fst) :
    ((ofList xs).get? k).isSome = true :=
  isSome_get?_foldl_set xs empty k (Or.inl h)

/-- A key outside the pairs is absent from the comprehension. -/
theorem get?_ofList_eq_none (xs : List (K × V)) (k : K) (h : k ∉ xs.map Prod.fst) :
    (ofList xs).get? k = none := by
  rw [ofList, get?_foldl_set xs empty k h, get?_empty]

/-! ### Values that know their keys -/

/-- Every value is stored under the key it carries. -/
def Keyed (f : V → K) (d : Dict K V) : Prop := ∀ k, ∀ v ∈ d.get? k, f v = k

/-- The empty dictionary files nothing under a wrong key. -/
theorem keyed_empty (f : V → K) : (empty : Dict K V).Keyed f := fun _ _ h ↦ nomatch h

/-- A value that is set under its own key leaves the dictionary keyed. -/
theorem keyed_set {f : V → K} {d : Dict K V} (h : d.Keyed f) {k : K} {v : V} (hv : f v = k) :
    (d.set k v).Keyed f := by
  intro a w hw
  rw [Option.mem_def, get?_set] at hw
  split at hw
  · next he =>
    cases hw
    exact hv.trans he
  · exact h a w hw

end Dict
end Joker.Base
