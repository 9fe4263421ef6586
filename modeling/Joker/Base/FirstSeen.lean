import Mathlib.Data.List.Nodup
import Mathlib.Order.Basic

/-!
# Merges that keep what was seen first

Library `Base`. Items have ids. A merge of two lists that keeps, of each id, the item that was seen
first, and lists the items in a fixed order, is determined by the items that are seen first. So it
is associative and absorbs what it merged, and where no two items share an id it does not matter in
which order lists are merged.
-/

namespace Joker.Base

variable {T K : Type*}

/-- No id occurs with two different items. -/
def ConflictFree (idOf : T → K) (items : List T) : Prop :=
  ∀ x ∈ items, ∀ y ∈ items, idOf x = idOf y → x = y

/-- A list in order that has every id once. -/
structure Collated (idOf : T → K) (le : T → T → Prop) (items : List T) : Prop where
  once : (items.map idOf).Nodup
  sorted : items.Pairwise le

variable {idOf : T → K} {le : T → T → Prop} {xs ys : List T} {x : T} {k : K}

/-- In a collated list no id has two different items. -/
theorem Collated.conflictFree (h : Collated idOf le xs) : ConflictFree idOf xs :=
  fun _ hx _ hy hid ↦ List.inj_on_of_nodup_map h.once hx hy hid

variable [DecidableEq K]

/-- The first item of an id. -/
def firstSeen (idOf : T → K) (items : List T) (k : K) : Option T :=
  items.find? (fun item ↦ idOf item = k)

private theorem firstSeen_append (xs ys : List T) (k : K) :
    firstSeen idOf (xs ++ ys) k = (firstSeen idOf xs k).or (firstSeen idOf ys k) :=
  List.find?_append

/-- What is seen first of an id is an item with that id. -/
theorem of_firstSeen (h : firstSeen idOf xs k = some x) : x ∈ xs ∧ idOf x = k :=
  ⟨List.mem_of_find?_eq_some h, by simpa using List.find?_some h⟩

/-- Without conflicts the first item of an id is any item with that id. -/
theorem ConflictFree.firstSeen_eq_some_iff (h : ConflictFree idOf xs) :
    firstSeen idOf xs k = some x ↔ x ∈ xs ∧ idOf x = k := by
  constructor
  · exact of_firstSeen
  · rintro ⟨hx, rfl⟩
    cases hfirst : firstSeen idOf xs (idOf x) with
    | none =>
      have hne := List.find?_eq_none.mp hfirst x hx
      simp at hne
    | some y =>
      obtain ⟨hy, hid⟩ := of_firstSeen hfirst
      rw [h y hy x hx hid]

/-- Without conflicts the order of the items does not matter. -/
theorem ConflictFree.firstSeen_perm (h : ConflictFree idOf xs) (hperm : xs.Perm ys) :
    firstSeen idOf xs = firstSeen idOf ys := by
  have hys : ConflictFree idOf ys := by
    intro x hx y hy
    exact h x (hperm.mem_iff.mpr hx) y (hperm.mem_iff.mpr hy)
  funext k
  ext x
  rw [h.firstSeen_eq_some_iff, hys.firstSeen_eq_some_iff, hperm.mem_iff]

/-- Collated lists are determined by what is seen first in them. -/
theorem Collated.eq_of_firstSeen (hle : ∀ x y, le x y → le y x → idOf x = idOf y)
    (hxs : Collated idOf le xs) (hys : Collated idOf le ys)
    (h : ∀ k, firstSeen idOf xs k = firstSeen idOf ys k) : xs = ys := by
  have hmem : ∀ x, x ∈ xs ↔ x ∈ ys := by
    intro x
    have hx := hxs.conflictFree.firstSeen_eq_some_iff (k := idOf x) (x := x)
    have hy := hys.conflictFree.firstSeen_eq_some_iff (k := idOf x) (x := x)
    rw [and_iff_left rfl] at hx hy
    rw [← hx, ← hy, h]
  have hperm : xs.Perm ys :=
    (List.perm_ext_iff_of_nodup (List.Nodup.of_map idOf hxs.once)
      (List.Nodup.of_map idOf hys.once)).mpr hmem
  apply hperm.eq_of_pairwise ?_ hxs.sorted hys.sorted
  intro x y hx hy hxy hyx
  exact hxs.conflictFree x hx y ((hmem y).mpr hy) (hle x y hxy hyx)

/-- A merge that collates what is seen first. -/
structure MergesFirst (idOf : T → K) (le : T → T → Prop) (merge : List T → List T → List T) :
    Prop where
  collated : ∀ a b, Collated idOf le (merge a b)
  first : ∀ a b k, firstSeen idOf (merge a b) k = firstSeen idOf (a ++ b) k

namespace MergesFirst

variable {merge : List T → List T → List T}

/-- Two merges with the same first items are the same. -/
theorem merge_eq (h : MergesFirst idOf le merge)
    (hle : ∀ x y, le x y → le y x → idOf x = idOf y) {a b c d : List T}
    (hfirst : ∀ k, firstSeen idOf (a ++ b) k = firstSeen idOf (c ++ d) k) :
    merge a b = merge c d := by
  apply Collated.eq_of_firstSeen hle (h.collated a b) (h.collated c d)
  intro k
  rw [h.first, h.first, hfirst]

/-- Merging is associative. -/
theorem assoc (h : MergesFirst idOf le merge) (hle : ∀ x y, le x y → le y x → idOf x = idOf y)
    (a b c : List T) : merge (merge a b) c = merge a (merge b c) := by
  apply h.merge_eq hle
  intro k
  simp only [firstSeen_append, h.first, Option.or_assoc]

/-- A merge absorbs what it merged. -/
theorem absorb (h : MergesFirst idOf le merge) (hle : ∀ x y, le x y → le y x → idOf x = idOf y)
    (a b : List T) : merge a (merge a b) = merge a b := by
  apply h.merge_eq hle
  intro k
  simp only [firstSeen_append, h.first]
  cases firstSeen idOf a k <;> rfl

/-- Merging is commutative where no two items share an id. -/
theorem comm (h : MergesFirst idOf le merge) (hle : ∀ x y, le x y → le y x → idOf x = idOf y)
    {a b : List T} (hfree : ConflictFree idOf (a ++ b)) : merge a b = merge b a := by
  apply h.merge_eq hle
  intro k
  rw [hfree.firstSeen_perm List.perm_append_comm]

/-- What is seen first after some merges is what is seen first in all that was merged. -/
theorem firstSeen_foldl (h : MergesFirst idOf le merge) (start : List T) (lists : List (List T))
    (k : K) :
    firstSeen idOf (lists.foldl merge start) k = firstSeen idOf (start ++ lists.flatten) k := by
  induction lists generalizing start with
  | nil => simp
  | cons list rest ih =>
    rw [List.foldl_cons, ih, List.flatten_cons, firstSeen_append, h.first, ← firstSeen_append,
      List.append_assoc]

/-- Where no two items share an id, lists may be merged in any order. -/
theorem foldl_perm (h : MergesFirst idOf le merge)
    (hle : ∀ x y, le x y → le y x → idOf x = idOf y) {start : List T}
    {lists lists' : List (List T)} (hperm : lists.Perm lists')
    (hfree : ConflictFree idOf (start ++ lists.flatten)) :
    lists.foldl merge start = lists'.foldl merge start := by
  -- After one merge the result is collated.
  have hcollated : ∀ lists : List (List T), lists ≠ [] →
      Collated idOf le (lists.foldl merge start) := by
    intro lists hne
    obtain ⟨init, last, rfl⟩ := List.eq_nil_or_concat' lists |>.resolve_left hne
    rw [List.foldl_append]
    exact h.collated _ _
  rcases eq_or_ne lists [] with rfl | hne
  · rw [hperm.nil_eq]
  · have hne' : lists' ≠ [] := by
      rintro rfl
      exact hne hperm.eq_nil
    apply Collated.eq_of_firstSeen hle (hcollated lists hne) (hcollated lists' hne')
    intro k
    rw [h.firstSeen_foldl, h.firstSeen_foldl,
      hfree.firstSeen_perm (List.Perm.append_left start hperm.flatten)]

end MergesFirst

end Joker.Base
