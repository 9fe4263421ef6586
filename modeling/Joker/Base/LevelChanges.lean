import Mathlib.Data.List.Nodup

/-!
# Announced changes of a level

Library `Base`. A level that starts at zero, and the stream of what is announced about it: that
it was opened, changed, or closed. When each change from one level to the next is announced, the
stream folds to the last level, and openings and closings alternate.
-/

namespace Joker.Base

/-- What is announced about a level: it left zero, it moved on, it is back at zero. -/
inductive LevelChange (α : Type) where
  | opened (level : α)
  | changed (level : α)
  | closed
  deriving DecidableEq, Repr

namespace LevelChange

variable {α : Type}

/-- Whether the level is open after an announcement that can follow here. -/
def next : Bool → LevelChange α → Option Bool
  | false, .opened _ => some true
  | true, .changed _ => some true
  | true, .closed => some false
  | _, _ => none

/-- Openings and closings alternate, an opening first, and changes only stand between an opening
and the next closing. -/
def Alternating (changes : List (LevelChange α)) : Prop := changes.foldlM next false ≠ none

instance (changes : List (LevelChange α)) : Decidable (Alternating changes) :=
  inferInstanceAs (Decidable (_ ≠ _))

variable [Zero α]

/-- The level that an announcement gives. -/
def level : LevelChange α → α
  | .opened x => x
  | .changed x => x
  | .closed => 0

/-- The level that a stream folds to. -/
def folded (changes : List (LevelChange α)) : α := changes.foldl (fun _ change ↦ change.level) 0

variable [DecidableEq α]

/-- What is announced of a step from one level to another. -/
def between (prev curr : α) : Option (LevelChange α) :=
  if prev = 0 ∧ curr ≠ 0 then some (.opened curr)
  else if prev ≠ 0 ∧ curr = 0 then some .closed
  else if prev ≠ curr then some (.changed curr)
  else none

/-- Between a level and itself nothing changes. -/
@[simp] theorem between_self (x : α) : between x x = none := by
  unfold between
  by_cases hx : x = 0 <;> simp [hx]

/-- A stream tells of a level: it folds to it, and is open where the level is not zero. -/
structure Tells (changes : List (LevelChange α)) (x : α) : Prop where
  folded : folded changes = x
  isOpen : changes.foldlM next false = some (decide (x ≠ 0))

/-- The empty stream tells of zero. -/
theorem tells_nil : Tells ([] : List (LevelChange α)) 0 := ⟨rfl, by simp⟩

/-- Changes that tell a level alternate. -/
theorem Tells.alternating {changes : List (LevelChange α)} {x : α} (h : Tells changes x) :
    Alternating changes := by
  unfold Alternating
  rw [h.isOpen]
  exact Option.some_ne_none _

private theorem tells_snoc {changes : List (LevelChange α)} {x y : α} (h : Tells changes x)
    {change : LevelChange α} (hlevel : change.level = y)
    (hnext : next (decide (x ≠ 0)) change = some (decide (y ≠ 0))) :
    Tells (changes ++ [change]) y := by
  constructor
  · unfold LevelChange.folded
    rw [List.foldl_append]
    exact hlevel
  · rw [List.foldlM_append, h.isOpen]
    simpa using hnext

/-- The step: with what is announced of a step, the stream tells of the next level. -/
theorem Tells.between {changes : List (LevelChange α)} {x : α} (h : Tells changes x) (y : α) :
    Tells (changes ++ (LevelChange.between x y).toList) y := by
  unfold LevelChange.between
  by_cases hx : x = 0
  · by_cases hy : y = 0
    · simpa [hx, hy] using hx ▸ h
    · rw [if_pos ⟨hx, hy⟩]
      exact tells_snoc h rfl (by simp [hx, hy, next])
  · by_cases hy : y = 0
    · rw [if_neg (fun hn ↦ hx hn.1), if_pos ⟨hx, hy⟩]
      exact tells_snoc h hy.symm (by simp [hx, hy, next])
    · rw [if_neg (fun hn ↦ hx hn.1), if_neg (fun hn ↦ hy hn.2)]
      by_cases hxy : x = y
      · rw [if_neg (not_not.mpr hxy)]
        simpa [← hxy] using h
      · rw [if_pos hxy]
        exact tells_snoc h rfl (by simp [hx, hy, next])

end LevelChange

/-- Collecting over a list without duplicates what a function gives at one element only. -/
theorem filterMap_eq_of_ne {κ γ : Type} [DecidableEq κ] {f : κ → Option γ} {k : κ} {ks : List κ}
    (hn : ks.Nodup) (hf : ∀ k' ∈ ks, k' ≠ k → f k' = none) :
    ks.filterMap f = if k ∈ ks then (f k).toList else [] := by
  induction ks with
  | nil => rfl
  | cons k' ks ih =>
    rw [List.nodup_cons] at hn
    have hrest := ih hn.2 (fun k'' hk ↦ hf k'' (List.mem_cons_of_mem k' hk))
    by_cases hk : k' = k
    · subst hk
      rw [if_neg hn.1] at hrest
      rw [if_pos List.mem_cons_self, List.filterMap_cons]
      cases f k' <;> simp [hrest]
    · rw [List.filterMap_cons, hf k' List.mem_cons_self hk, hrest]
      simp [Ne.symm hk]

end Joker.Base
