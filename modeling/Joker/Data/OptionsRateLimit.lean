import Mathlib.Algebra.Order.Field.Rat
import Joker.Base.Dict
import Joker.Base.SlidingWindow
import Joker.Broker.Domain

/-!
# Rate limiting and caching

Library `Data`. `joker/data/options_rate_limit.py`, in exact arithmetic: the sliding-window rate
limiter and the cache whose entries expire. Both read a clock that does not go back. The limiter
keeps the requests within its window, and decides as one that forgets none; the cache answers as
the whole history of what was stored does.
-/

namespace Joker.Data

open Joker.Base Joker.Broker

/-! ### The limiter -/

/-- `RateLimiter`; `windowText` is how its message prints the window, rounded to whole seconds.
Source `joker/data/options_rate_limit.py:13–29`. -/
structure RateLimiter where
  maxRequests : ℤ
  windowSeconds : ℚ
  windowText : String
  timestamps : List ℚ

namespace RateLimiter

/-- `RateLimitExceeded`. Source `joker/data/options_rate_limit.py:32–33`. -/
def exceeded (limiter : RateLimiter) : PyException :=
  ⟨"RateLimitExceeded", "Rate limit exceeded: " ++ toString limiter.maxRequests ++
    " requests per " ++ limiter.windowText ++ "s"⟩

/-- `acquire`, at the time that it reads. Source `joker/data/options_rate_limit.py:20–29`. -/
def acquire (now : ℚ) (limiter : RateLimiter) : RateLimiter × Except PyException Unit :=
  let kept := recent limiter.windowSeconds now limiter.timestamps
  if limiter.maxRequests ≤ kept.length then
    ({ limiter with timestamps := kept }, .error limiter.exceeded)
  else ({ limiter with timestamps := kept ++ [now] }, .ok ())

/-- The limiter remembers of a log what still counts, and let every time of it in. -/
structure Remembers (limiter : RateLimiter) (log : List ℚ) (now : ℚ) : Prop where
  kept : ∀ later, now ≤ later → recent limiter.windowSeconds later limiter.timestamps =
    recent limiter.windowSeconds later log
  past : ∀ t ∈ log, t ≤ now
  sorted : log.Pairwise (· ≤ ·)
  admitted : Admitted limiter.maxRequests.toNat limiter.windowSeconds log

variable {limiter : RateLimiter} {log : List ℚ} {now : ℚ}

private theorem acquire_of_full
    (h : limiter.maxRequests ≤ (recent limiter.windowSeconds now limiter.timestamps).length) :
    limiter.acquire now =
      ({ limiter with timestamps := recent limiter.windowSeconds now limiter.timestamps },
        .error limiter.exceeded) := if_pos h

private theorem acquire_of_room
    (h : ¬ limiter.maxRequests ≤ (recent limiter.windowSeconds now limiter.timestamps).length) :
    limiter.acquire now =
      ({ limiter with timestamps := recent limiter.windowSeconds now limiter.timestamps ++ [now] },
        .ok ()) := if_neg h

/-- A new limiter remembers that there was no request. -/
theorem remembers_nil (h : limiter.timestamps = []) (now : ℚ) : limiter.Remembers [] now := by
  refine ⟨fun later _ ↦ ?_, fun t ht ↦ ?_, List.Pairwise.nil, admitted_nil _ _⟩
  · rw [h]
  · exact absurd ht List.not_mem_nil

/-- What a limiter remembers it remembers later. -/
theorem Remembers.mono (h : limiter.Remembers log now) {later : ℚ} (hle : now ≤ later) :
    limiter.Remembers log later :=
  ⟨fun t ht ↦ h.kept t (hle.trans ht), fun t ht ↦ (h.past t ht).trans hle, h.sorted, h.admitted⟩

/-- The limiter refuses exactly when the whole log fills its window. -/
theorem Remembers.acquire_eq (h : limiter.Remembers log now) :
    (limiter.acquire now).2 =
      if limiter.maxRequests ≤ (inWindow limiter.windowSeconds now log).length then
        .error limiter.exceeded
      else .ok () := by
  rw [inWindow_eq_recent h.past, ← h.kept now le_rfl]
  by_cases hfull : limiter.maxRequests ≤
      (recent limiter.windowSeconds now limiter.timestamps).length
  · rw [acquire_of_full hfull, if_pos hfull]
  · rw [acquire_of_room hfull, if_neg hfull]

/-- A refusal forgets only what has left the window. -/
theorem Remembers.refused (h : limiter.Remembers log now)
    (hfull : limiter.maxRequests ≤ (inWindow limiter.windowSeconds now log).length) :
    (limiter.acquire now).1.Remembers log now := by
  have hkept := h.kept now le_rfl
  rw [inWindow_eq_recent h.past, ← hkept] at hfull
  rw [acquire_of_full hfull]
  refine ⟨fun later hle ↦ ?_, h.past, h.sorted, h.admitted⟩
  change recent _ later (recent _ now _) = _
  rw [recent_recent hle, h.kept later hle]

/-- A request that is let in joins the log. -/
theorem Remembers.granted (h : limiter.Remembers log now)
    (hroom : ¬ limiter.maxRequests ≤ (inWindow limiter.windowSeconds now log).length) :
    (limiter.acquire now).1.Remembers (log ++ [now]) now := by
  have hkept := h.kept now le_rfl
  rw [inWindow_eq_recent h.past] at hroom
  have hfree := hroom
  rw [← hkept] at hfree
  rw [acquire_of_room hfree]
  refine ⟨fun later hle ↦ ?_, ?_, ?_, ?_⟩
  · change recent _ later (recent _ now _ ++ [now]) = _
    rw [recent_append, recent_append, recent_recent hle, h.kept later hle]
  · intro t ht
    rcases List.mem_append.mp ht with ht | ht
    · exact h.past t ht
    · exact (List.mem_singleton.mp ht).le
  · apply List.pairwise_append.mpr
    refine ⟨h.sorted, List.pairwise_singleton _ _, fun t ht last hlast ↦ ?_⟩
    rw [List.mem_singleton.mp hlast]
    exact h.past t ht
  · apply admitted_snoc h.admitted
    omega

end RateLimiter

/-! ### The cache -/

/-- `TTLCache`. Source `joker/data/options_rate_limit.py:37–55`. -/
structure TTLCache (V : Type) where
  ttlSeconds : ℚ
  entries : Dict String (ℚ × V)

/-- An entry of a cache's history: when something was stored under a key. -/
structure Stored (V : Type) where
  key : String
  time : ℚ
  value : V

/-- The last of what was stored under a key. -/
def latest {V : Type} (key : String) (log : List (Stored V)) : Option (Stored V) :=
  (log.filter (fun stored ↦ stored.key = key)).getLast?

/-- The last of what was stored under a key, unless it is older than it may be. -/
def fresh {V : Type} (ttlSeconds : ℚ) (key : String) (now : ℚ) (log : List (Stored V)) :
    Option V :=
  ((latest key log).filter (fun stored ↦ now ≤ stored.time + ttlSeconds)).map Stored.value

namespace TTLCache

variable {V : Type}

/-- `get`, at the time that it reads: an expired entry is deleted.
Source `joker/data/options_rate_limit.py:41–49`. -/
def get (key : String) (now : ℚ) (cache : TTLCache V) : TTLCache V × Option V :=
  match cache.entries.get? key with
  | none => (cache, none)
  | some (expiresAt, value) =>
    if expiresAt < now then ({ cache with entries := cache.entries.erase key }, none)
    else (cache, some value)

/-- `set`, at the time that it reads. Source `joker/data/options_rate_limit.py:51–52`. -/
def set (key : String) (value : V) (now : ℚ) (cache : TTLCache V) : TTLCache V :=
  { cache with entries := cache.entries.set key (now + cache.ttlSeconds, value) }

/-- `clear`. Source `joker/data/options_rate_limit.py:54–55`. -/
def clear (cache : TTLCache V) : TTLCache V := { cache with entries := Dict.empty }

/-- A cache keeps the last value of every key, but for some that have expired. -/
def Keeps (cache : TTLCache V) (log : List (Stored V)) (now : ℚ) : Prop :=
  ∀ key, cache.entries.get? key =
      (latest key log).map (fun stored ↦ (stored.time + cache.ttlSeconds, stored.value)) ∨
    cache.entries.get? key = none ∧
      ∀ stored ∈ latest key log, stored.time + cache.ttlSeconds < now

/-- The latest of a log is its last entry where that has the key, and the earlier latest otherwise.
-/
theorem latest_snoc (key : String) (log : List (Stored V)) (stored : Stored V) :
    latest key (log ++ [stored]) = if stored.key = key then some stored else latest key log := by
  unfold latest
  rw [List.filter_append, List.filter_singleton]
  by_cases hkey : stored.key = key
  · simp [hkey]
  · simp [hkey]

/-- An empty cache keeps nothing. -/
theorem keeps_nil {cache : TTLCache V} (h : cache.entries = Dict.empty) (now : ℚ) :
    cache.Keeps [] now := by
  intro key
  left
  rw [h]
  rfl

/-- What is kept is kept later. -/
theorem Keeps.mono {cache : TTLCache V} {log : List (Stored V)} {now later : ℚ}
    (h : cache.Keeps log now) (hle : now ≤ later) : cache.Keeps log later :=
  fun key ↦ (h key).imp_right (fun hgone ↦
    ⟨hgone.1, fun stored hstored ↦ (hgone.2 stored hstored).trans_le hle⟩)

/-- A stored value is the last of its key. -/
theorem Keeps.set {cache : TTLCache V} {log : List (Stored V)} {now : ℚ} (h : cache.Keeps log now)
    (key : String) (value : V) :
    (cache.set key value now).Keeps (log ++ [⟨key, now, value⟩]) now := by
  intro k
  unfold TTLCache.set
  rw [Dict.get?_set, latest_snoc]
  by_cases hkey : key = k
  · left
    simp [hkey]
  · simp only [hkey, if_false]
    exact h k

/-- A cache answers as the whole history does. -/
theorem Keeps.get_eq {cache : TTLCache V} {log : List (Stored V)} {now : ℚ}
    (h : cache.Keeps log now) (key : String) :
    (cache.get key now).2 = fresh cache.ttlSeconds key now log := by
  unfold TTLCache.get fresh
  rcases h key with hkept | ⟨hnone, hexpired⟩
  · rw [hkept]
    cases latest key log with
    | none => rfl
    | some stored =>
      simp only [Option.map_some, Option.filter_some]
      by_cases hold : stored.time + cache.ttlSeconds < now
      · simp [hold, not_le.mpr hold]
      · simp [hold, not_lt.mp hold]
  · rw [hnone]
    cases hlatest : latest key log with
    | none => rfl
    | some stored =>
      have hold := hexpired stored hlatest
      simp [hold]

/-- Looking something up keeps what has not expired. -/
theorem Keeps.get {cache : TTLCache V} {log : List (Stored V)} {now : ℚ}
    (h : cache.Keeps log now) (key : String) : (cache.get key now).1.Keeps log now := by
  unfold TTLCache.get
  split
  · exact h
  · next expiresAt value hentry =>
    split
    · next hold =>
      intro k
      rw [Dict.get?_erase]
      by_cases hkey : key = k
      · subst hkey
        right
        refine ⟨by simp, fun stored hstored ↦ ?_⟩
        rcases h key with hkept | ⟨hnone, -⟩
        · rw [hentry, hstored] at hkept
          obtain ⟨rfl, -⟩ := Prod.mk.inj (Option.some.inj hkept)
          exact hold
        · rw [hentry] at hnone
          cases hnone
      · simp only [hkey, if_false]
        exact h k
    · exact h

end TTLCache
end Joker.Data
