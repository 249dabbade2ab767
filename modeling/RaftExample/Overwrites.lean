import Mathlib.Data.List.Basic

/-!
# Replaying a log of overwrites

Every entry of the log overwrites some keys with values that do not depend on what was
there.  A state that was fed the log out of step, from some entry on and over leftovers
of a later point, then holds for each key the value from some moment of a known
interval.  Replaying forward moves the lower end of the interval up; once it has
reached the upper end nothing of the past is left.
-/

namespace Overwrites

variable {Entry Key Value : Type*} (writes : Entry → Key → Option Value)

/-- The last value the log writes to a key. -/
def valueAfter (log : List Entry) (key : Key) : Option Value :=
  log.foldl (fun value entry => (writes entry key).or value) none

@[simp] theorem valueAfter_concat (log : List Entry) (entry : Entry) (key : Key) :
    valueAfter writes (log ++ [entry]) key = (writes entry key).or (valueAfter writes log key) := by
  simp [valueAfter]

theorem valueAfter_take_succ {log : List Entry} {n : Nat} {entry : Entry}
    (h : log[n]? = some entry) (key : Key) :
    valueAfter writes (log.take (n + 1)) key =
      (writes entry key).or (valueAfter writes (log.take n) key) := by
  rw [List.take_add_one, h]
  exact valueAfter_concat writes (log.take n) entry key

/-- Every key has the value it has after some number of entries from this interval. -/
def Between (log : List Entry) (low high : Nat) (state : Key → Option Value) : Prop :=
  ∀ key, ∃ n, low ≤ n ∧ n ≤ high ∧ state key = valueAfter writes (log.take n) key

variable {writes} {log : List Entry} {low low' high high' : Nat} {state state' : Key → Option Value}

theorem Between.mono (h : Between writes log low high state) (hlow : low' ≤ low)
    (hhigh : high ≤ high') : Between writes log low' high' state := by
  intro key
  obtain ⟨n, hn, hn', hvalue⟩ := h key
  exact ⟨n, Nat.le_trans hlow hn, Nat.le_trans hn' hhigh, hvalue⟩

/-- Applying the next entry: a key it writes has its value, and for every other key the
    moments before and after the entry are the same. -/
theorem Between.step {entry : Entry} (h : Between writes log low high state)
    (hentry : log[low]? = some entry)
    (hstate : ∀ key, state' key = (writes entry key).or (state key)) :
    Between writes log (low + 1) (max high (low + 1)) state' := by
  intro key
  have hnext := valueAfter_take_succ writes hentry key
  cases hwrites : writes entry key with
  | some value =>
    refine ⟨low + 1, Nat.le_refl _, Nat.le_max_right .., ?_⟩
    rw [hstate, hnext, hwrites]
    rfl
  | none =>
    obtain ⟨n, hn, hn', hvalue⟩ := h key
    rw [hwrites, Option.none_or] at hnext
    rw [hstate, hwrites, Option.none_or, hvalue]
    rcases Nat.eq_or_lt_of_le hn with rfl | hlt
    · exact ⟨low + 1, Nat.le_refl _, Nat.le_max_right .., hnext.symm⟩
    · exact ⟨n, hlt, Nat.le_trans hn' (Nat.le_max_left ..), rfl⟩

/-- An interval of one moment. -/
theorem Between.exact {n : Nat} (h : Between writes log low high state) (hlow : n ≤ low)
    (hhigh : high ≤ n) (key : Key) : state key = valueAfter writes (log.take n) key := by
  obtain ⟨m, hm, hm', hvalue⟩ := h key
  obtain rfl : m = n := by omega
  exact hvalue

end Overwrites
