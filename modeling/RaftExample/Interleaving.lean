import Mathlib.Algebra.Ring.Nat
import Mathlib.Data.List.Basic

/-!
# Interleavings of atomic steps

Several threads of control that share a state, as one transition function with an
action for every atomic step of every thread.  A run picks the actions; which ones may
be picked in which state is a parameter, so that a theorem can speak about all
schedules or about those that keep to a discipline.
-/

namespace Interleaving

variable {Action State : Type*} (step : Action → State → Option State)
  (allowed : State → Action → Prop) (init : State → Prop)

/-- The states of the runs all of whose actions are allowed where they are taken. -/
inductive Reached : State → Prop
  | start {s : State} (hinit : init s) : Reached s
  | step {s s' : State} {a : Action} (hreached : Reached s) (hallowed : allowed s a)
      (hstep : step a s = some s') : Reached s'

variable {step} {allowed} {init}

/-- What holds at the start and is kept by every allowed action holds in every state. -/
theorem Reached.invariant {inv : State → Prop} {s : State}
    (hreached : Reached step allowed init s) (hinit : ∀ s, init s → inv s)
    (hstep : ∀ s a s', inv s → allowed s a → step a s = some s' → inv s') : inv s := by
  induction hreached with
  | start h => exact hinit _ h
  | step _ hallowed hnext ih => exact hstep _ _ _ ih hallowed hnext

variable (step) (allowed)

/-- Follow a schedule, as long as its actions are allowed and possible. -/
def run [∀ s a, Decidable (allowed s a)] : List Action → State → Option State
  | [], s => some s
  | a :: actions, s =>
      if allowed s a then
        match step a s with
        | none => none
        | some s' => run actions s'
      else none

variable {step} {allowed}

theorem reached_run [∀ s a, Decidable (allowed s a)] {actions : List Action} {s s' : State}
    (hreached : Reached step allowed init s) (hrun : run step allowed actions s = some s') :
    Reached step allowed init s' := by
  induction actions generalizing s with
  | nil =>
    obtain rfl := Option.some.inj hrun
    exact hreached
  | cons a actions ih =>
    unfold run at hrun
    by_cases hallowed : allowed s a
    · rw [if_pos hallowed] at hrun
      cases hnext : step a s with
      | none => simp [hnext] at hrun
      | some next =>
        rw [hnext] at hrun
        exact ih (hreached.step hallowed hnext) hrun
    · simp [hallowed] at hrun

/-- If every allowed action keeps an invariant and takes from the work that is left, the
    work bounds the length of every schedule. -/
theorem length_add_le_of_run [∀ s a, Decidable (allowed s a)] {inv : State → Prop}
    (work : State → Nat)
    (hstep : ∀ s a s', inv s → allowed s a → step a s = some s' → inv s' ∧ work s' < work s)
    {actions : List Action} {s s' : State} (hinv : inv s)
    (hrun : run step allowed actions s = some s') :
    inv s' ∧ actions.length + work s' ≤ work s := by
  induction actions generalizing s with
  | nil =>
    obtain rfl := Option.some.inj hrun
    exact ⟨hinv, by simp⟩
  | cons a actions ih =>
    unfold run at hrun
    by_cases hallowed : allowed s a
    · rw [if_pos hallowed] at hrun
      cases hnext : step a s with
      | none => simp [hnext] at hrun
      | some next =>
        rw [hnext] at hrun
        obtain ⟨hkept, hless⟩ := hstep s a next hinv hallowed hnext
        obtain ⟨hend, hrest⟩ := ih hkept hrun
        refine ⟨hend, ?_⟩
        rw [List.length_cons]
        omega
    · simp [hallowed] at hrun

/-- Two systems that do the same under every action do the same under every schedule. -/
theorem run_rel {State' : Type*} {step' : Action → State' → Option State'}
    {allowed' : State' → Action → Prop} [∀ s a, Decidable (allowed s a)]
    [∀ s a, Decidable (allowed' s a)] {related : State → State' → Prop}
    (hallowed : ∀ s s' a, related s s' → (allowed s a ↔ allowed' s' a))
    (hstep : ∀ s s' a, related s s' → allowed s a → Option.Rel related (step a s) (step' a s'))
    (actions : List Action) {s : State} {s' : State'} (h : related s s') :
    Option.Rel related (run step allowed actions s) (run step' allowed' actions s') := by
  induction actions generalizing s s' with
  | nil => exact .some h
  | cons a actions ih =>
    unfold run
    by_cases ha : allowed s a
    · rw [if_pos ha, if_pos ((hallowed s s' a h).mp ha)]
      have hnext := hstep s s' a h ha
      revert hnext
      generalize step a s = next
      generalize step' a s' = next'
      intro hnext
      cases hnext with
      | some hnext => exact ih hnext
      | none => exact .none
    · rw [if_neg ha, if_neg (fun ha' => ha ((hallowed s s' a h).mpr ha'))]
      exact .none

theorem map_eq_of_rel {α β γ : Type*} {related : α → β → Prop} {x : Option α} {y : Option β}
    {f : α → γ} {g : β → γ} (h : Option.Rel related x y)
    (hsame : ∀ a b, related a b → f a = g b) : x.map f = y.map g := by
  cases h with
  | some hab => exact congrArg some (hsame _ _ hab)
  | none => rfl

/-! ### Lists of threads and of entries -/

variable {α : Type*} {l : List α} {a b : α} {i j : Nat}

/-- An element of a list that has just grown is an old one or the new one. -/
theorem getElem?_concat_cases (h : (l ++ [a])[i]? = some b) :
    l[i]? = some b ∨ (i = l.length ∧ b = a) := by
  by_cases hi : i < l.length
  · rw [List.getElem?_append_left hi] at h
    exact .inl h
  · rw [List.getElem?_append_right (Nat.le_of_not_lt hi), List.getElem?_singleton] at h
    split at h
    · rename_i hlast
      exact .inr ⟨by omega, (Option.some.inj h).symm⟩
    · simp at h

/-- An element of a list after an assignment is the one assigned, or one elsewhere. -/
theorem getElem?_set_cases (h : (l.set i a)[j]? = some b) :
    (j = i ∧ b = a) ∨ (j ≠ i ∧ l[j]? = some b) := by
  rw [List.getElem?_set] at h
  by_cases hij : i = j
  · rw [if_pos hij] at h
    split at h
    · exact .inl ⟨hij.symm, (Option.some.inj h).symm⟩
    · simp at h
  · rw [if_neg hij] at h
    exact .inr ⟨Ne.symm hij, h⟩

/-- A sum over all threads when one of them moves. -/
theorem sum_map_set {f : α → Nat} (h : l[i]? = some b) :
    ((l.set i a).map f).sum + f b = (l.map f).sum + f a := by
  induction l generalizing i with
  | nil => simp at h
  | cons head l ih =>
    cases i with
    | zero =>
      obtain rfl := Option.some.inj h
      simp only [List.set_cons_zero, List.map_cons, List.sum_cons]
      omega
    | succ i =>
      have hrest := ih h
      simp only [List.set_cons_succ, List.map_cons, List.sum_cons]
      omega

/-- A sum over all threads when one of them is over. -/
theorem sum_map_eraseIdx {f : α → Nat} (h : l[i]? = some b) :
    ((l.eraseIdx i).map f).sum + f b = (l.map f).sum := by
  induction l generalizing i with
  | nil => simp at h
  | cons head l ih =>
    cases i with
    | zero =>
      obtain rfl := Option.some.inj h
      simp only [List.eraseIdx_zero, List.tail_cons, List.map_cons, List.sum_cons]
      omega
    | succ i =>
      have hrest := ih h
      simp only [List.eraseIdx_cons_succ, List.map_cons, List.sum_cons]
      omega

end Interleaving
