import Mathlib.Data.List.Basic
import RaftExample.Interleaving

/-!
# A record behind a readers-writer lock

Writers run critical sections that assign to the record part by part, readers copy it part
by part.  With the lock around both, the record behaves as if each section and each copy
were one step: a copy is the record as it was between two sections.
-/

namespace RWLock

open Interleaving

variable {ω σ : Type}

/-- A thread that runs a section `op`, or copies the record.  The writer has the assignments
    it has left, the reader has its copy and the parts it has left.  `since` is the number of
    sections that were over when the call began. -/
inductive Thread (ω σ : Type) where
  | wantsLock (op : ω)
  | writing (op : ω) (left : List (σ → σ))
  | wrote
  | wantsRLock (since : Nat)
  | reading (since : Nat) (copy : σ) (left : List (σ → σ → σ))
  | returned (since : Nat) (copy : σ)

def Thread.writes : Thread ω σ → Bool
  | .writing _ _ => true
  | _ => false

/-- The thread has the lock, in one way or the other. -/
def Thread.inside : Thread ω σ → Bool
  | .writing _ _ | .reading _ _ _ => true
  | _ => false

/-- `finished` are the sections in the order in which they gave the lock back. -/
structure Guarded (ω σ : Type) where
  shared : σ
  threads : List (Thread ω σ)
  finished : List ω

inductive Action (ω : Type) where
  | beginWrite (op : ω)
  | beginRead
  | lock (k : Nat)
  | assign (k : Nat)
  | unlock (k : Nat)
  | rLock (k : Nat)
  | copy (k : Nat)
  | rUnlock (k : Nat)

/-- The sections, the parts of a copy, and what a copy is before it has any. -/
structure Code (ω σ : Type) where
  body : ω → List (σ → σ)
  parts : List (σ → σ → σ)
  blank : σ

namespace Code

def assignAll (updates : List (σ → σ)) (shared : σ) : σ := updates.foldl (fun s f => f s) shared

def copyAll (parts : List (σ → σ → σ)) (shared copy : σ) : σ :=
  parts.foldl (fun c part => part shared c) copy

/-- The record after whole sections. -/
def after (code : Code ω σ) (init : σ) (ops : List ω) : σ :=
  ops.foldl (fun s op => assignAll (code.body op) s) init

/-- The parts make up the record. -/
def Complete (code : Code ω σ) : Prop := ∀ shared copy, copyAll code.parts shared copy = shared

theorem after_concat (code : Code ω σ) (init : σ) (ops : List ω) (op : ω) :
    code.after init (ops ++ [op]) = assignAll (code.body op) (code.after init ops) := by
  simp [after]

end Code

namespace Guarded

def setThread (s : Guarded ω σ) (k : Nat) (t : Thread ω σ) : Guarded ω σ :=
  { s with threads := s.threads.set k t }

def step (code : Code ω σ) (action : Action ω) (s : Guarded ω σ) : Option (Guarded ω σ) :=
  match action with
  | .beginWrite op => some { s with threads := s.threads ++ [.wantsLock op] }
  | .beginRead => some { s with threads := s.threads ++ [.wantsRLock s.finished.length] }
  | .lock k =>
      match s.threads[k]? with
      | some (.wantsLock op) =>
          if s.threads.all (·.inside = false) then some (s.setThread k (.writing op (code.body op)))
          else none
      | _ => none
  | .assign k =>
      match s.threads[k]? with
      | some (.writing op (f :: left)) =>
          some { s.setThread k (.writing op left) with shared := f s.shared }
      | _ => none
  | .unlock k =>
      match s.threads[k]? with
      | some (.writing op []) =>
          some { s.setThread k .wrote with finished := s.finished ++ [op] }
      | _ => none
  | .rLock k =>
      match s.threads[k]? with
      | some (.wantsRLock since) =>
          if s.threads.all (·.writes = false) then
            some (s.setThread k (.reading since code.blank code.parts))
          else none
      | _ => none
  | .copy k =>
      match s.threads[k]? with
      | some (.reading since copy (part :: left)) =>
          some (s.setThread k (.reading since (part s.shared copy) left))
      | _ => none
  | .rUnlock k =>
      match s.threads[k]? with
      | some (.reading since copy []) => some (s.setThread k (.returned since copy))
      | _ => none

end Guarded

/-- What a step can do. -/
inductive GuardedStep (code : Code ω σ) (s : Guarded ω σ) : Guarded ω σ → Prop
  | beginWrite (op : ω) : GuardedStep code s { s with threads := s.threads ++ [.wantsLock op] }
  | beginRead :
      GuardedStep code s { s with threads := s.threads ++ [.wantsRLock s.finished.length] }
  | lock {k : Nat} {op : ω} (hk : s.threads[k]? = some (.wantsLock op))
      (hfree : ∀ t ∈ s.threads, t.inside = false) :
      GuardedStep code s (s.setThread k (.writing op (code.body op)))
  | assign {k : Nat} {op : ω} {f : σ → σ} {left : List (σ → σ)}
      (hk : s.threads[k]? = some (.writing op (f :: left))) :
      GuardedStep code s { s.setThread k (.writing op left) with shared := f s.shared }
  | unlock {k : Nat} {op : ω} (hk : s.threads[k]? = some (.writing op [])) :
      GuardedStep code s { s.setThread k .wrote with finished := s.finished ++ [op] }
  | rLock {k since : Nat} (hk : s.threads[k]? = some (.wantsRLock since))
      (hfree : ∀ t ∈ s.threads, t.writes = false) :
      GuardedStep code s (s.setThread k (.reading since code.blank code.parts))
  | copy {k since : Nat} {copied : σ} {part : σ → σ → σ} {left : List (σ → σ → σ)}
      (hk : s.threads[k]? = some (.reading since copied (part :: left))) :
      GuardedStep code s (s.setThread k (.reading since (part s.shared copied) left))
  | rUnlock {k since : Nat} {copied : σ} (hk : s.threads[k]? = some (.reading since copied [])) :
      GuardedStep code s (s.setThread k (.returned since copied))

theorem Guarded.step_spec {code : Code ω σ} {action : Action ω} {s s' : Guarded ω σ}
    (hstep : s.step code action = some s') : GuardedStep code s s' := by
  cases action with
  | beginWrite op =>
    obtain rfl := Option.some.inj hstep
    exact .beginWrite op
  | beginRead =>
    obtain rfl := Option.some.inj hstep
    exact .beginRead
  | lock k =>
    simp only [Guarded.step] at hstep
    split at hstep
    · rename_i op hk
      split at hstep
      · rename_i hfree
        obtain rfl := Option.some.inj hstep
        exact .lock hk (by simpa using hfree)
      · simp at hstep
    · simp at hstep
  | assign k =>
    simp only [Guarded.step] at hstep
    split at hstep
    · rename_i op f left hk
      obtain rfl := Option.some.inj hstep
      exact .assign hk
    · simp at hstep
  | unlock k =>
    simp only [Guarded.step] at hstep
    split at hstep
    · rename_i op hk
      obtain rfl := Option.some.inj hstep
      exact .unlock hk
    · simp at hstep
  | rLock k =>
    simp only [Guarded.step] at hstep
    split at hstep
    · rename_i since hk
      split at hstep
      · rename_i hfree
        obtain rfl := Option.some.inj hstep
        exact .rLock hk (by simpa using hfree)
      · simp at hstep
    · simp at hstep
  | copy k =>
    simp only [Guarded.step] at hstep
    split at hstep
    · rename_i since copied part left hk
      obtain rfl := Option.some.inj hstep
      exact .copy hk
    · simp at hstep
  | rUnlock k =>
    simp only [Guarded.step] at hstep
    split at hstep
    · rename_i since copied hk
      obtain rfl := Option.some.inj hstep
      exact .rUnlock hk
    · simp at hstep

/-! ### The invariant -/

section Invariant

variable (code : Code ω σ) (init : σ)

/-- What is left of a thread's work leads to the record as it is between two sections. -/
def Thread.Ok (shared : σ) (finished : List ω) : Thread ω σ → Prop
  | .writing op left =>
      Code.assignAll left shared = Code.assignAll (code.body op) (code.after init finished)
  | .wantsRLock since => since ≤ finished.length
  | .reading since copy left => since ≤ finished.length ∧ Code.copyAll left shared copy = shared
  | .returned since copy => ∃ n, since ≤ n ∧ n ≤ finished.length ∧
      copy = code.after init (finished.take n)
  | _ => True

structure Guarded.Sound (s : Guarded ω σ) : Prop where
  exclusive : ∀ (j k : Nat) (t u : Thread ω σ), s.threads[j]? = some t → s.threads[k]? = some u →
    t.writes = true → u.inside = true → j = k
  threads : ∀ t ∈ s.threads, t.Ok code init s.shared s.finished
  settled : (∀ t ∈ s.threads, t.writes = false) → s.shared = code.after init s.finished

variable {code} {init} {s s' : Guarded ω σ} {action : Action ω} {t : Thread ω σ} {k : Nat}

/-- A thread outside does not notice what another one does to the record, -/
theorem Thread.Ok.of_outside {shared : σ} {finished : List ω}
    (h : t.Ok code init shared finished) (hout : t.inside = false) (shared' : σ) :
    t.Ok code init shared' finished := by
  cases t with
  | writing op left => simp [Thread.inside] at hout
  | reading since copy left => simp [Thread.inside] at hout
  | _ => exact h

/-- nor that a section is over. -/
theorem Thread.Ok.finish {shared : σ} {finished : List ω} (h : t.Ok code init shared finished)
    (hout : t.inside = false) (op : ω) : t.Ok code init shared (finished ++ [op]) := by
  cases t with
  | writing op left => simp [Thread.inside] at hout
  | reading since copy left => simp [Thread.inside] at hout
  | wantsRLock since =>
    simp only [Thread.Ok, List.length_append] at h ⊢
    omega
  | returned since copy =>
    obtain ⟨n, hsince, hn, hcopy⟩ := h
    refine ⟨n, hsince, ?_, ?_⟩
    · rw [List.length_append]
      omega
    · rw [List.take_append_of_le_length hn]
      exact hcopy
  | wantsLock op' => trivial
  | wrote => trivial

/-- No other thread is in the way of this one. -/
def Guarded.Alone (s : Guarded ω σ) (k : Nat) (t : Thread ω σ) : Prop :=
  ∀ j u, j ≠ k → s.threads[j]? = some u →
    (t.writes = true → u.inside = false) ∧ (t.inside = true → u.writes = false)

theorem Guarded.Sound.alone (h : s.Sound code init) (hk : s.threads[k]? = some t)
    {t' : Thread ω σ} (hwrites : t'.writes = true → t.writes = true)
    (hinside : t'.inside = true → t.inside = true) : s.Alone k t' := by
  intro j u hj hu
  constructor
  · intro hw
    by_contra hin
    exact hj (h.exclusive k j t u hk hu (hwrites hw) (by simpa using hin)).symm
  · intro hin
    by_contra hw
    exact hj (h.exclusive j k u t hu hk (by simpa using hw) (hinside hin))

/-- A thread moves on. -/
theorem Guarded.Sound.exclusive_set (h : s.Sound code init) (halone : s.Alone k t) (i j : Nat)
    (u v : Thread ω σ) (hu : (s.threads.set k t)[i]? = some u)
    (hv : (s.threads.set k t)[j]? = some v) (hw : u.writes = true) (hin : v.inside = true) :
    i = j := by
  rcases getElem?_set_cases hu with ⟨hi, rfl⟩ | ⟨hi, hu'⟩
  · rcases getElem?_set_cases hv with ⟨hj, rfl⟩ | ⟨hj, hv'⟩
    · exact hi.trans hj.symm
    · simp [(halone j v hj hv').1 hw] at hin
  · rcases getElem?_set_cases hv with ⟨hj, rfl⟩ | ⟨hj, hv'⟩
    · simp [(halone i u hi hu').2 hin] at hw
    · exact h.exclusive i j u v hu' hv' hw hin

/-- A thread moves on without touching the record: it was not writing and does not write. -/
theorem Guarded.Sound.setThread (h : s.Sound code init) (hk : s.threads[k]? = some t)
    {t' : Thread ω σ} (halone : s.Alone k t') (hwrites : t.writes = false)
    (hok : t'.Ok code init s.shared s.finished) : (s.setThread k t').Sound code init where
  exclusive := h.exclusive_set halone
  threads u hu := by
    rcases List.mem_or_eq_of_mem_set hu with hold | rfl
    · exact h.threads u hold
    · exact hok
  settled hnone := by
    apply h.settled
    intro u hu
    obtain ⟨j, hj⟩ := List.mem_iff_getElem?.mp hu
    by_cases hkj : k = j
    · subst hkj
      obtain rfl := Option.some.inj (hk.symm.trans hj)
      exact hwrites
    · exact hnone u (List.mem_of_getElem? ((List.getElem?_set_ne hkj).trans hj))

/-- A new thread waits. -/
theorem Guarded.Sound.addThread (h : s.Sound code init) (hout : t.inside = false)
    (hwrites : t.writes = false) (hok : t.Ok code init s.shared s.finished) :
    Guarded.Sound code init { s with threads := s.threads ++ [t] } where
  exclusive i j u v hu hv hw hin := by
    rcases getElem?_concat_cases hu with hu | ⟨-, rfl⟩
    · rcases getElem?_concat_cases hv with hv | ⟨-, rfl⟩
      · exact h.exclusive i j u v hu hv hw hin
      · simp [hout] at hin
    · simp [hwrites] at hw
  threads u hu := by
    rcases List.mem_append.mp hu with hold | hnew
    · exact h.threads u hold
    · obtain rfl := List.mem_singleton.mp hnew
      exact hok
  settled hnone := h.settled fun u hu => hnone u (List.mem_append_left _ hu)

theorem Thread.writes_of_outside (h : t.inside = false) : t.writes = false := by
  cases t with
  | writing op left => simp [Thread.inside] at h
  | _ => rfl

/-- While a thread writes, the others are outside. -/
theorem Guarded.Sound.outside (h : s.Sound code init) (hk : s.threads[k]? = some t)
    (hwrites : t.writes = true) {j : Nat} {u : Thread ω σ} (hj : j ≠ k)
    (hu : s.threads[j]? = some u) : u.inside = false := by
  by_contra hin
  exact hj (h.exclusive k j t u hk hu hwrites (by simpa using hin)).symm

theorem Guarded.Sound.assign (h : s.Sound code init) {op : ω} {f : σ → σ} {left : List (σ → σ)}
    (hk : s.threads[k]? = some (.writing op (f :: left))) :
    Guarded.Sound code init { s.setThread k (.writing op left) with shared := f s.shared } where
  exclusive := h.exclusive_set (h.alone hk (fun hw => hw) fun hin => hin)
  threads u hu := by
    obtain ⟨j, hj⟩ := List.mem_iff_getElem?.mp hu
    rcases getElem?_set_cases hj with ⟨-, rfl⟩ | ⟨hne, hj⟩
    · exact h.threads _ (List.mem_of_getElem? hk)
    · exact (h.threads u (List.mem_of_getElem? hj)).of_outside (h.outside hk rfl hne hj) _
  settled hnone := by
    have hlt := (List.getElem?_eq_some_iff.mp hk).1
    have hwriting := hnone _ (List.mem_of_getElem? (List.getElem?_set_self hlt))
    simp [Thread.writes] at hwriting

theorem Guarded.Sound.unlock (h : s.Sound code init) {op : ω}
    (hk : s.threads[k]? = some (.writing op [])) :
    Guarded.Sound code init { s.setThread k .wrote with finished := s.finished ++ [op] } where
  exclusive := h.exclusive_set (h.alone hk (by simp [Thread.writes]) (by simp [Thread.inside]))
  threads u hu := by
    obtain ⟨j, hj⟩ := List.mem_iff_getElem?.mp hu
    rcases getElem?_set_cases hj with ⟨-, rfl⟩ | ⟨hne, hj⟩
    · trivial
    · exact (h.threads u (List.mem_of_getElem? hj)).finish (h.outside hk rfl hne hj) op
  settled _ := by
    rw [Code.after_concat]
    exact h.threads _ (List.mem_of_getElem? hk)

theorem GuardedStep.sound (hstep : GuardedStep code s s') (hcode : code.Complete)
    (h : s.Sound code init) : s'.Sound code init := by
  cases hstep with
  | beginWrite op => exact h.addThread rfl rfl trivial
  | beginRead => exact h.addThread rfl rfl (Nat.le_refl _)
  | @lock k op hk hfree =>
    have hsettled : s.shared = code.after init s.finished :=
      h.settled fun t ht => Thread.writes_of_outside (hfree t ht)
    refine h.setThread hk ?_ rfl (by rw [Thread.Ok, hsettled])
    intro j u _ hu
    have hout := hfree u (List.mem_of_getElem? hu)
    exact ⟨fun _ => hout, fun _ => Thread.writes_of_outside hout⟩
  | assign hk => exact h.assign hk
  | unlock hk => exact h.unlock hk
  | @rLock k since hk hfree =>
    refine h.setThread hk ?_ rfl ⟨h.threads _ (List.mem_of_getElem? hk), hcode _ _⟩
    intro j u _ hu
    exact ⟨fun hw => by simp [Thread.writes] at hw, fun _ => hfree u (List.mem_of_getElem? hu)⟩
  | @copy k since copied part left hk =>
    have hok := h.threads _ (List.mem_of_getElem? hk)
    exact h.setThread hk (h.alone hk (fun hw => hw) fun hin => hin) rfl hok
  | @rUnlock k since copied hk =>
    obtain ⟨hsince, hcopied⟩ := h.threads _ (List.mem_of_getElem? hk)
    -- nobody writes while this thread reads
    have hsettled : s.shared = code.after init s.finished := by
      apply h.settled
      intro u hu
      obtain ⟨j, hj⟩ := List.mem_iff_getElem?.mp hu
      by_contra hw
      obtain rfl := h.exclusive j k u _ hj hk (by simpa using hw) rfl
      obtain rfl := Option.some.inj (hj.symm.trans hk)
      simp [Thread.writes] at hw
    refine h.setThread hk (h.alone hk (by simp [Thread.writes]) (by simp [Thread.inside])) rfl
      ⟨s.finished.length, hsince, Nat.le_refl _, ?_⟩
    rw [List.take_length, ← hsettled]
    exact hcopied

/-- Every copy that was returned is the record between two sections, after those that were
    over when the copy began. -/
theorem returned_of_reached (hcode : code.Complete)
    (hreached : Reached (Guarded.step code) (fun _ _ => True) (· = ⟨init, [], []⟩) s)
    {since : Nat} {copied : σ} (hmem : .returned since copied ∈ s.threads) :
    ∃ n, since ≤ n ∧ n ≤ s.finished.length ∧ copied = code.after init (s.finished.take n) := by
  have hsound : s.Sound code init := by
    apply hreached.invariant
    · rintro s rfl
      constructor <;> simp [Code.after]
    · intro s action s' hs _ hstep
      exact (Guarded.step_spec hstep).sound hcode hs
  exact hsound.threads _ hmem

end Invariant

end RWLock
