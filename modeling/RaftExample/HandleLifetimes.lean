import RaftExample.Interleaving
import Mathlib.Data.Fintype.Basic
import Mathlib.Logic.Function.Basic

/-!
# Lifetimes of database handles

The store keeps its open database in an atomic pointer.  `ReadLocal`, `Apply`, `Snapshot`
and `StateMachine.Close` check the closed flag, load the pointer and then work on the
handle they got; `Persist` works on a Pebble snapshot of it; `Restore` swaps the pointer
and closes the old database, `StateMachine.Close` closes the current one.  Every check,
load, swap and Pebble call is one step of an interleaving.  Nothing makes a close wait
for the calls that still hold the handle, so it is safe only if there are none.
-/

namespace RaftExample

open Interleaving

/-! ### The threads -/

/-- Where a call is that runs on a goroutine of its own: a `ReadLocal` of a gRPC handler,
    the `Persist` of a snapshot, a `StateMachine.Close`.  Databases are numbers. -/
inductive CallPC where
  /-- No call, or one that has returned. -/
  | idle
  -- ReadLocal
  /-- After the check in `query`, before the one in `getBytes`. -/
  | queried
  /-- Before the load of the pointer. -/
  | checked
  /-- Before `Get`. -/
  | loaded (db : Nat)
  /-- Before the copy of the value. -/
  | got (db : Nat)
  /-- Before `closer.Close`. -/
  | copied (db : Nat)
  -- Persist and Release
  /-- `Snapshot` has returned. -/
  | captured (db : Nat)
  | iterating (db : Nat)
  /-- The iterator is closed; before the `Close` of the snapshot in `Release`. -/
  | iterClosed (db : Nat)
  -- StateMachine.Close
  /-- After the check, before the flag is set. -/
  | closing
  /-- Before the load of the pointer. -/
  | flagSet
  /-- Before `Flush`. -/
  | flushing (db : Nat)
  /-- Before the `Close` of the database. -/
  | flushed (db : Nat)
deriving DecidableEq, Repr

/-- Where the goroutine of raft is that runs `Apply`, `Snapshot` and `Restore`. -/
inductive FsmPC where
  | idle
  -- Apply
  /-- After the check, with a command that is not a `Query`; `insert` has not loaded the
      pointer yet. -/
  | applying
  /-- Before `NewBatch`. -/
  | applyLoaded (db : Nat)
  /-- Before the commit of the batch. -/
  | batched (db : Nat)
  -- Apply of a `Query`, which runs the same `query` as `ReadLocal`
  /-- After the check in `Apply`, before the one in `query`. -/
  | querying
  /-- Before the check in `getBytes`. -/
  | queried
  /-- Before the load of the pointer. -/
  | queryChecked
  /-- Before `Get`. -/
  | queryLoaded (db : Nat)
  /-- Before the copy of the value. -/
  | queryGot (db : Nat)
  /-- Before `closer.Close`. -/
  | queryCopied (db : Nat)
  -- Snapshot
  | snapshotting
  /-- Before `NewSnapshot`. -/
  | snapshotLoaded (db : Nat)
  -- Restore
  /-- From the check to the swap of the pointer. -/
  | restoring
  /-- Before the `Close` of the old database. -/
  | swapped (old : Nat)
  /-- Before the removal of its directory. -/
  | removing
deriving DecidableEq, Repr

/-- The database whose handle a call has loaded and works on.  The next step of such a
    call is a Pebble operation on it, or a read of memory it owns. -/
def CallPC.handle : CallPC → Option Nat
  | .loaded db | .got db | .copied db | .captured db | .iterating db | .iterClosed db
  | .flushing db | .flushed db => some db
  | _ => none

def FsmPC.handle : FsmPC → Option Nat
  | .applyLoaded db | .batched db | .queryLoaded db | .queryGot db | .queryCopied db
  | .snapshotLoaded db | .swapped db => some db
  | _ => none

/-- A read that has passed its last check, or a snapshot that has not been released. -/
def CallPC.reading : CallPC → Bool
  | .checked | .loaded _ | .got _ | .copied _ | .captured _ | .iterating _ | .iterClosed _ => true
  | _ => false

/-- A `Close` that has set the flag. -/
def CallPC.shutting : CallPC → Bool
  | .flagSet | .flushing _ | .flushed _ => true
  | _ => false

/-- A state machine with `n` places for calls.  `db` is what the pointer holds, `next`
    numbers the next database, `closedDBs` are the ones that were closed. -/
structure HandleState (n : Nat) where
  db : Nat
  next : Nat
  closed : Bool
  closedDBs : List Nat
  fsm : FsmPC
  calls : Fin n → CallPC

/-- A state machine that has just been opened. -/
def HandleState.new (n : Nat) : HandleState n := ⟨0, 1, false, [], .idle, fun _ => .idle⟩

/-! ### The steps -/

/-- Steps with a choice: a read finds its key or not, an iterator has more records or
    not, a command or a restore goes on or ends early. -/
inductive HandleAction (n : Nat) where
  /-- A `ReadLocal` starts, with its first check. -/
  | readLocal (k : Fin n)
  /-- A `StateMachine.Close` starts, with its check. -/
  | close (k : Fin n)
  | call (k : Fin n) (more : Bool)
  -- raft's goroutine starts a command, with its check
  | apply
  | applyQuery
  | snapshot
  | restore
  /-- Its next step; a snapshot goes to place `k`. -/
  | fsm (k : Fin n) (more : Bool)
deriving DecidableEq, Repr

namespace HandleState

variable {n : Nat}

def setCall (s : HandleState n) (k : Fin n) (pc : CallPC) : HandleState n :=
  { s with calls := Function.update s.calls k pc }

def setFsm (s : HandleState n) (pc : FsmPC) : HandleState n := { s with fsm := pc }

def closeDB (s : HandleState n) (db : Nat) : HandleState n :=
  { s with closedDBs := db :: s.closedDBs }

/-- The next step of a call. -/
def callStep (s : HandleState n) (k : Fin n) (more : Bool) : Option (HandleState n) :=
  match s.calls k with
  | .idle => none
  | .queried => some (s.setCall k (if s.closed then .idle else .checked))
  | .checked => some (s.setCall k (.loaded s.db))
  -- a missing key and an error leave nothing to copy
  | .loaded db => some (s.setCall k (if more then .got db else .idle))
  | .got db => some (s.setCall k (.copied db))
  | .copied _ => some (s.setCall k .idle)
  | .captured db => some (s.setCall k (if more then .iterating db else .iterClosed db))
  | .iterating db => some (s.setCall k (if more then .iterating db else .iterClosed db))
  | .iterClosed _ => some (s.setCall k .idle)
  | .closing => some { s.setCall k .flagSet with closed := true }
  | .flagSet => some (s.setCall k (.flushing s.db))
  | .flushing db => some (s.setCall k (.flushed db))
  | .flushed db => some ((s.setCall k .idle).closeDB db)

/-- The next step of raft's goroutine. -/
def fsmStep (s : HandleState n) (k : Fin n) (more : Bool) : Option (HandleState n) :=
  match s.fsm with
  | .idle => none
  -- an `Insert` goes to the database, any other command ends with an error
  | .applying => some (s.setFsm (if more then .applyLoaded s.db else .idle))
  | .applyLoaded db => some (s.setFsm (.batched db))
  | .batched _ => some (s.setFsm .idle)
  | .querying => some (s.setFsm (if s.closed then .idle else .queried))
  | .queried => some (s.setFsm (if s.closed then .idle else .queryChecked))
  | .queryChecked => some (s.setFsm (.queryLoaded s.db))
  | .queryLoaded db => some (s.setFsm (if more then .queryGot db else .idle))
  | .queryGot db => some (s.setFsm (.queryCopied db))
  | .queryCopied _ => some (s.setFsm .idle)
  | .snapshotting => some (s.setFsm (.snapshotLoaded s.db))
  | .snapshotLoaded db =>
      match s.calls k with
      | .idle => some ((s.setCall k (.captured db)).setFsm .idle)
      | _ => none
  | .restoring =>
      if more then some { s.setFsm (.swapped s.db) with db := s.next, next := s.next + 1 }
      else some (s.setFsm .idle)
  | .swapped old => some ((s.setFsm .removing).closeDB old)
  | .removing => some (s.setFsm .idle)

/-- A command starts if raft's goroutine is free, and returns at once if the store is
    closed. -/
def startFsm (s : HandleState n) (pc : FsmPC) : Option (HandleState n) :=
  match s.fsm with
  | .idle => some (s.setFsm (if s.closed then .idle else pc))
  | _ => none

def startCall (s : HandleState n) (k : Fin n) (pc : CallPC) : Option (HandleState n) :=
  match s.calls k with
  | .idle => some (s.setCall k (if s.closed then .idle else pc))
  | _ => none

def step (action : HandleAction n) (s : HandleState n) : Option (HandleState n) :=
  match action with
  | .readLocal k => s.startCall k .queried
  | .close k => s.startCall k .closing
  | .call k more => s.callStep k more
  | .apply => s.startFsm .applying
  | .applyQuery => s.startFsm .querying
  | .snapshot => s.startFsm .snapshotting
  | .restore => s.startFsm .restoring
  | .fsm k more => s.fsmStep k more

/-! ### What must not happen -/

/-- The database an action works on. -/
def operand (s : HandleState n) : HandleAction n → Option Nat
  | .call k _ => (s.calls k).handle
  | .fsm _ _ => s.fsm.handle
  | _ => none

/-- The database an action closes. -/
def closes (s : HandleState n) : HandleAction n → Option Nat
  | .call k _ =>
      match s.calls k with
      | .flushed db => some db
      | _ => none
  | .fsm _ _ =>
      match s.fsm with
      | .swapped old => some old
      | _ => none
  | _ => none

/-- An action works on no database that has been closed, and closes none whose handle is
    held by another call. -/
structure StepSafe (s : HandleState n) (action : HandleAction n) : Prop where
  operand_open : ∀ db, s.operand action = some db → db ∉ s.closedDBs
  closes_calls : ∀ db, s.closes action = some db → ∀ k, (∀ more, action ≠ .call k more) →
    (s.calls k).handle ≠ some db
  closes_fsm : ∀ db, s.closes action = some db → (∀ k more, action ≠ .fsm k more) →
    s.fsm.handle ≠ some db

/-! ### When it does not happen -/

/-- Restrictions on two kinds of steps.  The pointer is swapped while the store is not
    closed and no call holds the current handle.  The closed flag is set once, while
    raft's goroutine is idle, no read is past its last check and every snapshot has been
    released. -/
def quiet (s : HandleState n) : HandleAction n → Prop
  | .fsm _ more => s.fsm = .restoring → more = true →
      s.closed = false ∧ ∀ k, (s.calls k).handle ≠ some s.db
  | .call k _ => s.calls k = .closing →
      s.closed = false ∧ s.fsm = .idle ∧ ∀ j, (s.calls j).reading = false
  | _ => True

instance (s : HandleState n) (action : HandleAction n) : Decidable (s.quiet action) := by
  cases action <;> unfold quiet <;> infer_instance

end HandleState

/-- A handle is held by a read, by a snapshot or by a `Close`. -/
theorem CallPC.reading_or_shutting {pc : CallPC} {db : Nat} (h : pc.handle = some db) :
    pc.reading = true ∨ pc.shutting = true := by
  cases pc <;> simp_all [CallPC.handle, CallPC.reading, CallPC.shutting]

namespace HandleState

variable {n : Nat} {s s' : HandleState n} {action : HandleAction n} {k : Fin n}

/-- What the runs with these restrictions keep. -/
structure Ok (s : HandleState n) : Prop where
  db_lt : s.db < s.next
  closed_lt : ∀ db ∈ s.closedDBs, db < s.next
  calls_open : ∀ k db, (s.calls k).handle = some db → db ∉ s.closedDBs ∧ db < s.next
  fsm_open : ∀ db, s.fsm.handle = some db → db ∉ s.closedDBs ∧ db < s.next
  /-- After a swap the old handle belongs to the restore alone. -/
  swapped : ∀ old, s.fsm = .swapped old → old ≠ s.db ∧ ∀ k, (s.calls k).handle ≠ some old
  unflagged : s.closed = false → s.db ∉ s.closedDBs ∧ ∀ k, (s.calls k).shutting = false
  flagged : s.closed = true → s.fsm = .idle ∧ ∀ k, (s.calls k).reading = false
  /-- At most one `Close` gets past the flag. -/
  shutting : ∀ k, (s.calls k).shutting = true →
    s.db ∉ s.closedDBs ∧ ∀ j, (s.calls j).shutting = true → j = k

theorem ok_new (n : Nat) : (HandleState.new n).Ok := by
  constructor <;> simp [HandleState.new, CallPC.handle, FsmPC.handle, CallPC.reading,
    CallPC.shutting]

theorem Ok.closed_of_shutting (h : s.Ok) (hk : (s.calls k).shutting = true) : s.closed = true := by
  cases hclosed : s.closed with
  | true => rfl
  | false => simp [(h.unflagged hclosed).2 k] at hk

theorem Ok.open_of_reading (h : s.Ok) (hk : (s.calls k).reading = true) : s.closed = false := by
  cases hclosed : s.closed with
  | false => rfl
  | true => simp [(h.flagged hclosed).2 k] at hk

theorem Ok.open_of_busy (h : s.Ok) (hfsm : s.fsm ≠ .idle) : s.closed = false := by
  cases hclosed : s.closed with
  | false => rfl
  | true => exact absurd (h.flagged hclosed).1 hfsm

/-- The `Close` that got past the flag is alone with its handle. -/
theorem Ok.alone_of_shutting (h : s.Ok) (hk : (s.calls k).shutting = true) {j : Fin n}
    (hj : j ≠ k) : (s.calls j).handle = none := by
  cases hhandle : (s.calls j).handle with
  | none => rfl
  | some db =>
    rcases CallPC.reading_or_shutting hhandle with hreading | hshutting
    · simp [(h.flagged (h.closed_of_shutting hk)).2 j] at hreading
    · exact absurd ((h.shutting k hk).2 j hshutting) hj

theorem Ok.stepSafe (h : s.Ok) (action : HandleAction n) : s.StepSafe action := by
  constructor
  · intro db hoperand
    cases action with
    | call k _ => exact (h.calls_open k db hoperand).1
    | fsm _ _ => exact (h.fsm_open db hoperand).1
    | _ => cases hoperand
  · intro db hcloses k hother
    cases action with
    | call j more =>
      cases hj : s.calls j <;> simp [closes, hj] at hcloses
      have hshutting : (s.calls j).shutting = true := by rw [hj]; rfl
      rw [h.alone_of_shutting hshutting (fun heq => hother more (by rw [heq]))]
      simp
    | fsm _ _ =>
      cases hfsm : s.fsm <;> simp [closes, hfsm] at hcloses
      subst hcloses
      exact (h.swapped _ hfsm).2 k
    | _ => cases hcloses
  · intro db hcloses hother
    cases action with
    | call j _ =>
      cases hj : s.calls j <;> simp [closes, hj] at hcloses
      have hshutting : (s.calls j).shutting = true := by rw [hj]; rfl
      simp [(h.flagged (h.closed_of_shutting hshutting)).1, FsmPC.handle]
    | fsm j more => exact absurd rfl (hother j more)
    | _ => cases hcloses

/-! ### What a step keeps -/

@[simp] theorem setCall_self (s : HandleState n) (k : Fin n) (pc : CallPC) :
    (s.setCall k pc).calls k = pc := by
  simp [setCall]

theorem setCall_of_ne (s : HandleState n) {j k : Fin n} (h : j ≠ k) (pc : CallPC) :
    (s.setCall k pc).calls j = s.calls j := by
  simp [setCall, h]

theorem forall_setCall {P : CallPC → Prop} {pc : CallPC} (hpc : P pc)
    (hrest : ∀ j, P (s.calls j)) (j : Fin n) : P ((s.setCall k pc).calls j) := by
  by_cases hj : j = k
  · subst hj
    rwa [setCall_self]
  · rw [setCall_of_ne s hj]
    exact hrest j

/-- A call moves on.  A handle it gets is open and not about to be closed. -/
theorem Ok.setCall (h : s.Ok) {pc : CallPC}
    (hhandle : ∀ db, pc.handle = some db → (s.calls k).handle = some db ∨
      (db ∉ s.closedDBs ∧ db < s.next ∧ s.fsm ≠ .swapped db))
    (hreading : pc.reading = true → s.closed = false)
    (hshutting : pc.shutting = true → (s.calls k).shutting = true) : (s.setCall k pc).Ok := by
  have hbefore : ∀ j, ((s.setCall k pc).calls j).shutting = true →
      (s.calls j).shutting = true := by
    intro j
    by_cases hj : j = k
    · subst hj
      rwa [setCall_self]
    · rw [setCall_of_ne s hj]
      exact id
  constructor
  · exact h.db_lt
  · exact h.closed_lt
  · apply forall_setCall (P := fun pc => ∀ db, pc.handle = some db →
      db ∉ s.closedDBs ∧ db < s.next) ?_ h.calls_open
    intro db hdb
    rcases hhandle db hdb with hold | ⟨hopen, hlt, -⟩
    · exact h.calls_open k db hold
    · exact ⟨hopen, hlt⟩
  · exact h.fsm_open
  · intro old hfsm
    obtain ⟨hne, hcalls⟩ := h.swapped old hfsm
    refine ⟨hne, forall_setCall (P := fun pc => pc.handle ≠ some old) ?_ hcalls⟩
    intro hold
    rcases hhandle old hold with hmine | ⟨-, -, hnot⟩
    · exact hcalls k hmine
    · exact hnot hfsm
  · intro hopen
    refine ⟨(h.unflagged hopen).1, fun j => Bool.eq_false_iff.mpr fun hj => ?_⟩
    have hold := hbefore j hj
    rw [(h.unflagged hopen).2 j] at hold
    cases hold
  · intro hclosed
    refine ⟨(h.flagged hclosed).1, forall_setCall (P := fun pc => pc.reading = false) ?_
      (h.flagged hclosed).2⟩
    refine Bool.eq_false_iff.mpr fun hpc => ?_
    have hopen : s.closed = false := hreading hpc
    rw [show s.closed = true from hclosed] at hopen
    cases hopen
  · intro j hj
    obtain ⟨hdb, halone⟩ := h.shutting j (hbefore j hj)
    exact ⟨hdb, fun i hi => halone i (hbefore i hi)⟩

/-- A call moves to where it holds no handle. -/
theorem Ok.setCall_free (h : s.Ok) {pc : CallPC} (hhandle : pc.handle = none)
    (hreading : pc.reading = true → s.closed = false) (hshutting : pc.shutting = false) :
    (s.setCall k pc).Ok :=
  h.setCall (by simp [hhandle]) hreading (by simp [hshutting])

/-- A call goes on with the handle it has, or without one. -/
theorem Ok.setCall_held (h : s.Ok) {pc : CallPC} (db : Nat) (hdb : (s.calls k).handle = some db)
    (hreading : (s.calls k).reading = true) (hpc : pc.handle = none ∨ pc.handle = some db)
    (hshutting : pc.shutting = false) : (s.setCall k pc).Ok := by
  apply h.setCall
  · intro other hother
    rcases hpc with hnone | hsome
    · simp [hnone] at hother
    · exact .inl (by rw [hdb, ← hsome, hother])
  · exact fun _ => h.open_of_reading hreading
  · simp [hshutting]

/-- A call loads the pointer. -/
theorem Ok.setCall_current (h : s.Ok) {pc : CallPC} (hpc : pc.handle = some s.db)
    (hopen : s.db ∉ s.closedDBs) (hreading : pc.reading = true → s.closed = false)
    (hshutting : pc.shutting = true → (s.calls k).shutting = true) : (s.setCall k pc).Ok := by
  apply h.setCall _ hreading hshutting
  intro db hdb
  obtain rfl := Option.some.inj (hpc.symm.trans hdb)
  exact .inr ⟨hopen, h.db_lt, fun hfsm => (h.swapped _ hfsm).1 rfl⟩

/-- Raft's goroutine moves on, with the current handle or with the one it has. -/
theorem Ok.setFsm (h : s.Ok) {pc : FsmPC}
    (hhandle : ∀ db, pc.handle = some db → s.fsm.handle = some db ∨
      (db = s.db ∧ s.db ∉ s.closedDBs))
    (hbusy : pc ≠ .idle → s.closed = false) (hpc : ∀ old, pc ≠ .swapped old) :
    (s.setFsm pc).Ok where
  db_lt := h.db_lt
  closed_lt := h.closed_lt
  calls_open := h.calls_open
  fsm_open := by
    intro db hdb
    rcases hhandle db hdb with hold | ⟨rfl, hopen⟩
    · exact h.fsm_open db hold
    · exact ⟨hopen, h.db_lt⟩
  swapped old hold := absurd hold (hpc old)
  unflagged := h.unflagged
  flagged := by
    intro hclosed
    refine ⟨?_, (h.flagged hclosed).2⟩
    by_contra hne
    have hopen : s.closed = false := hbusy hne
    rw [show s.closed = true from hclosed] at hopen
    cases hopen
  shutting := h.shutting

/-- Raft's goroutine loads the pointer. -/
theorem Ok.setFsm_current (h : s.Ok) {pc : FsmPC} (hpc : pc.handle = some s.db)
    (hopen : s.closed = false) (hne : ∀ old, pc ≠ .swapped old) : (s.setFsm pc).Ok := by
  apply h.setFsm _ (fun _ => hopen) hne
  intro db hdb
  obtain rfl := Option.some.inj (hpc.symm.trans hdb)
  exact .inr ⟨rfl, (h.unflagged hopen).1⟩

/-- Raft's goroutine goes on with the handle it has, or without one. -/
theorem Ok.setFsm_held (h : s.Ok) {pc : FsmPC} (hpc : pc.handle = none ∨ pc.handle = s.fsm.handle)
    (hopen : s.closed = false) (hne : ∀ old, pc ≠ .swapped old) : (s.setFsm pc).Ok := by
  apply h.setFsm _ (fun _ => hopen) hne
  intro db hdb
  rcases hpc with hnone | hsame
  · simp [hnone] at hdb
  · exact .inl (hsame ▸ hdb)

/-- The pointer is swapped while nobody holds the current handle. -/
theorem Ok.swap (h : s.Ok) (hopen : s.closed = false)
    (hcalls : ∀ k, (s.calls k).handle ≠ some s.db) :
    ({ s.setFsm (.swapped s.db) with db := s.next, next := s.next + 1 } : HandleState n).Ok where
  db_lt := Nat.lt_succ_self _
  closed_lt db hdb := Nat.lt_succ_of_lt (h.closed_lt db hdb)
  calls_open k db hdb :=
    ⟨(h.calls_open k db hdb).1, Nat.lt_succ_of_lt (h.calls_open k db hdb).2⟩
  fsm_open := by
    intro db hdb
    obtain rfl := Option.some.inj hdb
    exact ⟨(h.unflagged hopen).1, Nat.lt_succ_of_lt h.db_lt⟩
  swapped := by
    intro old hold
    obtain rfl := FsmPC.swapped.inj hold
    exact ⟨Nat.ne_of_lt h.db_lt, hcalls⟩
  unflagged _ := ⟨fun hmem => Nat.lt_irrefl _ (h.closed_lt _ hmem), (h.unflagged hopen).2⟩
  flagged hclosed := by simp [HandleState.setFsm, hopen] at hclosed
  shutting k hk := by
    have hnot := (h.unflagged hopen).2 k
    rw [show (s.calls k).shutting = true from hk] at hnot
    cases hnot

/-- A database is closed whose handle nobody holds. -/
theorem Ok.closeDB (h : s.Ok) {db : Nat} (hdb : db < s.next)
    (hcalls : ∀ k, (s.calls k).handle ≠ some db) (hfsm : s.fsm.handle ≠ some db)
    (hcurrent : db = s.db → s.closed = true ∧ ∀ k, (s.calls k).shutting = false) :
    (s.closeDB db).Ok where
  db_lt := h.db_lt
  closed_lt other hother := by
    rcases List.mem_cons.mp hother with rfl | hold
    · exact hdb
    · exact h.closed_lt other hold
  calls_open k other hother := by
    refine ⟨?_, (h.calls_open k other hother).2⟩
    refine List.not_mem_cons_of_ne_of_not_mem ?_ (h.calls_open k other hother).1
    rintro rfl
    exact hcalls k hother
  fsm_open other hother := by
    refine ⟨?_, (h.fsm_open other hother).2⟩
    refine List.not_mem_cons_of_ne_of_not_mem ?_ (h.fsm_open other hother).1
    rintro rfl
    exact hfsm hother
  swapped := h.swapped
  unflagged hopen := by
    refine ⟨List.not_mem_cons_of_ne_of_not_mem ?_ (h.unflagged hopen).1, (h.unflagged hopen).2⟩
    intro heq
    have hclosed := (hcurrent heq.symm).1
    rw [show s.closed = false from hopen] at hclosed
    cases hclosed
  flagged := h.flagged
  shutting k hk := by
    obtain ⟨hnot, halone⟩ := h.shutting k hk
    refine ⟨List.not_mem_cons_of_ne_of_not_mem ?_ hnot, halone⟩
    intro heq
    have hshutting := (hcurrent heq.symm).2 k
    rw [show (s.calls k).shutting = true from hk] at hshutting
    cases hshutting

/-- The closed flag is set while nobody is past a check. -/
theorem Ok.setFlag (h : s.Ok) (hopen : s.closed = false)
    (hfsm : s.fsm = .idle) (hreading : ∀ j, (s.calls j).reading = false) :
    ({ s.setCall k .flagSet with closed := true } : HandleState n).Ok where
  db_lt := h.db_lt
  closed_lt := h.closed_lt
  calls_open := by
    apply forall_setCall (P := fun pc => ∀ db, pc.handle = some db →
      db ∉ s.closedDBs ∧ db < s.next) ?_ h.calls_open
    simp [CallPC.handle]
  fsm_open := h.fsm_open
  swapped old hold := by
    rw [show s.fsm = .swapped old from hold] at hfsm
    cases hfsm
  unflagged hopen' := by cases hopen'
  flagged _ := ⟨hfsm, forall_setCall (P := fun pc => pc.reading = false) rfl hreading⟩
  shutting := by
    have honly : ∀ j, ((s.setCall k .flagSet).calls j).shutting = true → j = k := by
      intro j hj
      by_contra hne
      rw [setCall_of_ne s hne, (h.unflagged hopen).2 j] at hj
      cases hj
    intro j hj
    refine ⟨(h.unflagged hopen).1, fun i hi => ?_⟩
    rw [honly j hj, honly i hi]

/-- The `Close` that got past the flag closes the database. -/
theorem Ok.closeCurrent (h : s.Ok) {db : Nat} (hk : s.calls k = .flushed db) :
    ((s.setCall k .idle).closeDB db).Ok := by
  have hshutting : (s.calls k).shutting = true := by rw [hk]; rfl
  have hclosed : s.closed = true := h.closed_of_shutting hshutting
  have hidle : (s.setCall k .idle).Ok := h.setCall_free rfl (by simp [CallPC.reading]) rfl
  apply hidle.closeDB
  · exact (h.calls_open k db (by rw [hk]; rfl)).2
  · intro j
    by_cases hj : j = k
    · subst hj
      simp [CallPC.handle]
    · simp [setCall_of_ne s hj, h.alone_of_shutting hshutting hj]
  · simp [HandleState.setCall, (h.flagged hclosed).1, FsmPC.handle]
  · intro _
    refine ⟨hclosed, fun j => Bool.eq_false_iff.mpr fun hj => ?_⟩
    by_cases heq : j = k
    · subst heq
      simp [CallPC.shutting] at hj
    · rw [setCall_of_ne s heq] at hj
      exact heq ((h.shutting k hshutting).2 j hj)

theorem Ok.callStep (h : s.Ok) {more : Bool} (hquiet : s.quiet (.call k more))
    (hstep : s.callStep k more = some s') : s'.Ok := by
  unfold HandleState.callStep at hstep
  split at hstep
  · cases hstep
  · -- the check in `getBytes`
    obtain rfl := Option.some.inj hstep
    cases hclosed : s.closed with
    | true => exact h.setCall_free rfl (by simp [CallPC.reading]) rfl
    | false => exact h.setCall_free rfl (fun _ => hclosed) rfl
  · rename_i hk
    obtain rfl := Option.some.inj hstep
    have hopen : s.closed = false := h.open_of_reading (k := k) (by rw [hk]; rfl)
    exact h.setCall_current rfl (h.unflagged hopen).1 (fun _ => hopen) (by simp [CallPC.shutting])
  · rename_i db hk
    obtain rfl := Option.some.inj hstep
    apply h.setCall_held db (by rw [hk]; rfl) (by rw [hk]; rfl)
    · cases more <;> simp [CallPC.handle]
    · cases more <;> rfl
  · rename_i db hk
    obtain rfl := Option.some.inj hstep
    exact h.setCall_held db (by rw [hk]; rfl) (by rw [hk]; rfl) (.inr rfl) rfl
  · rename_i db hk
    obtain rfl := Option.some.inj hstep
    exact h.setCall_held db (by rw [hk]; rfl) (by rw [hk]; rfl) (.inl rfl) rfl
  · rename_i db hk
    obtain rfl := Option.some.inj hstep
    apply h.setCall_held db (by rw [hk]; rfl) (by rw [hk]; rfl)
    · cases more <;> simp [CallPC.handle]
    · cases more <;> rfl
  · rename_i db hk
    obtain rfl := Option.some.inj hstep
    apply h.setCall_held db (by rw [hk]; rfl) (by rw [hk]; rfl)
    · cases more <;> simp [CallPC.handle]
    · cases more <;> rfl
  · rename_i db hk
    obtain rfl := Option.some.inj hstep
    exact h.setCall_held db (by rw [hk]; rfl) (by rw [hk]; rfl) (.inl rfl) rfl
  · -- the flag
    rename_i hk
    obtain rfl := Option.some.inj hstep
    obtain ⟨hopen, hfsm, hreading⟩ := hquiet hk
    exact h.setFlag hopen hfsm hreading
  · rename_i hk
    obtain rfl := Option.some.inj hstep
    have hshutting : (s.calls k).shutting = true := by rw [hk]; rfl
    exact h.setCall_current rfl (h.shutting k hshutting).1 (by simp [CallPC.reading])
      (fun _ => hshutting)
  · rename_i db hk
    obtain rfl := Option.some.inj hstep
    apply h.setCall
    · exact fun other hother => .inl (by rw [hk]; exact hother)
    · simp [CallPC.reading]
    · exact fun _ => by rw [hk]; rfl
  · -- the database
    rename_i db hk
    obtain rfl := Option.some.inj hstep
    exact h.closeCurrent hk

theorem Ok.fsmStep (h : s.Ok) {more : Bool} (hquiet : s.quiet (.fsm k more))
    (hstep : s.fsmStep k more = some s') : s'.Ok := by
  have hidle : (s.setFsm .idle).Ok := h.setFsm (by simp [FsmPC.handle]) (by simp) (by simp)
  unfold HandleState.fsmStep at hstep
  split at hstep
  · cases hstep
  · rename_i hfsm
    obtain rfl := Option.some.inj hstep
    have hopen : s.closed = false := h.open_of_busy (by simp [hfsm])
    cases more with
    | false => exact hidle
    | true => exact h.setFsm_current rfl hopen (by simp)
  · rename_i db hfsm
    obtain rfl := Option.some.inj hstep
    have hopen : s.closed = false := h.open_of_busy (by simp [hfsm])
    exact h.setFsm_held (.inr (by rw [hfsm]; rfl)) hopen (by simp)
  · obtain rfl := Option.some.inj hstep
    exact hidle
  · -- the two checks of a query
    rename_i hfsm
    obtain rfl := Option.some.inj hstep
    have hopen : s.closed = false := h.open_of_busy (by simp [hfsm])
    simpa [hopen] using h.setFsm_held (.inl (rfl : FsmPC.queried.handle = none)) hopen (by simp)
  · rename_i hfsm
    obtain rfl := Option.some.inj hstep
    have hopen : s.closed = false := h.open_of_busy (by simp [hfsm])
    simpa [hopen] using h.setFsm_held (.inl (rfl : FsmPC.queryChecked.handle = none)) hopen (by simp)
  · rename_i hfsm
    obtain rfl := Option.some.inj hstep
    exact h.setFsm_current rfl (h.open_of_busy (by simp [hfsm])) (by simp)
  · rename_i db hfsm
    obtain rfl := Option.some.inj hstep
    have hopen : s.closed = false := h.open_of_busy (by simp [hfsm])
    cases more with
    | false => exact hidle
    | true => exact h.setFsm_held (.inr (by rw [hfsm]; rfl)) hopen (by simp)
  · rename_i db hfsm
    obtain rfl := Option.some.inj hstep
    have hopen : s.closed = false := h.open_of_busy (by simp [hfsm])
    exact h.setFsm_held (.inr (by rw [hfsm]; rfl)) hopen (by simp)
  · obtain rfl := Option.some.inj hstep
    exact hidle
  · rename_i hfsm
    obtain rfl := Option.some.inj hstep
    exact h.setFsm_current rfl (h.open_of_busy (by simp [hfsm])) (by simp)
  · -- the snapshot goes to its own goroutine
    rename_i db hfsm
    have hopen : s.closed = false := h.open_of_busy (by simp [hfsm])
    obtain ⟨hdb, hlt⟩ := h.fsm_open db (by rw [hfsm]; rfl)
    split at hstep
    · obtain rfl := Option.some.inj hstep
      have hcaptured : (s.setCall k (.captured db)).Ok := by
        apply h.setCall
        · intro other hother
          obtain rfl := Option.some.inj hother
          exact .inr ⟨hdb, hlt, by simp [hfsm]⟩
        · exact fun _ => hopen
        · simp [CallPC.shutting]
      exact hcaptured.setFsm (by simp [FsmPC.handle]) (by simp) (by simp)
    · cases hstep
  · -- the swap
    rename_i hfsm
    cases more with
    | false =>
      obtain rfl := Option.some.inj hstep
      exact hidle
    | true =>
      obtain rfl := Option.some.inj hstep
      obtain ⟨hopen, hcalls⟩ := hquiet hfsm rfl
      exact h.swap hopen hcalls
  · rename_i old hfsm
    obtain rfl := Option.some.inj hstep
    have hopen : s.closed = false := h.open_of_busy (by simp [hfsm])
    obtain ⟨hne, hcalls⟩ := h.swapped old hfsm
    have hremoving : (s.setFsm .removing).Ok :=
      h.setFsm (by simp [FsmPC.handle]) (fun _ => hopen) (by simp)
    exact hremoving.closeDB (h.fsm_open old (by rw [hfsm]; rfl)).2 hcalls
      (by simp [HandleState.setFsm, FsmPC.handle]) (fun heq => absurd heq hne)
  · obtain rfl := Option.some.inj hstep
    exact hidle

theorem Ok.startCall (h : s.Ok) {pc : CallPC} (hhandle : pc.handle = none)
    (hreading : pc.reading = false) (hshutting : pc.shutting = false)
    (hstep : s.startCall k pc = some s') : s'.Ok := by
  unfold HandleState.startCall at hstep
  split at hstep
  · obtain rfl := Option.some.inj hstep
    cases s.closed with
    | true => exact h.setCall_free rfl (by simp [CallPC.reading]) rfl
    | false => exact h.setCall_free hhandle (by simp [hreading]) hshutting
  · cases hstep

theorem Ok.startFsm (h : s.Ok) {pc : FsmPC} (hhandle : pc.handle = none)
    (hstep : s.startFsm pc = some s') : s'.Ok := by
  have hpc : ∀ old, pc ≠ .swapped old := by
    rintro old rfl
    cases hhandle
  unfold HandleState.startFsm at hstep
  split at hstep
  · obtain rfl := Option.some.inj hstep
    cases hclosed : s.closed with
    | true => exact h.setFsm (by simp [FsmPC.handle]) (by simp) (by simp)
    | false => exact h.setFsm (by simp [hhandle]) (fun _ => hclosed) hpc
  · cases hstep

theorem Ok.step (h : s.Ok) (hquiet : s.quiet action) (hstep : s.step action = some s') :
    s'.Ok := by
  cases action with
  | readLocal k => exact h.startCall rfl rfl rfl hstep
  | close k => exact h.startCall rfl rfl rfl hstep
  | call k more => exact h.callStep hquiet hstep
  | apply => exact h.startFsm rfl hstep
  | applyQuery => exact h.startFsm rfl hstep
  | snapshot => exact h.startFsm rfl hstep
  | restore => exact h.startFsm rfl hstep
  | fsm k more => exact h.fsmStep hquiet hstep

end HandleState

/-! ### Over every run -/

/-- In every run in which the pointer is swapped and the closed flag is set only in quiet
    states, no step works on a closed database, and no database is closed whose handle a
    call still holds. -/
theorem handles_safe_of_quiet {n : Nat} {s : HandleState n}
    (hreached : Reached HandleState.step HandleState.quiet (· = HandleState.new n) s)
    (action : HandleAction n) : s.StepSafe action := by
  have hok : s.Ok := by
    apply hreached.invariant
    · rintro s rfl
      exact HandleState.ok_new n
    · intro s action s' h hquiet hstep
      exact h.step hquiet hstep
  exact hok.stepSafe action

/-- A read, a query through the log, a snapshot that is persisted, a restore and a `Close`,
    one after the other, up to the `Close` of the database. -/
def oneAfterTheOther : List (HandleAction 1) :=
  [.readLocal 0, .call 0 true, .call 0 true, .call 0 true, .call 0 true, .call 0 true,
    .applyQuery, .fsm 0 true, .fsm 0 true, .fsm 0 true, .fsm 0 true, .fsm 0 true, .fsm 0 true,
    .snapshot, .fsm 0 true, .fsm 0 true, .call 0 true, .call 0 false, .call 0 true,
    .restore, .fsm 0 true, .fsm 0 true, .fsm 0 true,
    .close 0, .call 0 true, .call 0 true, .call 0 true]

/-- The new database is then closed while nobody uses it. -/
theorem handles_safe_oneAfterTheOther :
    ∃ s, run HandleState.step HandleState.quiet oneAfterTheOther (HandleState.new 1) = some s ∧
      s.closes (.call 0 true) = some 1 ∧ s.StepSafe (.call 0 true) := by
  have hrun : run HandleState.step HandleState.quiet oneAfterTheOther (HandleState.new 1) =
      some _ := rfl
  exact ⟨_, hrun, rfl, handles_safe_of_quiet (reached_run (.start rfl) hrun) _⟩

/-- Every step, in every order. -/
def HandleState.anyStep {n : Nat} (_ : HandleState n) (_ : HandleAction n) : Prop := True

instance {n : Nat} (s : HandleState n) (action : HandleAction n) : Decidable (s.anyStep action) :=
  inferInstanceAs (Decidable True)

/-- A read loads the handle, then a restore swaps the pointer. -/
def readDuringRestore : List (HandleAction 1) :=
  [.readLocal 0, .call 0 true, .call 0 true, .restore, .fsm 0 true]

/-- The restore closes the old database under the read, and the read's `Get` then goes to
    the closed database. -/
theorem handles_unsafe_readDuringRestore :
    ∃ s s' : HandleState 1,
      run HandleState.step HandleState.anyStep readDuringRestore (HandleState.new 1) = some s ∧
      s.closes (.fsm 0 true) = some 0 ∧ (s.calls 0).handle = some 0 ∧
      ¬ s.StepSafe (.fsm 0 true) ∧
      s.step (.fsm 0 true) = some s' ∧ s'.calls 0 = .loaded 0 ∧ 0 ∈ s'.closedDBs ∧
      ¬ s'.StepSafe (.call 0 true) := by
  refine ⟨_, _, rfl, rfl, rfl, ?_, rfl, rfl, by decide, ?_⟩
  · intro h
    exact h.closes_calls 0 rfl 0 (by simp) rfl
  · intro h
    exact h.operand_open 0 rfl (by decide)

end RaftExample
