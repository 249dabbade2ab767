import RaftExample.Interleaving

/-!
# Following leadership

`monitorLeadership` and the goroutines it starts.  The monitor takes notifications from
`raftNotifyCh`, starts a `leaderLoop` for a gain, and for a loss closes the loop's stop
channel and waits for it.  A loop runs a Barrier, sets the flag for consistent reads and
resets it when it leaves.  What raft answers (a Barrier, a leadership transfer) is part
of the action.
-/

namespace RaftExample

open Interleaving

/-! ### The leader loop -/

/-- Where a `leaderLoop` is.  A loop that has established its leadership only waits for
    its stop channel, so `RECONCILE` is always run with `establishedLeader` false.
    `stint` names the leadership in which the loop's Barrier succeeded. -/
inductive LoopPC where
  /-- `RECONCILE`: the Barrier is under way. -/
  | reconcile
  /-- In `establishLeadership`, before it looks at its context. -/
  | establish (stint : Nat)
  /-- In `establishLeadership`, before `setConsistentReadReady`. -/
  | setReady (stint : Nat)
  /-- Waiting for the stop channel. -/
  | established (stint : Nat)
  /-- `establishLeadership` failed, before `revokeLeadership`. -/
  | notEstablished
  /-- In `leadershipTransfer`, with the attempts that are left. -/
  | transfer (left : Nat)
  /-- `WAIT`: about to poll the stop channel. -/
  | wait
  /-- The second `select` of `WAIT`. -/
  | retrying
  /-- Returning, before the deferred `revokeLeadership`. -/
  | returning
deriving DecidableEq, Repr

/-- The stint of the Barrier a loop has passed on its way to the flag. -/
def LoopPC.passed : LoopPC → Option Nat
  | .establish stint | .setReady stint | .established stint => some stint
  | _ => none

/-- A running `leaderLoop`; `cancelled` says that its context is. -/
structure LeaderLoop where
  stopCh : Nat
  cancelled : Bool
  pc : LoopPC
deriving DecidableEq, Repr

/-- `readyForConsistentReads`.  The stint is a ghost: that of the Barrier after which the
    flag was last set. -/
structure ReadyFlag where
  ready : Bool
  stint : Nat
deriving DecidableEq, Repr

def ReadyFlag.reset (flag : ReadyFlag) : ReadyFlag :=
  { flag with ready := false }

inductive LoopAction where
  | barrierOk (stint : Nat)
  /-- `ErrNotLeader` or `ErrLeadershipLost`. -/
  | barrierLost
  /-- Any other error. -/
  | barrierFails
  /-- The goroutine that waits for the stop channel cancels the context. -/
  | cancel
  | checkCtx
  | setConsistentReadReady
  | revokeLeadership
  | transferOk
  | transferFails
  | poll
  | stop
  | elapse
deriving DecidableEq, Repr

/-- `retryCount` in `leadershipTransfer`. -/
def retryCount : Nat := 3

def LeaderLoop.goto (loop : LeaderLoop) (pc : LoopPC) : LeaderLoop :=
  { loop with pc := pc }

/-- One step of a loop, given whether its stop channel is closed.  Without a loop in the
    result the goroutine is over. -/
def LeaderLoop.step (action : LoopAction) (stopped : Bool) (loop : LeaderLoop)
    (flag : ReadyFlag) : Option (Option LeaderLoop × ReadyFlag) :=
  match action, loop.pc with
  | .cancel, _ => if stopped then some (some { loop with cancelled := true }, flag) else none
  | .barrierOk stint, .reconcile => some (some (loop.goto (.establish stint)), flag)
  | .barrierLost, .reconcile => some (none, flag)
  | .barrierFails, .reconcile => some (some (loop.goto .wait), flag)
  | .checkCtx, .establish stint =>
      if loop.cancelled then some (some (loop.goto .notEstablished), flag)
      else some (some (loop.goto (.setReady stint)), flag)
  | .setConsistentReadReady, .setReady stint =>
      some (some (loop.goto (.established stint)), ⟨true, stint⟩)
  | .revokeLeadership, .notEstablished =>
      some (some (loop.goto (.transfer retryCount)), flag.reset)
  | .transferOk, .transfer (_ + 1) => some (none, flag)
  | .transferFails, .transfer (left + 1) => some (some (loop.goto (.transfer left)), flag)
  -- all attempts failed
  | .transferFails, .transfer 0 => some (some (loop.goto .wait), flag)
  | .poll, .wait => if stopped then some (none, flag) else some (some (loop.goto .retrying), flag)
  | .elapse, .retrying => some (some (loop.goto .reconcile), flag)
  | .stop, .retrying => if stopped then some (none, flag) else none
  | .stop, .established _ => if stopped then some (some (loop.goto .returning), flag) else none
  | .revokeLeadership, .returning => some (none, flag.reset)
  | _, _ => none

/-! ### The monitor -/

/-- Where `monitorLeadership` is. -/
inductive MonitorPC where
  | select
  /-- Waiting for the loop after a notification of a loss. -/
  | stopping
  /-- Waiting for the loop after `shutdownCh` was closed. -/
  | shuttingDown
  | returned
deriving DecidableEq, Repr

/-- The leadership side of a `raftServer`.  `loops` are the goroutines `leaderLoopWg`
    counts; a stop channel is a number, and `closedChs` are those that were closed. -/
structure LeaderNode where
  raftNotifyCh : List Bool
  shutdownCh : Bool
  monitor : MonitorPC
  leaderLoopCancel : Option Nat
  nextCh : Nat
  closedChs : List Nat
  loops : List LeaderLoop
  readyForConsistentReads : ReadyFlag

/-- A server that has just been started. -/
def LeaderNode.new : LeaderNode := ⟨[], false, .select, none, 0, [], [], ⟨false, 0⟩⟩

inductive LeaderAction where
  /-- Raft sends on `raftNotifyCh`. -/
  | notify (isLeader : Bool)
  /-- The server closes `shutdownCh`. -/
  | shutdown
  -- the monitor
  | receive
  | seeShutdown
  | waited
  -- the loop at this place of the list
  | loop (k : Nat) (action : LoopAction)
deriving DecidableEq, Repr

/-- The case of `raftNotifyCh` in the monitor's `select`, up to `leaderLoopWg.Wait`. -/
def LeaderNode.receive (n : LeaderNode) (isLeader : Bool) (rest : List Bool) : LeaderNode :=
  match isLeader, n.leaderLoopCancel with
  | true, some _ => { n with raftNotifyCh := rest }
  | true, none =>
      { n with raftNotifyCh := rest, leaderLoopCancel := some n.nextCh, nextCh := n.nextCh + 1
               loops := n.loops ++ [⟨n.nextCh, false, .reconcile⟩] }
  | false, none => { n with raftNotifyCh := rest }
  | false, some ch =>
      { n with raftNotifyCh := rest, closedChs := ch :: n.closedChs, monitor := .stopping }

/-- The case of `shutdownCh`, up to `leaderLoopWg.Wait`. -/
def LeaderNode.seeShutdown (n : LeaderNode) : LeaderNode :=
  match n.leaderLoopCancel with
  | none => { n with monitor := .returned }
  | some ch => { n with closedChs := ch :: n.closedChs, monitor := .shuttingDown }

/-- Put what became of a loop in its place. -/
def LeaderNode.replace (n : LeaderNode) (k : Nat) (result : Option LeaderLoop × ReadyFlag) :
    LeaderNode :=
  { n with readyForConsistentReads := result.2
           loops := match result.1 with
             | some loop => n.loops.set k loop
             | none => n.loops.eraseIdx k }

/-- One step of the monitor or of a loop, or an event they are told of. -/
def LeaderNode.step (action : LeaderAction) (n : LeaderNode) : Option LeaderNode :=
  match action with
  | .notify isLeader => some { n with raftNotifyCh := n.raftNotifyCh ++ [isLeader] }
  | .shutdown => some { n with shutdownCh := true }
  | .receive =>
      match n.monitor, n.raftNotifyCh with
      | .select, isLeader :: rest => some (n.receive isLeader rest)
      | _, _ => none
  | .seeShutdown =>
      match n.monitor, n.shutdownCh with
      | .select, true => some n.seeShutdown
      | _, _ => none
  | .waited =>
      match n.monitor, n.loops with
      | .stopping, [] => some { n with leaderLoopCancel := none, monitor := .select }
      | .shuttingDown, [] => some { n with monitor := .returned }
      | _, _ => none
  | .loop k action =>
      match n.loops[k]? with
      | none => none
      | some loop =>
        match loop.step action (decide (loop.stopCh ∈ n.closedChs)) n.readyForConsistentReads with
        | none => none
        | some result => some (n.replace k result)

/-! ### What a step can do -/

/-- The steps of a loop, one by one. -/
inductive LoopStep (stopped : Bool) (loop : LeaderLoop) (flag : ReadyFlag) :
    LoopAction → Option LeaderLoop → ReadyFlag → Prop
  | cancel (hstopped : stopped = true) :
      LoopStep stopped loop flag .cancel (some { loop with cancelled := true }) flag
  | barrierOk (stint : Nat) (hpc : loop.pc = .reconcile) :
      LoopStep stopped loop flag (.barrierOk stint) (some (loop.goto (.establish stint))) flag
  | barrierLost (hpc : loop.pc = .reconcile) : LoopStep stopped loop flag .barrierLost none flag
  | barrierFails (hpc : loop.pc = .reconcile) :
      LoopStep stopped loop flag .barrierFails (some (loop.goto .wait)) flag
  | ctxDone {stint : Nat} (hpc : loop.pc = .establish stint) (hcancelled : loop.cancelled = true) :
      LoopStep stopped loop flag .checkCtx (some (loop.goto .notEstablished)) flag
  | ctxOpen {stint : Nat} (hpc : loop.pc = .establish stint) (hopen : loop.cancelled = false) :
      LoopStep stopped loop flag .checkCtx (some (loop.goto (.setReady stint))) flag
  | setReady {stint : Nat} (hpc : loop.pc = .setReady stint) :
      LoopStep stopped loop flag .setConsistentReadReady
        (some (loop.goto (.established stint))) ⟨true, stint⟩
  | revoke (hpc : loop.pc = .notEstablished) :
      LoopStep stopped loop flag .revokeLeadership
        (some (loop.goto (.transfer retryCount))) flag.reset
  | transferOk {left : Nat} (hpc : loop.pc = .transfer (left + 1)) :
      LoopStep stopped loop flag .transferOk none flag
  | transferFails {left : Nat} (hpc : loop.pc = .transfer (left + 1)) :
      LoopStep stopped loop flag .transferFails (some (loop.goto (.transfer left))) flag
  | transferGivesUp (hpc : loop.pc = .transfer 0) :
      LoopStep stopped loop flag .transferFails (some (loop.goto .wait)) flag
  | pollStopped (hpc : loop.pc = .wait) (hstopped : stopped = true) :
      LoopStep stopped loop flag .poll none flag
  | pollOpen (hpc : loop.pc = .wait) (hopen : stopped = false) :
      LoopStep stopped loop flag .poll (some (loop.goto .retrying)) flag
  | elapse (hpc : loop.pc = .retrying) :
      LoopStep stopped loop flag .elapse (some (loop.goto .reconcile)) flag
  | stopRetrying (hpc : loop.pc = .retrying) (hstopped : stopped = true) :
      LoopStep stopped loop flag .stop none flag
  | stopEstablished {stint : Nat} (hpc : loop.pc = .established stint) (hstopped : stopped = true) :
      LoopStep stopped loop flag .stop (some (loop.goto .returning)) flag
  | returns (hpc : loop.pc = .returning) :
      LoopStep stopped loop flag .revokeLeadership none flag.reset

/-- The steps of the monitor and of the loops, one by one. -/
inductive LeaderStep (n : LeaderNode) : LeaderAction → LeaderNode → Prop
  | notify (isLeader : Bool) : LeaderStep n (.notify isLeader)
      { n with raftNotifyCh := n.raftNotifyCh ++ [isLeader] }
  | shutdown : LeaderStep n .shutdown { n with shutdownCh := true }
  | receive {isLeader : Bool} {rest : List Bool} (hmonitor : n.monitor = .select)
      (hnext : n.raftNotifyCh = isLeader :: rest) :
      LeaderStep n .receive (n.receive isLeader rest)
  | seeShutdown (hmonitor : n.monitor = .select) (hshutdown : n.shutdownCh = true) :
      LeaderStep n .seeShutdown n.seeShutdown
  | stopped (hmonitor : n.monitor = .stopping) (hloops : n.loops = []) :
      LeaderStep n .waited { n with leaderLoopCancel := none, monitor := .select }
  | down (hmonitor : n.monitor = .shuttingDown) (hloops : n.loops = []) :
      LeaderStep n .waited { n with monitor := .returned }
  | loop {k : Nat} {loop : LeaderLoop} {action : LoopAction} {loop' : Option LeaderLoop}
      {flag : ReadyFlag} (hloop : n.loops[k]? = some loop)
      (hstep : LoopStep (decide (loop.stopCh ∈ n.closedChs)) loop n.readyForConsistentReads
        action loop' flag) :
      LeaderStep n (.loop k action) (n.replace k (loop', flag))

section Steps

variable {stopped : Bool} {loop : LeaderLoop} {flag flag' : ReadyFlag} {action : LoopAction}
  {loop' : Option LeaderLoop}

theorem LeaderLoop.step_spec (hstep : loop.step action stopped flag = some (loop', flag')) :
    LoopStep stopped loop flag action loop' flag' := by
  unfold LeaderLoop.step at hstep
  split at hstep
  · -- the goroutine on the stop channel
    by_cases hstopped : stopped = true
    · simp only [hstopped, if_true, Option.some.injEq, Prod.mk.injEq] at hstep
      obtain ⟨rfl, rfl⟩ := hstep
      exact .cancel hstopped
    · simp [hstopped] at hstep
  · rename_i stint hpc
    obtain ⟨rfl, rfl⟩ := Prod.mk.inj (Option.some.inj hstep)
    exact .barrierOk stint hpc
  · rename_i hpc
    obtain ⟨rfl, rfl⟩ := Prod.mk.inj (Option.some.inj hstep)
    exact .barrierLost hpc
  · rename_i hpc
    obtain ⟨rfl, rfl⟩ := Prod.mk.inj (Option.some.inj hstep)
    exact .barrierFails hpc
  · rename_i stint hpc
    split at hstep
    · rename_i hcancelled
      obtain ⟨rfl, rfl⟩ := Prod.mk.inj (Option.some.inj hstep)
      exact .ctxDone hpc hcancelled
    · rename_i hopen
      obtain ⟨rfl, rfl⟩ := Prod.mk.inj (Option.some.inj hstep)
      exact .ctxOpen hpc (Bool.eq_false_iff.mpr hopen)
  · rename_i stint hpc
    obtain ⟨rfl, rfl⟩ := Prod.mk.inj (Option.some.inj hstep)
    exact .setReady hpc
  · rename_i hpc
    obtain ⟨rfl, rfl⟩ := Prod.mk.inj (Option.some.inj hstep)
    exact .revoke hpc
  · rename_i left hpc
    obtain ⟨rfl, rfl⟩ := Prod.mk.inj (Option.some.inj hstep)
    exact .transferOk hpc
  · rename_i left hpc
    obtain ⟨rfl, rfl⟩ := Prod.mk.inj (Option.some.inj hstep)
    exact .transferFails hpc
  · rename_i hpc
    obtain ⟨rfl, rfl⟩ := Prod.mk.inj (Option.some.inj hstep)
    exact .transferGivesUp hpc
  · rename_i hpc
    split at hstep
    · rename_i hstopped
      obtain ⟨rfl, rfl⟩ := Prod.mk.inj (Option.some.inj hstep)
      exact .pollStopped hpc hstopped
    · rename_i hopen
      obtain ⟨rfl, rfl⟩ := Prod.mk.inj (Option.some.inj hstep)
      exact .pollOpen hpc (Bool.eq_false_iff.mpr hopen)
  · rename_i hpc
    obtain ⟨rfl, rfl⟩ := Prod.mk.inj (Option.some.inj hstep)
    exact .elapse hpc
  · rename_i hpc
    split at hstep
    · rename_i hstopped
      obtain ⟨rfl, rfl⟩ := Prod.mk.inj (Option.some.inj hstep)
      exact .stopRetrying hpc hstopped
    · simp at hstep
  · rename_i stint hpc
    split at hstep
    · rename_i hstopped
      obtain ⟨rfl, rfl⟩ := Prod.mk.inj (Option.some.inj hstep)
      exact .stopEstablished hpc hstopped
    · simp at hstep
  · rename_i hpc
    obtain ⟨rfl, rfl⟩ := Prod.mk.inj (Option.some.inj hstep)
    exact .returns hpc
  · simp at hstep

theorem LeaderNode.step_spec {n n' : LeaderNode} {action : LeaderAction}
    (hstep : n.step action = some n') : LeaderStep n action n' := by
  cases action with
  | notify isLeader =>
    obtain rfl := Option.some.inj hstep
    exact .notify isLeader
  | shutdown =>
    obtain rfl := Option.some.inj hstep
    exact .shutdown
  | receive =>
    simp only [LeaderNode.step] at hstep
    split at hstep
    · rename_i isLeader rest hmonitor hnext
      obtain rfl := Option.some.inj hstep
      exact .receive hmonitor hnext
    · simp at hstep
  | seeShutdown =>
    simp only [LeaderNode.step] at hstep
    split at hstep
    · rename_i hmonitor hshutdown
      obtain rfl := Option.some.inj hstep
      exact .seeShutdown hmonitor hshutdown
    · simp at hstep
  | waited =>
    simp only [LeaderNode.step] at hstep
    split at hstep
    · rename_i hmonitor hloops
      obtain rfl := Option.some.inj hstep
      exact .stopped hmonitor hloops
    · rename_i hmonitor hloops
      obtain rfl := Option.some.inj hstep
      exact .down hmonitor hloops
    · simp at hstep
  | loop k action =>
    simp only [LeaderNode.step] at hstep
    cases hloop : n.loops[k]? with
    | none => simp [hloop] at hstep
    | some loop =>
      rw [hloop] at hstep
      simp only at hstep
      split at hstep
      · simp at hstep
      · rename_i result hresult
        obtain rfl := Option.some.inj hstep
        exact .loop hloop (LeaderLoop.step_spec hresult)

/-- A step of a loop makes its way to the flag through a Barrier only. -/
theorem LoopStep.passed (h : LoopStep stopped loop flag action loop' flag') {stint : Nat} :
    ((∃ next, loop' = some next ∧ next.pc.passed = some stint) →
      loop.pc.passed = some stint ∨ action = .barrierOk stint) ∧
    (flag'.ready = true → flag'.stint = stint →
      (flag.ready = true ∧ flag.stint = stint) ∨ loop.pc.passed = some stint) := by
  constructor
  · intro hnext
    obtain ⟨next, rfl, hpassed⟩ := hnext
    cases h with
    | cancel _ => exact .inl hpassed
    | barrierOk stint' _ =>
      obtain rfl := Option.some.inj hpassed
      exact .inr rfl
    | ctxOpen hpc _ => exact .inl (by rw [hpc]; exact hpassed)
    | setReady hpc => exact .inl (by rw [hpc]; exact hpassed)
    | _ => simp [LeaderLoop.goto, LoopPC.passed] at hpassed
  · intro hready hstint
    cases h with
    | setReady hpc => exact .inr (by rw [hpc, ← hstint]; rfl)
    | revoke _ => simp [ReadyFlag.reset] at hready
    | returns _ => simp [ReadyFlag.reset] at hready
    | _ => exact .inl ⟨hready, hstint⟩

/-! ### The Barrier behind the flag -/

/-- Every Barrier that a loop has passed on its way to the flag, and the one behind the
    flag while it is set, meets the condition. -/
structure LeaderNode.Backed (n : LeaderNode) (cond : Nat → Prop) : Prop where
  loops : ∀ loop ∈ n.loops, ∀ stint, loop.pc.passed = some stint → cond stint
  flag : n.readyForConsistentReads.ready = true → cond n.readyForConsistentReads.stint

variable {n n' : LeaderNode} {cond cond' : Nat → Prop}

theorem LeaderNode.backed_new (cond : Nat → Prop) : LeaderNode.new.Backed cond where
  loops := by simp [LeaderNode.new]
  flag := by simp [LeaderNode.new]

theorem LeaderNode.Backed.mono (h : n.Backed cond) (hcond : ∀ stint, cond stint → cond' stint) :
    n.Backed cond' where
  loops loop hloop stint hpassed := hcond stint (h.loops loop hloop stint hpassed)
  flag hready := hcond _ (h.flag hready)

theorem LeaderNode.Backed.receive (h : n.Backed cond) (isLeader : Bool) (rest : List Bool) :
    (n.receive isLeader rest).Backed cond := by
  unfold LeaderNode.receive
  split
  · exact ⟨h.loops, h.flag⟩
  · constructor
    · intro loop hloop stint hpassed
      rcases List.mem_append.mp hloop with hold | hnew
      · exact h.loops loop hold stint hpassed
      · obtain rfl := List.mem_singleton.mp hnew
        simp [LoopPC.passed] at hpassed
    · exact h.flag
  · exact ⟨h.loops, h.flag⟩
  · exact ⟨h.loops, h.flag⟩

theorem LeaderNode.Backed.replace (h : n.Backed cond) {k : Nat} {action : LoopAction}
    (hloop : n.loops[k]? = some loop)
    (hstep : LoopStep stopped loop n.readyForConsistentReads action loop' flag)
    (hbarrier : ∀ stint, action = .barrierOk stint → cond stint) :
    (n.replace k (loop', flag)).Backed cond := by
  have hmem : loop ∈ n.loops := List.mem_of_getElem? hloop
  constructor
  · intro other hother stint hpassed
    cases loop' with
    | none => exact h.loops other (List.mem_of_mem_eraseIdx hother) stint hpassed
    | some next =>
      rcases List.mem_or_eq_of_mem_set hother with hold | rfl
      · exact h.loops other hold stint hpassed
      · rcases hstep.passed.1 ⟨other, rfl, hpassed⟩ with hbefore | haction
        · exact h.loops loop hmem stint hbefore
        · exact hbarrier stint haction
  · intro hready
    rcases hstep.passed.2 hready rfl with ⟨hbefore, hstint⟩ | hbefore
    · exact hstint ▸ h.flag hbefore
    · exact h.loops loop hmem _ hbefore

/-- Only a Barrier that succeeds can make a condition on Barriers fail. -/
theorem LeaderStep.backed {action : LeaderAction} (hstep : LeaderStep n action n')
    (h : n.Backed cond)
    (hbarrier : ∀ k stint, action = .loop k (.barrierOk stint) → cond stint) :
    n'.Backed cond := by
  cases hstep with
  | notify isLeader => exact ⟨h.loops, h.flag⟩
  | shutdown => exact ⟨h.loops, h.flag⟩
  | receive _ _ => exact h.receive _ _
  | seeShutdown _ _ =>
    unfold LeaderNode.seeShutdown
    split
    · exact ⟨h.loops, h.flag⟩
    · exact ⟨h.loops, h.flag⟩
  | stopped _ _ => exact ⟨h.loops, h.flag⟩
  | down _ _ => exact ⟨h.loops, h.flag⟩
  | loop hloop hloopStep =>
    apply h.replace hloop hloopStep
    intro stint haction
    exact hbarrier _ stint (by rw [haction])

end Steps

end RaftExample
