import RaftExample.Leadership

/-!
# The loops of a leader

At most one `leaderLoop` runs, its stop channel is closed at most once, and the flag for
consistent reads is set only while a loop runs that has had a successful Barrier.  The
monitor starts a loop only when it has no stop channel, and it forgets a stop channel
only after the wait for the loop that holds it; a loop leaves with the flag set only
through the deferred `revokeLeadership`.
-/

namespace RaftExample

open Interleaving

/-! ### Barriers of the past -/

/-- The stop channel of the loop whose Barrier succeeds with an action. -/
def LeaderNode.barrierOf (n : LeaderNode) : LeaderAction → List Nat
  | .loop k (.barrierOk _) =>
      match n.loops[k]? with
      | some loop => [loop.stopCh]
      | none => []
  | _ => []

/-- A server with its past: `barriers` are the stop channels of the loops that have had a
    successful Barrier.  Every loop gets a stop channel of its own. -/
structure LeaderRun where
  node : LeaderNode
  barriers : List Nat

def LeaderRun.step (action : LeaderAction) (run : LeaderRun) : Option LeaderRun :=
  match run.node.step action with
  | none => none
  | some node => some ⟨node, run.barriers ++ run.node.barrierOf action⟩

/-- A server that has just been started has no past. -/
def LeaderRun.Started (run : LeaderRun) : Prop := run = ⟨LeaderNode.new, []⟩

/-- Every action, in every order. -/
def LeaderRun.anyAction (_ : LeaderRun) (_ : LeaderAction) : Prop := True

instance (run : LeaderRun) (action : LeaderAction) : Decidable (run.anyAction action) :=
  inferInstanceAs (Decidable True)

/-- With this step the monitor has finished with a loss of leadership or with the
    shutdown: it took the one or the other, or waited for the loop it had stopped, and it
    is back in its `select` or has returned. -/
def LeaderNode.Finishes (n : LeaderNode) (action : LeaderAction) (n' : LeaderNode) : Prop :=
  (action = .receive ∧ n.raftNotifyCh.head? = some false ∨ action = .seeShutdown ∨
    action = .waited) ∧ (n'.monitor = .select ∨ n'.monitor = .returned)

/-! ### One step of a loop -/

/-- Where a loop can be while the flag is set. -/
def LoopPC.holdsFlag : LoopPC → Bool
  | .established _ | .returning => true
  | _ => false

/-- Where a loop is only after a Barrier. -/
def LoopPC.pastBarrier : LoopPC → Bool
  | .establish _ | .setReady _ | .established _ | .returning => true
  | _ => false

section LoopSteps

variable {stopped : Bool} {loop : LeaderLoop} {flag flag' : ReadyFlag} {action : LoopAction}
  {loop' : Option LeaderLoop}

/-- A loop that is alone with the flag keeps it only where its `revokeLeadership` is still
    to come. -/
theorem LoopStep.holdsFlag (h : LoopStep stopped loop flag action loop' flag')
    (hflag : flag.ready = true → loop.pc.holdsFlag = true) (hready : flag'.ready = true) :
    ∃ next, loop' = some next ∧ next.pc.holdsFlag = true := by
  cases h with
  | cancel _ => exact ⟨_, rfl, hflag hready⟩
  | setReady _ => exact ⟨_, rfl, rfl⟩
  | stopEstablished _ _ => exact ⟨_, rfl, rfl⟩
  | revoke _ => simp [ReadyFlag.reset] at hready
  | returns _ => simp [ReadyFlag.reset] at hready
  | _ =>
    -- the loop is nowhere near the flag
    have hholds := hflag hready
    simp_all [LoopPC.holdsFlag]

theorem LoopStep.pastBarrier (h : LoopStep stopped loop flag action loop' flag')
    {next : LeaderLoop} (hnext : loop' = some next) (hpast : next.pc.pastBarrier = true) :
    loop.pc.pastBarrier = true ∨ ∃ stint, action = .barrierOk stint := by
  subst hnext
  cases h with
  | cancel _ => exact .inl hpast
  | barrierOk stint _ => exact .inr ⟨stint, rfl⟩
  | ctxOpen hpc _ => exact .inl (by rw [hpc]; rfl)
  | setReady hpc => exact .inl (by rw [hpc]; rfl)
  | stopEstablished hpc _ => exact .inl (by rw [hpc]; rfl)
  | _ => simp [LeaderLoop.goto, LoopPC.pastBarrier] at hpast

/-- A loop keeps its stop channel. -/
theorem LoopStep.stopCh (h : LoopStep stopped loop flag action loop' flag')
    {next : LeaderLoop} (hnext : loop' = some next) : next.stopCh = loop.stopCh := by
  subst hnext
  cases h <;> rfl

end LoopSteps

theorem LoopPC.pastBarrier_of_holdsFlag {pc : LoopPC} (h : pc.holdsFlag = true) :
    pc.pastBarrier = true := by
  cases pc <;> simp_all [LoopPC.holdsFlag, LoopPC.pastBarrier]

/-! ### The invariant -/

/-- The stop channels of a server. -/
structure LeaderNode.Channels (n : LeaderNode) : Prop where
  nodup : n.closedChs.Nodup
  closed_lt : ∀ ch ∈ n.closedChs, ch < n.nextCh
  cancel_lt : ∀ ch, n.leaderLoopCancel = some ch → ch < n.nextCh
  /-- A monitor that can still close its stop channel has not done so. -/
  cancel_open : n.monitor = .select → ∀ ch, n.leaderLoopCancel = some ch → ch ∉ n.closedChs

/-- Who runs, and what the flag says. -/
structure LeaderRun.Loops (run : LeaderRun) : Prop where
  alone : run.node.loops.length ≤ 1
  idle : run.node.leaderLoopCancel = none → run.node.loops = []
  returned : run.node.monitor = .returned → run.node.loops = []
  flag : run.node.readyForConsistentReads.ready = true →
    ∃ loop ∈ run.node.loops, loop.pc.holdsFlag = true
  past : ∀ loop ∈ run.node.loops, loop.pc.pastBarrier = true → loop.stopCh ∈ run.barriers

section Steps

variable {n n' : LeaderNode} {run run' : LeaderRun} {action : LeaderAction}

theorem LeaderNode.channels_new : LeaderNode.new.Channels := by
  constructor <;> simp [LeaderNode.new]

/-- The monitor closes its stop channel. -/
theorem LeaderNode.Channels.close (h : n.Channels) {ch : Nat} (hmonitor : n.monitor = .select)
    (hcancel : n.leaderLoopCancel = some ch) :
    (ch :: n.closedChs).Nodup ∧ ∀ other ∈ ch :: n.closedChs, other < n.nextCh := by
  refine ⟨List.nodup_cons.mpr ⟨h.cancel_open hmonitor ch hcancel, h.nodup⟩, ?_⟩
  intro other hother
  rcases List.mem_cons.mp hother with rfl | hold
  · exact h.cancel_lt other hcancel
  · exact h.closed_lt other hold

theorem LeaderNode.Channels.receive (h : n.Channels) (hmonitor : n.monitor = .select)
    (isLeader : Bool) (rest : List Bool) : (n.receive isLeader rest).Channels := by
  unfold LeaderNode.receive
  split
  · exact ⟨h.nodup, h.closed_lt, h.cancel_lt, h.cancel_open⟩
  · -- the new stop channel has a number of its own
    refine ⟨h.nodup, fun ch hch => Nat.lt_succ_of_lt (h.closed_lt ch hch), ?_, ?_⟩
    · intro ch hch
      obtain rfl := Option.some.inj hch
      exact Nat.lt_succ_self _
    · intro _ ch hch hclosed
      obtain rfl := Option.some.inj hch
      exact Nat.lt_irrefl _ (h.closed_lt _ hclosed)
  · exact ⟨h.nodup, h.closed_lt, h.cancel_lt, h.cancel_open⟩
  · rename_i ch hcancel
    obtain ⟨hnodup, hlt⟩ := h.close hmonitor hcancel
    exact ⟨hnodup, hlt, h.cancel_lt, by simp⟩

theorem LeaderNode.Channels.seeShutdown (h : n.Channels) (hmonitor : n.monitor = .select) :
    n.seeShutdown.Channels := by
  unfold LeaderNode.seeShutdown
  split
  · exact ⟨h.nodup, h.closed_lt, h.cancel_lt, by simp⟩
  · rename_i ch hcancel
    obtain ⟨hnodup, hlt⟩ := h.close hmonitor hcancel
    exact ⟨hnodup, hlt, h.cancel_lt, by simp⟩

theorem LeaderStep.channels (hstep : LeaderStep n action n') (h : n.Channels) : n'.Channels := by
  cases hstep with
  | notify _ => exact ⟨h.nodup, h.closed_lt, h.cancel_lt, h.cancel_open⟩
  | shutdown => exact ⟨h.nodup, h.closed_lt, h.cancel_lt, h.cancel_open⟩
  | receive hmonitor _ => exact h.receive hmonitor _ _
  | seeShutdown hmonitor _ => exact h.seeShutdown hmonitor
  | stopped _ _ => exact ⟨h.nodup, h.closed_lt, by simp, by simp⟩
  | down _ _ => exact ⟨h.nodup, h.closed_lt, h.cancel_lt, by simp⟩
  | loop _ _ => exact ⟨h.nodup, h.closed_lt, h.cancel_lt, h.cancel_open⟩

theorem LeaderRun.loops_new : LeaderRun.Loops ⟨LeaderNode.new, []⟩ := by
  constructor <;> simp [LeaderNode.new]

/-- A flag that is set while no loop runs would be a contradiction. -/
theorem LeaderRun.Loops.not_ready (h : run.Loops) (hloops : run.node.loops = []) :
    run.node.readyForConsistentReads.ready = false := by
  cases hready : run.node.readyForConsistentReads.ready with
  | false => rfl
  | true =>
    obtain ⟨loop, hloop, _⟩ := h.flag hready
    simp [hloops] at hloop

/-- Steps of the monitor leave the loops that run alone. -/
theorem LeaderRun.Loops.of_same (h : run.Loops) {n' : LeaderNode} {barriers : List Nat}
    (hloops : n'.loops = run.node.loops)
    (hflag : n'.readyForConsistentReads = run.node.readyForConsistentReads)
    (hidle : n'.leaderLoopCancel = none → n'.loops = [])
    (hreturned : n'.monitor = .returned → n'.loops = []) :
    LeaderRun.Loops ⟨n', run.barriers ++ barriers⟩ where
  alone := hloops ▸ h.alone
  idle := hidle
  returned := hreturned
  flag hready := by
    rw [hflag] at hready
    exact hloops ▸ h.flag hready
  past loop hloop hpast := List.mem_append_left _ (h.past loop (hloops ▸ hloop) hpast)

theorem LeaderRun.Loops.receive (h : run.Loops) (hmonitor : run.node.monitor = .select)
    (isLeader : Bool) (rest : List Bool) (barriers : List Nat) :
    LeaderRun.Loops ⟨run.node.receive isLeader rest, run.barriers ++ barriers⟩ := by
  unfold LeaderNode.receive
  split
  · exact h.of_same rfl rfl h.idle h.returned
  · -- no stop channel, so no loop: the new one is alone, at its first Barrier
    rename_i hcancel
    have hnone : run.node.loops = [] := h.idle hcancel
    refine ⟨by simp [hnone], by simp, by simp [hmonitor], ?_, ?_⟩
    · intro hready
      rw [h.not_ready hnone] at hready
      cases hready
    · intro loop hloop hpast
      rw [hnone] at hloop
      obtain rfl := List.mem_singleton.mp hloop
      simp [LoopPC.pastBarrier] at hpast
  · exact h.of_same rfl rfl h.idle h.returned
  · rename_i ch hcancel
    exact h.of_same rfl rfl (by simp [hcancel]) (by simp)

theorem LeaderRun.Loops.seeShutdown (h : run.Loops) (barriers : List Nat) :
    LeaderRun.Loops ⟨run.node.seeShutdown, run.barriers ++ barriers⟩ := by
  unfold LeaderNode.seeShutdown
  split
  · rename_i hcancel
    exact h.of_same rfl rfl h.idle (fun _ => h.idle hcancel)
  · rename_i ch hcancel
    exact h.of_same rfl rfl h.idle (by simp)

/-- The only loop takes a step. -/
theorem LeaderRun.Loops.replace (h : run.Loops) {k : Nat} {loop : LeaderLoop}
    {loopAction : LoopAction} {loop' : Option LeaderLoop} {flag : ReadyFlag} {stopped : Bool}
    (hloop : run.node.loops[k]? = some loop)
    (hstep : LoopStep stopped loop run.node.readyForConsistentReads loopAction loop' flag) :
    LeaderRun.Loops ⟨run.node.replace k (loop', flag),
      run.barriers ++ run.node.barrierOf (.loop k loopAction)⟩ := by
  have hmem : loop ∈ run.node.loops := List.mem_of_getElem? hloop
  have hone : run.node.loops = [loop] := by
    obtain ⟨only, honly⟩ := List.length_eq_one_iff.mp
      (Nat.le_antisymm h.alone (List.length_pos_of_mem hmem))
    rw [honly] at hmem ⊢
    rw [List.mem_singleton.mp hmem]
  obtain rfl : k = 0 := by
    have hk : k < run.node.loops.length := (List.getElem?_eq_some_iff.mp hloop).1
    rw [hone, List.length_singleton] at hk
    exact Nat.lt_one_iff.mp hk
  have hbusy : run.node.loops ≠ [] := by simp [hone]
  have hholds : run.node.readyForConsistentReads.ready = true → loop.pc.holdsFlag = true := by
    intro hready
    obtain ⟨other, hother, hpc⟩ := h.flag hready
    rw [hone] at hother
    rwa [← List.mem_singleton.mp hother]
  have hafter : (run.node.replace 0 (loop', flag)).loops = loop'.toList := by
    cases loop' <;> simp [LeaderNode.replace, hone]
  constructor
  · rw [hafter]
    cases loop' <;> simp
  · intro hidle
    exact absurd (h.idle hidle) hbusy
  · intro hreturned
    exact absurd (h.returned hreturned) hbusy
  · intro hready
    obtain ⟨next, rfl, hpc⟩ := hstep.holdsFlag hholds hready
    exact ⟨next, by rw [hafter]; simp, hpc⟩
  · intro next hnext hpast
    rw [hafter, Option.mem_toList] at hnext
    rw [hstep.stopCh hnext]
    rcases hstep.pastBarrier hnext hpast with hbefore | ⟨stint, rfl⟩
    · exact List.mem_append_left _ (h.past loop hmem hbefore)
    · exact List.mem_append_right _ (by simp [LeaderNode.barrierOf, hloop])

theorem LeaderStep.loops (hstep : LeaderStep run.node action n') (h : run.Loops) :
    LeaderRun.Loops ⟨n', run.barriers ++ run.node.barrierOf action⟩ := by
  cases hstep with
  | notify _ => exact h.of_same rfl rfl h.idle h.returned
  | shutdown => exact h.of_same rfl rfl h.idle h.returned
  | receive hmonitor _ => exact h.receive hmonitor _ _ _
  | seeShutdown _ _ => exact h.seeShutdown _
  | stopped _ hloops => exact h.of_same rfl rfl (fun _ => hloops) (by simp)
  | down _ hloops => exact h.of_same rfl rfl h.idle (fun _ => hloops)
  | loop hloop hloopStep => exact h.replace hloop hloopStep

theorem LeaderRun.step_spec (hstep : run.step action = some run') :
    LeaderStep run.node action run'.node ∧
      run'.barriers = run.barriers ++ run.node.barrierOf action := by
  unfold LeaderRun.step at hstep
  split at hstep
  · cases hstep
  · rename_i node hnode
    obtain rfl := Option.some.inj hstep
    exact ⟨LeaderNode.step_spec hnode, rfl⟩

/-- What every run keeps. -/
theorem LeaderRun.invariant
    (hreached : Reached LeaderRun.step LeaderRun.anyAction LeaderRun.Started run) :
    run.node.Channels ∧ run.Loops := by
  apply hreached.invariant
  · rintro run rfl
    exact ⟨LeaderNode.channels_new, LeaderRun.loops_new⟩
  · intro run action run' h _ hstep
    obtain ⟨hnode, hbarriers⟩ := LeaderRun.step_spec hstep
    have hloops := hnode.loops h.2
    rw [← hbarriers] at hloops
    exact ⟨hnode.channels h.1, hloops⟩

/-- When the monitor has finished with a loss or with the shutdown, no loop runs. -/
theorem LeaderStep.finishes (hstep : LeaderStep n action n') (hfinishes : n.Finishes action n')
    (hidle : n.leaderLoopCancel = none → n.loops = []) : n'.loops = [] := by
  obtain ⟨haction, hmonitor⟩ := hfinishes
  cases hstep with
  | @receive isLeader rest _ hnext =>
    obtain rfl : isLeader = false := by simpa [hnext] using haction
    cases hcancel : n.leaderLoopCancel with
    | none => simpa [LeaderNode.receive, hcancel] using hidle hcancel
    | some ch => simp [LeaderNode.receive, hcancel] at hmonitor
  | seeShutdown _ _ =>
    cases hcancel : n.leaderLoopCancel with
    | none => simpa [LeaderNode.seeShutdown, hcancel] using hidle hcancel
    | some ch => simp [LeaderNode.seeShutdown, hcancel] at hmonitor
  | stopped _ hloops => exact hloops
  | down _ hloops => exact hloops
  | notify _ => simp at haction
  | shutdown => simp at haction
  | loop _ _ => simp at haction

end Steps

/-! ### Over every run -/

/-- In every run at most one loop is active, no stop channel is closed twice, the flag is
    set only while a loop is active that has had a successful Barrier, and when the
    monitor has finished with a loss or with the shutdown the flag is reset and no loop
    is active. -/
theorem leaderLoop_alone_and_flag_backed {run : LeaderRun}
    (hreached : Reached LeaderRun.step LeaderRun.anyAction LeaderRun.Started run) :
    run.node.loops.length ≤ 1 ∧ run.node.closedChs.Nodup ∧
      (run.node.readyForConsistentReads.ready = true →
        ∃ loop ∈ run.node.loops, loop.stopCh ∈ run.barriers) ∧
      ∀ action run', run.step action = some run' → run.node.Finishes action run'.node →
        run'.node.readyForConsistentReads.ready = false ∧ run'.node.loops = [] := by
  obtain ⟨hchannels, hloops⟩ := LeaderRun.invariant hreached
  refine ⟨hloops.alone, hchannels.nodup, ?_, ?_⟩
  · intro hready
    obtain ⟨loop, hloop, hpc⟩ := hloops.flag hready
    exact ⟨loop, hloop, hloops.past loop hloop (LoopPC.pastBarrier_of_holdsFlag hpc)⟩
  · intro action run' hstep hfinishes
    have hnone : run'.node.loops = [] :=
      (LeaderRun.step_spec hstep).1.finishes hfinishes hloops.idle
    have hloops' : run'.Loops := (LeaderRun.invariant (hreached.step trivial hstep)).2
    exact ⟨hloops'.not_ready hnone, hnone⟩

/-- Leadership is gained and established, the loss is announced and the loop returns; the
    monitor has only its wait left. -/
def gainedAndLost : List LeaderAction :=
  [.notify true, .receive, .loop 0 (.barrierOk 1), .loop 0 .checkCtx,
    .loop 0 .setConsistentReadReady, .notify false, .receive, .loop 0 .stop,
    .loop 0 .revokeLeadership]

/-- After the wait that follows, the flag is reset and no loop is left. -/
theorem leaderLoop_gone_after_loss :
    ∃ run run' : LeaderRun,
      Interleaving.run LeaderRun.step LeaderRun.anyAction gainedAndLost ⟨LeaderNode.new, []⟩ =
        some run ∧ run.step .waited = some run' ∧ run.node.Finishes .waited run'.node ∧
      run'.node.readyForConsistentReads.ready = false ∧ run'.node.loops = [] := by
  have hstarted : LeaderRun.Started ⟨LeaderNode.new, []⟩ := rfl
  have hrun : Interleaving.run LeaderRun.step LeaderRun.anyAction gainedAndLost
      ⟨LeaderNode.new, []⟩ = some _ := rfl
  refine ⟨_, _, hrun, rfl, ⟨.inr (.inr rfl), .inl rfl⟩, ?_⟩
  exact (leaderLoop_alone_and_flag_backed (reached_run (.start hstarted) hrun)).2.2.2 .waited _ rfl
    ⟨.inr (.inr rfl), .inl rfl⟩

end RaftExample
