import Mathlib.Algebra.Order.BigOperators.Group.List
import Mathlib.Algebra.Order.Ring.Nat
import RaftExample.LeadershipInvariant

/-!
# The monitor keeps up with raft

Raft sends gains and losses of leadership in turn.  Then the monitor takes none of its two
warning branches: every gain starts a loop and every loss stops one.  And it cannot get
stuck in its wait: when raft sends nothing more and lets Barriers through, the monitor and
its loop come to rest, with the flag set just if the last news was a gain that no Barrier
has contradicted.
-/

namespace RaftExample

open Interleaving

/-! ### What raft has said -/

/-- A server, what raft has `sent` on its channel, and whether raft has answered the
    Barrier of the loop that was started last with `ErrNotLeader` or
    `ErrLeadershipLost`. -/
structure NotifiedNode where
  node : LeaderNode
  sent : List Bool
  lost : Bool

/-- Whether the last news was a gain. -/
def leading (sent : List Bool) : Bool := sent.getLastD false

namespace NotifiedNode

def sentBy : LeaderAction → List Bool
  | .notify isLeader => [isLeader]
  | _ => []

def lostAfter (v : NotifiedNode) : LeaderAction → Bool
  | .receive => v.lost && v.node.leaderLoopCancel.isSome
  | .loop _ .barrierLost => true
  | _ => v.lost

def step (action : LeaderAction) (v : NotifiedNode) : Option NotifiedNode :=
  match v.node.step action with
  | none => none
  | some node => some ⟨node, v.sent ++ sentBy action, v.lostAfter action⟩

def new : NotifiedNode := ⟨.new, [], false⟩

/-- Raft sends a gain to a server that does not lead, and a loss to one that does. -/
def inTurn (v : NotifiedNode) : LeaderAction → Bool
  | .notify isLeader => isLeader == !leading v.sent
  | _ => true

/-- The states of the runs in which raft sends gains and losses in turn. -/
def Possible : NotifiedNode → Prop :=
  Reached step (fun v action => v.inTurn action = true) (· = .new)

theorem step_spec {v v' : NotifiedNode} {action : LeaderAction} (hstep : v.step action = some v') :
    LeaderStep v.node action v'.node ∧ v'.sent = v.sent ++ sentBy action ∧
      v'.lost = v.lostAfter action := by
  unfold NotifiedNode.step at hstep
  split at hstep
  · cases hstep
  · rename_i node hnode
    obtain rfl := Option.some.inj hstep
    exact ⟨LeaderNode.step_spec hnode, rfl, rfl⟩

end NotifiedNode

/-! ### Gains and losses in turn -/

/-- From a state of leadership to a later one through alternating news. -/
def Alternates : Bool → List Bool → Bool → Prop
  | current, [], last => current = last
  | current, isLeader :: rest, last => isLeader = !current ∧ Alternates isLeader rest last

theorem Alternates.concat {current last : Bool} {news : List Bool}
    (h : Alternates current news last) : Alternates current (news ++ [!last]) (!last) := by
  induction news generalizing current with
  | nil =>
    obtain rfl : current = last := h
    exact ⟨rfl, rfl⟩
  | cons isLeader rest ih => exact ⟨h.1, ih h.2⟩

/-- What the monitor has made of the news it has taken. -/
def LeaderNode.engaged (n : LeaderNode) : Bool :=
  match n.monitor with
  | .stopping => false
  | _ => n.leaderLoopCancel.isSome

/-- The news the monitor has not yet taken lead from where it is to where raft is, and
    for each that it has taken it has made a stop channel or closed one. -/
structure LeaderNode.Follows (n : LeaderNode) (sent : List Bool) : Prop where
  alternates : Alternates n.engaged n.raftNotifyCh (leading sent)
  gains : sent.count true = n.nextCh + n.raftNotifyCh.count true
  losses : n.monitor = .select ∨ n.monitor = .stopping →
    sent.count false = n.closedChs.length + n.raftNotifyCh.count false

namespace LeaderNode.Follows

variable {n n' : LeaderNode} {sent : List Bool} {action : LeaderAction}

/-- In its `select` the monitor finds a gain if it has no loop and a loss if it has one. -/
theorem head (h : n.Follows sent) (hmonitor : n.monitor = .select)
    {isLeader : Bool} {rest : List Bool} (hnext : n.raftNotifyCh = isLeader :: rest) :
    n.leaderLoopCancel.isSome = !isLeader ∧ Alternates isLeader rest (leading sent) := by
  have halternates := h.alternates
  rw [hnext] at halternates
  obtain ⟨hhead, hrest⟩ := halternates
  have hengaged : n.engaged = n.leaderLoopCancel.isSome := by simp [engaged, hmonitor]
  rw [hengaged] at hhead
  exact ⟨by simp [hhead], hrest⟩

theorem receive (h : n.Follows sent) (hmonitor : n.monitor = .select)
    {isLeader : Bool} {rest : List Bool} (hnext : n.raftNotifyCh = isLeader :: rest) :
    (n.receive isLeader rest).Follows (sent ++ []) := by
  rw [List.append_nil]
  obtain ⟨hhead, hrest⟩ := h.head hmonitor hnext
  have hgains := h.gains
  have hlosses := h.losses (.inl hmonitor)
  rw [hnext] at hgains hlosses
  cases isLeader with
  | true =>
    have hcancel : n.leaderLoopCancel = none := by simpa using hhead
    simp only [LeaderNode.receive, hcancel]
    refine ⟨by simpa [engaged, hmonitor] using hrest, ?_, fun _ => by simpa using hlosses⟩
    simp only [List.count_cons_self] at hgains
    simp only
    omega
  | false =>
    obtain ⟨ch, hcancel⟩ := Option.isSome_iff_exists.mp hhead
    simp only [LeaderNode.receive, hcancel]
    refine ⟨by simpa [engaged] using hrest, by simpa using hgains, fun _ => ?_⟩
    simp only [List.count_cons_self] at hlosses
    simp only [List.length_cons]
    omega

/-- A step that takes no news. -/
theorem of_same (h : n.Follows sent) (hnews : n'.raftNotifyCh = n.raftNotifyCh)
    (hengaged : n'.engaged = n.engaged) (hnext : n'.nextCh = n.nextCh)
    (hclosed : n'.monitor = .select ∨ n'.monitor = .stopping →
      (n.monitor = .select ∨ n.monitor = .stopping) ∧ n'.closedChs = n.closedChs) :
    n'.Follows (sent ++ []) := by
  rw [List.append_nil]
  refine ⟨?_, ?_, fun hmonitor => ?_⟩
  · rw [hnews, hengaged]
    exact h.alternates
  · rw [hnews, hnext]
    exact h.gains
  · obtain ⟨hbefore, hsame⟩ := hclosed hmonitor
    rw [hnews, hsame]
    exact h.losses hbefore

theorem step (h : n.Follows sent)
    (hturn : ∀ isLeader, action = .notify isLeader → isLeader = !leading sent)
    (hstep : LeaderStep n action n') : n'.Follows (sent ++ NotifiedNode.sentBy action) := by
  cases hstep with
  | notify isLeader =>
    obtain rfl := hturn isLeader rfl
    refine ⟨?_, ?_, ?_⟩
    · simpa [leading, NotifiedNode.sentBy, engaged] using h.alternates.concat
    · have hgains := h.gains
      simp only [NotifiedNode.sentBy, List.count_append]
      omega
    · intro hmonitor
      have hlosses := h.losses hmonitor
      simp only [NotifiedNode.sentBy, List.count_append]
      omega
  | shutdown =>
    exact h.of_same rfl rfl rfl fun hmonitor => ⟨hmonitor, rfl⟩
  | receive hmonitor hnext =>
    exact h.receive hmonitor hnext
  | seeShutdown hmonitor _ =>
    cases hcancel : n.leaderLoopCancel with
    | none =>
      simp only [seeShutdown, hcancel]
      exact h.of_same rfl (by simp [engaged, hmonitor, hcancel]) rfl (by simp)
    | some ch =>
      simp only [seeShutdown, hcancel]
      exact h.of_same rfl (by simp [engaged, hmonitor, hcancel]) rfl (by simp)
  | stopped hmonitor _ =>
    exact h.of_same rfl (by simp [engaged, hmonitor]) rfl fun _ => ⟨.inr hmonitor, rfl⟩
  | down hmonitor _ =>
    exact h.of_same rfl (by simp [engaged, hmonitor]) rfl (by simp)
  | loop _ _ =>
    exact h.of_same rfl rfl rfl fun hmonitor => ⟨hmonitor, rfl⟩

end LeaderNode.Follows

/-! ### The loop and its stop channel -/

/-- Where a loop is only when it has been told to stop. -/
def LoopPC.leaving : LoopPC → Bool
  | .notEstablished | .transfer _ | .returning => true
  | _ => false

/-- Where a loop is with the flag set. -/
def LoopPC.isEstablished : LoopPC → Bool
  | .established _ => true
  | _ => false

section LoopSteps

variable {stopped : Bool} {loop next : LeaderLoop} {flag flag' : ReadyFlag} {action : LoopAction}

/-- A loop is on its way out for a reason. -/
theorem LoopStep.told (h : LoopStep stopped loop flag action (some next) flag')
    (hbefore : loop.cancelled = true ∨ loop.pc.leaving = true → stopped = true)
    (hnext : next.cancelled = true ∨ next.pc.leaving = true) : stopped = true := by
  cases h with
  | cancel hstopped => exact hstopped
  | ctxDone _ hcancelled => exact hbefore (.inl hcancelled)
  | stopEstablished _ hstopped => exact hstopped
  | revoke hpc => exact hbefore (.inr (by rw [hpc]; rfl))
  | transferFails hpc => exact hbefore (.inr (by rw [hpc]; rfl))
  | transferGivesUp hpc => exact hbefore (.inr (by rw [hpc]; rfl))
  | _ => exact hbefore (.inl (by simpa [LeaderLoop.goto, LoopPC.leaving] using hnext))

/-- A loop that goes without having been told to stop has been told by raft. -/
theorem LoopStep.told_of_gone (h : LoopStep stopped loop flag action none flag')
    (hbefore : loop.cancelled = true ∨ loop.pc.leaving = true → stopped = true) :
    stopped = true ∨ action = .barrierLost := by
  cases h with
  | barrierLost _ => exact .inr rfl
  | transferOk hpc => exact .inl (hbefore (.inr (by rw [hpc]; rfl)))
  | pollStopped _ hstopped => exact .inl hstopped
  | stopRetrying _ hstopped => exact .inl hstopped
  | returns hpc => exact .inl (hbefore (.inr (by rw [hpc]; rfl)))

theorem LoopStep.ready (h : LoopStep stopped loop flag action (some next) flag')
    (hbefore : loop.pc.isEstablished = true → flag.ready = true)
    (hnext : next.pc.isEstablished = true) : flag'.ready = true := by
  cases h with
  | cancel _ => exact hbefore hnext
  | setReady _ => rfl
  | _ => simp [LeaderLoop.goto, LoopPC.isEstablished] at hnext

end LoopSteps

/-- The monitor holds the stop channel of every loop and has closed it where it waits for
    the loop; a loop that leaves has been told to; and an established one has set the
    flag. -/
structure LeaderNode.Attended (n : LeaderNode) : Prop where
  channel : ∀ loop ∈ n.loops, n.leaderLoopCancel = some loop.stopCh
  stopping : n.monitor = .stopping ∨ n.monitor = .shuttingDown →
    ∃ ch, n.leaderLoopCancel = some ch ∧ ch ∈ n.closedChs
  told : ∀ loop ∈ n.loops, loop.cancelled = true ∨ loop.pc.leaving = true →
    loop.stopCh ∈ n.closedChs
  ready : ∀ loop ∈ n.loops, loop.pc.isEstablished = true → n.readyForConsistentReads.ready = true

namespace LeaderNode.Attended

variable {n n' : LeaderNode} {action : LeaderAction}

theorem new : LeaderNode.new.Attended := by
  constructor <;> simp [LeaderNode.new]

theorem of_no_loops (hloops : n.loops = [])
    (hmonitor : n.monitor ≠ .stopping ∧ n.monitor ≠ .shuttingDown) : n.Attended := by
  refine ⟨by simp [hloops], ?_, by simp [hloops], by simp [hloops]⟩
  rintro (hstopping | hdown)
  · exact absurd hstopping hmonitor.1
  · exact absurd hdown hmonitor.2

/-- The monitor closes its stop channel and begins to wait. -/
theorem close (h : n.Attended) {ch : Nat} (hcancel : n.leaderLoopCancel = some ch)
    (monitor : MonitorPC) (news : List Bool) :
    Attended { n with raftNotifyCh := news, closedChs := ch :: n.closedChs, monitor := monitor } where
  channel := h.channel
  stopping _ := ⟨ch, hcancel, List.mem_cons_self⟩
  told loop hloop hleaves := List.mem_cons_of_mem _ (h.told loop hloop hleaves)
  ready := h.ready

theorem receive (h : n.Attended) (hmonitor : n.monitor = .select)
    (hidle : n.leaderLoopCancel = none → n.loops = []) (isLeader : Bool) (rest : List Bool) :
    (n.receive isLeader rest).Attended := by
  unfold LeaderNode.receive
  split
  · exact ⟨h.channel, h.stopping, h.told, h.ready⟩
  · rename_i hcancel
    have hnone := hidle hcancel
    refine ⟨by simp [hnone], by simp [hmonitor], ?_, ?_⟩ <;>
      simp [hnone, LoopPC.leaving, LoopPC.isEstablished]
  · exact ⟨h.channel, h.stopping, h.told, h.ready⟩
  · rename_i ch hcancel
    exact h.close hcancel .stopping rest

/-- The only loop takes a step. -/
theorem replace (h : n.Attended) {loop : LeaderLoop} {loopAction : LoopAction}
    {loop' : Option LeaderLoop} {flag : ReadyFlag} (halone : n.loops = [loop])
    (hstep : LoopStep (decide (loop.stopCh ∈ n.closedChs)) loop n.readyForConsistentReads loopAction
      loop' flag) : (n.replace 0 (loop', flag)).Attended := by
  have hmem : loop ∈ n.loops := by simp [halone]
  cases loop' with
  | none => exact ⟨by simp [LeaderNode.replace, halone], h.stopping,
      by simp [LeaderNode.replace, halone], by simp [LeaderNode.replace, halone]⟩
  | some next =>
    have hloops : (n.replace 0 (some next, flag)).loops = [next] := by
      simp [LeaderNode.replace, halone]
    have hstopCh := hstep.stopCh rfl
    refine ⟨?_, h.stopping, ?_, ?_⟩
    · simp only [hloops, List.mem_singleton, forall_eq, hstopCh]
      exact h.channel loop hmem
    · simp only [hloops, List.mem_singleton, forall_eq, hstopCh]
      intro hleaves
      exact of_decide_eq_true (hstep.told (by simpa using h.told loop hmem) hleaves)
    · simp only [hloops, List.mem_singleton, forall_eq]
      exact hstep.ready (h.ready loop hmem)

end LeaderNode.Attended

theorem LeaderNode.eq_singleton_of_getElem? {n : LeaderNode} {k : Nat} {loop : LeaderLoop}
    (halone : n.loops.length ≤ 1) (hloop : n.loops[k]? = some loop) :
    k = 0 ∧ n.loops = [loop] := by
  have hk := (List.getElem?_eq_some_iff.mp hloop).1
  obtain ⟨only, honly⟩ := List.length_eq_one_iff.mp (by omega : n.loops.length = 1)
  obtain rfl : k = 0 := by omega
  rw [honly] at hloop ⊢
  exact ⟨rfl, by simpa using hloop⟩

theorem LeaderStep.attended {n n' : LeaderNode} {action : LeaderAction}
    (hstep : LeaderStep n action n') (h : n.Attended) (halone : n.loops.length ≤ 1)
    (hidle : n.leaderLoopCancel = none → n.loops = []) : n'.Attended := by
  cases hstep with
  | notify _ => exact ⟨h.channel, h.stopping, h.told, h.ready⟩
  | shutdown => exact ⟨h.channel, h.stopping, h.told, h.ready⟩
  | receive hmonitor _ => exact h.receive hmonitor hidle _ _
  | seeShutdown hmonitor _ =>
    unfold LeaderNode.seeShutdown
    split
    · rename_i hcancel
      exact .of_no_loops (hidle hcancel) (by simp)
    · rename_i ch hcancel
      exact h.close hcancel .shuttingDown n.raftNotifyCh
  | stopped _ hloops => exact .of_no_loops hloops (by simp)
  | down _ hloops => exact .of_no_loops hloops (by simp)
  | loop hloop hloopStep =>
    obtain ⟨rfl, hone⟩ := LeaderNode.eq_singleton_of_getElem? halone hloop
    exact h.replace hone hloopStep

/-! ### The invariant -/

/-- What holds in every run, whatever raft sends. -/
structure NotifiedNode.Sound (v : NotifiedNode) : Prop where
  channels : v.node.Channels
  loops : ∃ barriers, LeaderRun.Loops ⟨v.node, barriers⟩
  attended : v.node.Attended
  gone_of_lost : v.lost = true → v.node.loops = []
  lost_of_gone : v.node.leaderLoopCancel.isSome = true → v.node.monitor = .select →
    v.node.loops = [] → v.lost = true

section Sound

variable {v v' : NotifiedNode} {action : LeaderAction}

/-- The loop of a monitor in its `select` has not been told to stop. -/
theorem NotifiedNode.Sound.not_told (h : v.Sound) (hmonitor : v.node.monitor = .select)
    {loop : LeaderLoop} (hloop : loop ∈ v.node.loops) : loop.stopCh ∉ v.node.closedChs :=
  h.channels.cancel_open hmonitor _ (h.attended.channel loop hloop)

/-- The ghost of a lost Barrier tells whether the loop that was started last is gone. -/
theorem LeaderStep.lost {n' : LeaderNode} (hstep : LeaderStep v.node action n') (h : v.Sound) :
    (v.lostAfter action = true → n'.loops = []) ∧
    (n'.leaderLoopCancel.isSome = true → n'.monitor = .select → n'.loops = [] →
      v.lostAfter action = true) := by
  obtain ⟨barriers, hloops⟩ := h.loops
  cases hstep with
  | notify _ => exact ⟨h.gone_of_lost, h.lost_of_gone⟩
  | shutdown => exact ⟨h.gone_of_lost, h.lost_of_gone⟩
  | @receive isLeader rest hmonitor _ =>
    cases hcancel : v.node.leaderLoopCancel with
    | none => cases isLeader <;> simp [NotifiedNode.lostAfter, LeaderNode.receive, hcancel]
    | some ch =>
      have hback := h.lost_of_gone (by simp [hcancel]) hmonitor
      cases isLeader with
      | false =>
        simp only [NotifiedNode.lostAfter, LeaderNode.receive, hcancel, Option.isSome_some,
          Bool.and_true]
        exact ⟨h.gone_of_lost, by simp⟩
      | true =>
        simp only [NotifiedNode.lostAfter, LeaderNode.receive, hcancel, Option.isSome_some,
          Bool.and_true]
        exact ⟨h.gone_of_lost, fun _ _ => hback⟩
  | seeShutdown hmonitor _ =>
    unfold LeaderNode.seeShutdown
    split
    · exact ⟨h.gone_of_lost, by simp⟩
    · exact ⟨h.gone_of_lost, by simp⟩
  | stopped _ hnone => exact ⟨fun _ => hnone, by simp⟩
  | down _ hnone => exact ⟨fun _ => hnone, by simp⟩
  | @loop k loop loopAction loop' flag hloop hloopStep =>
    have halone : v.node.loops.length ≤ 1 := hloops.alone
    obtain ⟨rfl, hone⟩ := LeaderNode.eq_singleton_of_getElem? halone hloop
    have hpresent : v.lost = false := by
      by_contra hlost
      have hnone := h.gone_of_lost (by simpa using hlost)
      simp [hone] at hnone
    have hmem : loop ∈ v.node.loops := by simp [hone]
    cases loop' with
    | some next =>
      have hbusy : (v.node.replace 0 (some next, flag)).loops ≠ [] := by
        simp [LeaderNode.replace, hone]
      refine ⟨fun hlost => ?_, fun _ _ hnone => absurd hnone hbusy⟩
      cases hloopStep <;> simp [NotifiedNode.lostAfter, hpresent] at hlost
    | none =>
      refine ⟨fun _ => by simp [LeaderNode.replace, hone], fun _ hmonitor _ => ?_⟩
      have hopen := h.not_told hmonitor hmem
      rcases hloopStep.told_of_gone (by simpa using h.attended.told loop hmem) with htold | rfl
      · exact absurd (by simpa using htold) hopen
      · rfl

theorem NotifiedNode.Sound.step (h : v.Sound) (hstep : v.step action = some v') : v'.Sound := by
  obtain ⟨hnode, -, hlost⟩ := NotifiedNode.step_spec hstep
  obtain ⟨barriers, hloops⟩ := h.loops
  obtain ⟨hgone, hback⟩ := hnode.lost h
  rw [← hlost] at hgone hback
  exact ⟨hnode.channels h.channels, ⟨_, hnode.loops hloops⟩,
    hnode.attended h.attended hloops.alone hloops.idle, hgone, hback⟩

theorem NotifiedNode.new_sound : NotifiedNode.new.Sound :=
  ⟨LeaderNode.channels_new, ⟨[], LeaderRun.loops_new⟩, .new, by simp [NotifiedNode.new], by
    simp [NotifiedNode.new, LeaderNode.new]⟩

end Sound

/-! ### The work that is left -/

/-- How many steps a loop may still take while Barriers succeed.  A loop that has been
    told to stop leaves `WAIT` for good. -/
def LoopPC.rank (stopped : Bool) : LoopPC → Nat
  | .wait => if stopped then 1 else 10
  | .retrying => 9
  | .reconcile => 8
  | .establish _ => 7
  | .notEstablished => 6
  | .transfer left => left + 2
  | .setReady _ => 3
  | .established _ => 2
  | .returning => 1

/-- Its end and the end of its context are steps as well. -/
def LeaderLoop.weight (closedChs : List Nat) (loop : LeaderLoop) : Nat :=
  loop.pc.rank (decide (loop.stopCh ∈ closedChs)) + 1 + (if loop.cancelled then 0 else 1)

def MonitorPC.rank : MonitorPC → Nat
  | .stopping => 3
  | .select => 2
  | .shuttingDown => 1
  | .returned => 0

/-- A gain that is still to be taken brings a loop. -/
def LeaderNode.work (n : LeaderNode) : Nat :=
  (n.loops.map (LeaderLoop.weight n.closedChs)).sum + 12 * n.raftNotifyCh.length + n.monitor.rank

/-- Steps of the monitor and of its loops, with Barriers that do not fail for another
    reason than a loss of leadership.  A context is cancelled once. -/
def LeaderNode.ownStep (n : LeaderNode) : LeaderAction → Bool
  | .notify _ | .shutdown | .loop _ .barrierFails => false
  | .loop k .cancel => n.loops[k]?.all fun loop => !loop.cancelled
  | _ => true

section Work

variable {n n' : LeaderNode} {action : LeaderAction}

theorem LoopPC.rank_le_open (pc : LoopPC) (stopped : Bool) : pc.rank stopped ≤ pc.rank false := by
  cases pc <;> cases stopped <;> simp [LoopPC.rank]

theorem LeaderLoop.weight_cons_le (closedChs : List Nat) (ch : Nat) (loop : LeaderLoop) :
    loop.weight (ch :: closedChs) ≤ loop.weight closedChs := by
  have hrank : loop.pc.rank (decide (loop.stopCh ∈ ch :: closedChs)) ≤
      loop.pc.rank (decide (loop.stopCh ∈ closedChs)) := by
    by_cases hclosed : loop.stopCh ∈ closedChs
    · rw [decide_eq_true hclosed, decide_eq_true (List.mem_cons_of_mem _ hclosed)]
    · rw [decide_eq_false hclosed]
      exact loop.pc.rank_le_open _
  unfold LeaderLoop.weight
  omega

/-- The monitor closes its stop channel. -/
theorem LeaderNode.sum_weight_cons_le (n : LeaderNode) (ch : Nat) :
    (n.loops.map (LeaderLoop.weight (ch :: n.closedChs))).sum ≤
      (n.loops.map (LeaderLoop.weight n.closedChs)).sum :=
  List.sum_le_sum fun loop _ => loop.weight_cons_le n.closedChs ch

theorem LeaderLoop.weight_goto_lt {closedChs : List Nat} {loop : LeaderLoop} {pc : LoopPC}
    (h : pc.rank (decide (loop.stopCh ∈ closedChs)) <
      loop.pc.rank (decide (loop.stopCh ∈ closedChs))) :
    (loop.goto pc).weight closedChs < loop.weight closedChs :=
  Nat.add_lt_add_right (Nat.add_lt_add_right h 1) _

theorem LoopStep.weight_lt {closedChs : List Nat} {loop next : LeaderLoop} {flag flag' : ReadyFlag}
    {action : LoopAction}
    (h : LoopStep (decide (loop.stopCh ∈ closedChs)) loop flag action (some next) flag')
    (htold : loop.pc.leaving = true → loop.stopCh ∈ closedChs)
    (hfails : action ≠ .barrierFails) (hcancel : action = .cancel → loop.cancelled = false) :
    next.weight closedChs < loop.weight closedChs := by
  cases h with
  | cancel hstopped => simp [LeaderLoop.weight, hcancel rfl]
  | barrierFails _ => exact absurd rfl hfails
  | transferGivesUp hpc =>
    have hstopped := htold (by rw [hpc]; rfl)
    exact LeaderLoop.weight_goto_lt (by simp [LoopPC.rank, hpc, hstopped])
  | pollOpen hpc hopen =>
    exact LeaderLoop.weight_goto_lt (by simp [LoopPC.rank, hpc, of_decide_eq_false hopen])
  | revoke hpc => exact LeaderLoop.weight_goto_lt (by simp [LoopPC.rank, hpc, retryCount])
  | barrierOk stint hpc => exact LeaderLoop.weight_goto_lt (by simp [LoopPC.rank, hpc])
  | ctxDone hpc _ => exact LeaderLoop.weight_goto_lt (by simp [LoopPC.rank, hpc])
  | ctxOpen hpc _ => exact LeaderLoop.weight_goto_lt (by simp [LoopPC.rank, hpc])
  | setReady hpc => exact LeaderLoop.weight_goto_lt (by simp [LoopPC.rank, hpc])
  | transferFails hpc => exact LeaderLoop.weight_goto_lt (by simp [LoopPC.rank, hpc])
  | elapse hpc => exact LeaderLoop.weight_goto_lt (by simp [LoopPC.rank, hpc])
  | stopEstablished hpc _ => exact LeaderLoop.weight_goto_lt (by simp [LoopPC.rank, hpc])

theorem LeaderNode.work_receive_lt (n : LeaderNode) {isLeader : Bool} {rest : List Bool}
    (hmonitor : n.monitor = .select) (hnext : n.raftNotifyCh = isLeader :: rest) :
    (n.receive isLeader rest).work < n.work := by
  have hlength : n.raftNotifyCh.length = rest.length + 1 := by rw [hnext, List.length_cons]
  have hselect : n.monitor.rank = 2 := by rw [hmonitor]; rfl
  unfold LeaderNode.receive
  split
  · simp only [LeaderNode.work]
    omega
  · have hnew : LeaderLoop.weight n.closedChs ⟨n.nextCh, false, .reconcile⟩ = 10 := rfl
    simp only [LeaderNode.work, List.map_append, List.map_cons, List.map_nil, List.sum_append,
      List.sum_cons, List.sum_nil, hnew]
    omega
  · simp only [LeaderNode.work]
    omega
  · rename_i ch _
    have hclose := n.sum_weight_cons_le ch
    have hstopping : MonitorPC.stopping.rank = 3 := rfl
    simp only [LeaderNode.work]
    omega

theorem LeaderNode.work_seeShutdown_lt (n : LeaderNode) (hmonitor : n.monitor = .select) :
    n.seeShutdown.work < n.work := by
  have hselect : n.monitor.rank = 2 := by rw [hmonitor]; rfl
  unfold LeaderNode.seeShutdown
  split
  · have hreturned : MonitorPC.returned.rank = 0 := rfl
    simp only [LeaderNode.work]
    omega
  · rename_i ch _
    have hclose := n.sum_weight_cons_le ch
    have hdown : MonitorPC.shuttingDown.rank = 1 := rfl
    simp only [LeaderNode.work]
    omega

theorem LeaderStep.work_lt (hstep : LeaderStep n action n') (hown : n.ownStep action = true)
    (hattended : n.Attended) : n'.work < n.work := by
  cases hstep with
  | notify _ => simp [LeaderNode.ownStep] at hown
  | shutdown => simp [LeaderNode.ownStep] at hown
  | receive hmonitor hnext => exact n.work_receive_lt hmonitor hnext
  | seeShutdown hmonitor _ => exact n.work_seeShutdown_lt hmonitor
  | stopped hmonitor _ => simp [LeaderNode.work, hmonitor, MonitorPC.rank]
  | down hmonitor _ => simp [LeaderNode.work, hmonitor, MonitorPC.rank]
  | @loop k loop loopAction loop' flag hloop hloopStep =>
    cases loop' with
    | none =>
      have hsum := sum_map_eraseIdx (f := LeaderLoop.weight n.closedChs) hloop
      have hpos : 0 < loop.weight n.closedChs := by
        unfold LeaderLoop.weight
        omega
      simp only [LeaderNode.work, LeaderNode.replace]
      omega
    | some next =>
      have hsum := sum_map_set (a := next) (f := LeaderLoop.weight n.closedChs) hloop
      have hless : next.weight n.closedChs < loop.weight n.closedChs := by
        apply hloopStep.weight_lt
        · exact fun hleaving => hattended.told loop (List.mem_of_getElem? hloop) (.inr hleaving)
        · rintro rfl
          simp [LeaderNode.ownStep] at hown
        · rintro rfl
          simpa [LeaderNode.ownStep, hloop] using hown
      simp only [LeaderNode.work, LeaderNode.replace]
      omega

end Work

/-! ### At rest -/

/-- Neither the monitor nor a loop can take a step of its own. -/
def NotifiedNode.Quiet (v : NotifiedNode) : Prop :=
  ∀ action, v.node.ownStep action = true → v.step action = none

namespace NotifiedNode.Quiet

variable {v : NotifiedNode}

theorem node_step (h : v.Quiet) (action : LeaderAction) (hown : v.node.ownStep action = true) :
    v.node.step action = none := by
  have hnone := h action hown
  unfold NotifiedNode.step at hnone
  split at hnone
  · assumption
  · simp at hnone

/-- A loop rests only where it waits for its stop channel, still open. -/
theorem loop_rests (h : v.Quiet) {k : Nat} {loop : LeaderLoop}
    (hloop : v.node.loops[k]? = some loop) :
    loop.stopCh ∉ v.node.closedChs ∧ loop.pc.isEstablished = true := by
  have hstuck : ∀ action, v.node.ownStep (.loop k action) = true →
      loop.step action (decide (loop.stopCh ∈ v.node.closedChs)) v.node.readyForConsistentReads =
        none := by
    intro action hown
    have hnone := h.node_step (.loop k action) hown
    simp only [LeaderNode.step, hloop] at hnone
    split at hnone
    · assumption
    · simp at hnone
  cases hpc : loop.pc with
  | established stint =>
    refine ⟨fun hclosed => ?_, rfl⟩
    simpa [LeaderLoop.step, hpc, hclosed] using hstuck .stop rfl
  | reconcile => simpa [LeaderLoop.step, hpc] using hstuck .barrierLost rfl
  | establish stint =>
    have hnone := hstuck .checkCtx rfl
    simp only [LeaderLoop.step, hpc] at hnone
    split at hnone <;> simp at hnone
  | setReady stint => simpa [LeaderLoop.step, hpc] using hstuck .setConsistentReadReady rfl
  | notEstablished => simpa [LeaderLoop.step, hpc] using hstuck .revokeLeadership rfl
  | transfer left =>
    cases left with
    | zero => simpa [LeaderLoop.step, hpc] using hstuck .transferFails rfl
    | succ left => simpa [LeaderLoop.step, hpc] using hstuck .transferFails rfl
  | wait =>
    have hnone := hstuck .poll rfl
    simp only [LeaderLoop.step, hpc] at hnone
    split at hnone <;> simp at hnone
  | retrying => simpa [LeaderLoop.step, hpc] using hstuck .elapse rfl
  | returning => simpa [LeaderLoop.step, hpc] using hstuck .revokeLeadership rfl

/-- The monitor does not wait in vain. -/
theorem monitor_rests (h : v.Quiet) (hattended : v.node.Attended) :
    v.node.monitor = .returned ∨ (v.node.monitor = .select ∧ v.node.raftNotifyCh = []) := by
  -- while the monitor waits, its loop has been told to stop and can go on
  have hwaits : v.node.monitor = .stopping ∨ v.node.monitor = .shuttingDown → v.node.loops = [] := by
    intro hmonitor
    cases hloops : v.node.loops with
    | nil => rfl
    | cons loop rest =>
      have hfirst : v.node.loops[0]? = some loop := by simp [hloops]
      have hrests := h.loop_rests hfirst
      obtain ⟨ch, hcancel, hclosed⟩ := hattended.stopping hmonitor
      have hchannel := hattended.channel loop (by simp [hloops])
      rw [hcancel] at hchannel
      exact absurd (Option.some.inj hchannel ▸ hclosed) hrests.1
  cases hmonitor : v.node.monitor with
  | returned => exact .inl rfl
  | select =>
    cases hnews : v.node.raftNotifyCh with
    | nil => exact .inr ⟨rfl, rfl⟩
    | cons isLeader rest =>
      simpa [LeaderNode.step, hmonitor, hnews] using h.node_step .receive rfl
  | stopping =>
    simpa [LeaderNode.step, hmonitor, hwaits (.inl hmonitor)] using h.node_step .waited rfl
  | shuttingDown =>
    simpa [LeaderNode.step, hmonitor, hwaits (.inr hmonitor)] using h.node_step .waited rfl

end NotifiedNode.Quiet

/-- The loops are in order and the monitor keeps up. -/
structure NotifiedNode.Ok (v : NotifiedNode) : Prop where
  sound : v.Sound
  follows : v.node.Follows v.sent

namespace NotifiedNode.Ok

variable {v v' : NotifiedNode} {action : LeaderAction}

theorem step (h : v.Ok) (hturn : v.inTurn action = true) (hstep : v.step action = some v') :
    v'.Ok := by
  refine ⟨h.sound.step hstep, ?_⟩
  obtain ⟨hnode, hsent, -⟩ := NotifiedNode.step_spec hstep
  rw [hsent]
  refine h.follows.step ?_ hnode
  rintro isLeader rfl
  simpa [inTurn] using hturn

theorem ownStep (h : v.Ok) (hown : v.node.ownStep action = true)
    (hstep : v.step action = some v') : v'.Ok ∧ v'.node.work < v.node.work := by
  refine ⟨h.step ?_ hstep, (NotifiedNode.step_spec hstep).1.work_lt hown h.sound.attended⟩
  cases action with
  | notify _ => simp [LeaderNode.ownStep] at hown
  | _ => rfl

/-- What the flag says when the monitor has taken all the news and no loop can move. -/
theorem ready_iff (h : v.Ok) (hquiet : v.Quiet) (hmonitor : v.node.monitor = .select)
    (hnews : v.node.raftNotifyCh = []) :
    v.node.readyForConsistentReads.ready = true ↔ leading v.sent = true ∧ v.lost = false := by
  obtain ⟨barriers, hloops⟩ := h.sound.loops
  have halternates := h.follows.alternates
  rw [hnews] at halternates
  have hengaged : v.node.leaderLoopCancel.isSome = leading v.sent := by
    rw [← show v.node.engaged = leading v.sent from halternates]
    simp [LeaderNode.engaged, hmonitor]
  rw [← hengaged]
  constructor
  · intro hready
    obtain ⟨loop, hloop, -⟩ := hloops.flag hready
    refine ⟨by simp [h.sound.attended.channel loop hloop], ?_⟩
    by_contra hlost
    have hnone := h.sound.gone_of_lost (by simpa using hlost)
    simp [show v.node.loops = [] from hnone] at hloop
  · rintro ⟨hcancel, hlost⟩
    cases hrest : v.node.loops with
    | nil =>
      have hgone := h.sound.lost_of_gone hcancel hmonitor hrest
      simp [hlost] at hgone
    | cons loop rest =>
      have hfirst : v.node.loops[0]? = some loop := by simp [hrest]
      exact h.sound.attended.ready loop (List.mem_of_getElem? hfirst) (hquiet.loop_rests hfirst).2

end NotifiedNode.Ok

theorem NotifiedNode.Possible.ok {v : NotifiedNode} (h : v.Possible) : v.Ok := by
  refine h.invariant ?_ fun v action v' hok hturn hstep => hok.step hturn hstep
  rintro v rfl
  exact ⟨NotifiedNode.new_sound, ⟨rfl, rfl, fun _ => rfl⟩⟩

/-- When raft sends gains and losses in turn, the monitor takes neither of its warning
    branches: a gain finds it without a loop and a loss with one.  So the loops started are
    the gains it has taken, and the loops stopped the losses, until the shutdown. -/
theorem notifications_all_followed {v : NotifiedNode} (hpossible : v.Possible) :
    (v.node.monitor = .select → ∀ isLeader rest, v.node.raftNotifyCh = isLeader :: rest →
      v.node.leaderLoopCancel.isSome = !isLeader) ∧
    v.sent.count true = v.node.nextCh + v.node.raftNotifyCh.count true ∧
    (v.node.monitor = .select ∨ v.node.monitor = .stopping →
      v.sent.count false = v.node.closedChs.length + v.node.raftNotifyCh.count false) := by
  have hfollows := hpossible.ok.follows
  refine ⟨?_, hfollows.gains, hfollows.losses⟩
  intro hmonitor isLeader rest hnext
  exact (hfollows.head hmonitor hnext).1

/-- Leadership is lost and gained again before the monitor has taken the first gain. -/
theorem notifications_all_followed_backlog :
    ∃ v, run NotifiedNode.step (fun v action => v.inTurn action = true)
        [.notify true, .notify false, .notify true, .receive, .receive, .loop 0 .barrierLost,
          .waited] .new = some v ∧
      v.node.raftNotifyCh = [true] ∧ v.node.leaderLoopCancel.isSome = false ∧
      v.sent.count true = v.node.nextCh + 1 := by
  have hrun : run NotifiedNode.step (fun v action => v.inTurn action = true)
      [.notify true, .notify false, .notify true, .receive, .receive, .loop 0 .barrierLost,
        .waited] .new = some _ := rfl
  obtain ⟨hhead, hgains, -⟩ := notifications_all_followed (reached_run (.start rfl) hrun)
  exact ⟨_, hrun, rfl, hhead rfl true [] rfl, hgains⟩

/-- Raft has sent gains and losses in turn and sends nothing more, and Barriers do not
    fail unless leadership is lost.  Then only so many steps are left, in any order, and
    when none can be taken the monitor has returned or has taken all the news.  In the
    latter case the flag is set just if the last news was a gain and no Barrier of its
    loop said otherwise. -/
theorem leadership_settles {v v' : NotifiedNode} (hpossible : v.Possible)
    {actions : List LeaderAction}
    (hrun : run NotifiedNode.step (fun v action => v.node.ownStep action = true) actions v = some v') :
    actions.length + v'.node.work ≤ v.node.work ∧
      (v'.Quiet →
        (v'.node.monitor = .returned ∧ v'.node.readyForConsistentReads.ready = false) ∨
        (v'.node.monitor = .select ∧ v'.node.raftNotifyCh = [] ∧
          (v'.node.readyForConsistentReads.ready = true ↔
            leading v'.sent = true ∧ v'.lost = false))) := by
  have hstep : ∀ (v : NotifiedNode) action v', v.Ok → v.node.ownStep action = true →
      v.step action = some v' → v'.Ok ∧ v'.node.work < v.node.work :=
    fun _ _ _ hok hown hstep => hok.ownStep hown hstep
  obtain ⟨hok, hlength⟩ := length_add_le_of_run (fun v => v.node.work) hstep hpossible.ok hrun
  refine ⟨hlength, fun hquiet => ?_⟩
  rcases hquiet.monitor_rests hok.sound.attended with hreturned | ⟨hmonitor, hnews⟩
  · obtain ⟨barriers, hloops⟩ := hok.sound.loops
    exact .inl ⟨hreturned, hloops.not_ready (hloops.returned hreturned)⟩
  · exact .inr ⟨hmonitor, hnews, hok.ready_iff hquiet hmonitor hnews⟩

/-- A server that has taken its first gain, -/
def newLeader : NotifiedNode :=
  ⟨⟨[], false, .select, some 0, 1, [], [⟨0, false, .reconcile⟩], ⟨false, 0⟩⟩, [true], false⟩

/-- and one that has established its leadership. -/
def establishedLeader : NotifiedNode :=
  ⟨⟨[], false, .select, some 0, 1, [], [⟨0, false, .established 1⟩], ⟨true, 1⟩⟩, [true], false⟩

theorem establishedLeader_quiet : establishedLeader.Quiet := by
  intro action hown
  cases action with
  | loop k action =>
    cases k with
    | zero => cases action <;> rfl
    | succ k => rfl
  | notify _ => simp [LeaderNode.ownStep] at hown
  | shutdown => simp [LeaderNode.ownStep] at hown
  | _ => rfl

/-- A gain is taken, its loop passes the Barrier and rests. -/
theorem leadership_settles_gain :
    run NotifiedNode.step (fun v action => v.inTurn action = true) [.notify true, .receive] .new =
      some newLeader ∧
    run NotifiedNode.step (fun v action => v.node.ownStep action = true)
      [.loop 0 (.barrierOk 1), .loop 0 .checkCtx, .loop 0 .setConsistentReadReady] newLeader =
        some establishedLeader ∧
    establishedLeader.node.readyForConsistentReads.ready = true := by
  have hrun : run NotifiedNode.step (fun v action => v.inTurn action = true)
      [.notify true, .receive] .new = some newLeader := rfl
  have hown : run NotifiedNode.step (fun v action => v.node.ownStep action = true)
      [.loop 0 (.barrierOk 1), .loop 0 .checkCtx, .loop 0 .setConsistentReadReady] newLeader =
        some establishedLeader := rfl
  refine ⟨hrun, hown, ?_⟩
  rcases (leadership_settles (reached_run (.start rfl) hrun) hown).2 establishedLeader_quiet with
    ⟨hreturned, -⟩ | ⟨-, -, hready⟩
  · cases hreturned
  · exact hready.mpr ⟨rfl, rfl⟩

end RaftExample
