import Mathlib.Logic.Function.Basic
import RaftExample.Leadership
import RaftExample.Replication

/-!
# Consistent reads in a cluster

`Add` and `Get` with `Linearizable` on the servers of a cluster, together with raft as
far as they depend on it.  A leadership is a stint: the servers that lead are numbered in
the order in which a quorum elected them, and at most the latest of them is confirmed by
a quorum.  Only that one commits entries, and it starts with everything committed before
(leader completeness).  What a server knows about its own leadership may lag behind:
`leading` is raft's local state, and the notifications queue up in `raftNotifyCh`.
-/

namespace RaftExample

open Interleaving

/-! ### State -/

/-- A committed entry, with the stint in which it was. -/
structure CommittedEntry where
  data : Bytes
  stint : Nat
deriving DecidableEq, Repr

/-- A Barrier of a server that has been committed: how many entries precede it, and the
    stint in which it was. -/
structure CommittedBarrier where
  preceding : Nat
  stint : Nat
deriving DecidableEq, Repr

/-- A server: raft's state, the content of the FSM after `applied` entries, the Barrier a
    `leaderLoop` waits for, and the goroutines of the leadership. -/
structure Server where
  leading : Bool
  applied : Nat
  content : KV
  barrier : Option CommittedBarrier
  control : LeaderNode

/-- Where a `Get` is. -/
inductive GetPC where
  | issued
  /-- In `conn.Invoke`, with the `Get` it started on the other server. -/
  | forwarded (inner : Nat)
  /-- In `VerifyLeader`. -/
  | verifying
  /-- Before a look at the flag; leadership was verified in this stint. -/
  | polling (stint : Nat)
  /-- Before `ReadLocal`. -/
  | reading
  | returned (value : Bytes)
  | failed
deriving DecidableEq, Repr

/-- A `Get` with `Linearizable`.  `ackedBefore` are the positions of the entries whose
    `Add` had been acknowledged when the call was issued. -/
structure GetCall (ι : Type) where
  server : ι
  key : Bytes
  ackedBefore : List Nat
  pc : GetPC

/-- The cluster.  `leaderOf` and `base` give for every stint its leader and the number of
    entries committed before it; `stint` is the latest one, zero before the first. -/
structure Cluster (ι : Type) where
  committed : List CommittedEntry
  stint : Nat
  leaderOf : Nat → Option ι
  base : Nat → Nat
  confirmed : Bool
  servers : ι → Server
  acked : List Nat
  calls : List (GetCall ι)

def Server.new : Server := ⟨false, 0, ∅, none, .new⟩

/-- Servers that have just been started, before the first election. -/
def Cluster.new {ι : Type} : Cluster ι :=
  ⟨[], 0, fun _ => none, fun _ => 0, false, fun _ => .new, [], []⟩

def Cluster.Initial {ι : Type} (s : Cluster ι) : Prop := s = .new

/-! ### Steps -/

inductive GetAction where
  /-- This server handles the call: it leads, or forwarding failed. -/
  | serve
  /-- The forwarded call answered. -/
  | reply
  | verify
  | check
  | read
  /-- `VerifyLeader` fails, the time for the flag is over, or `ReadLocal` fails. -/
  | fails
deriving DecidableEq, Repr

inductive ClusterAction (ι : Type) where
  -- raft
  | gain (i : ι)
  | stepDown (i : ι)
  | loseQuorum
  | regainQuorum
  | commit (data : Bytes)
  | apply (i : ι)
  | commitBarrier (i : ι)
  /-- The `Add` of the entry at this position returns. -/
  | acknowledge (position : Nat)
  -- `monitorLeadership` and `leaderLoop`
  | lead (i : ι) (action : LeaderAction)
  -- `Get`
  | issue (i : ι) (key : Bytes)
  | forward (call : Nat) (target : ι)
  | get (call : Nat) (action : GetAction)
deriving DecidableEq, Repr

/-- Raft enters or leaves the leader state and says so on `raftNotifyCh`. -/
def Server.become (leading : Bool) (server : Server) : Server :=
  { server with
    leading := leading
    control := { server.control with
      raftNotifyCh := server.control.raftNotifyCh ++ [leading] } }

/-- What raft answers to a Barrier: success once all that precedes it is applied here, an
    error at any time.  Notifications come from changes of leadership only. -/
def Server.answer (action : LeaderAction) (server : Server) : Option Server :=
  match action with
  | .notify _ => none
  | .loop _ (.barrierOk stint) =>
      match server.barrier with
      | none => none
      | some barrier =>
        if barrier.stint = stint ∧ barrier.preceding ≤ server.applied then
          some { server with barrier := none }
        else none
  | .loop _ .barrierLost | .loop _ .barrierFails => some { server with barrier := none }
  | _ => some server

/-- A loop of the server is in its Barrier. -/
def Server.inBarrier (server : Server) : Bool :=
  server.control.loops.any fun loop => loop.pc = .reconcile

/-- `ReadLocal` on the server's store. -/
def Server.read (server : Server) (key : Bytes) : Bytes :=
  server.content[buildColumnFamilyKey cfDefault key]?.getD []

section Steps

variable {ι : Type} [DecidableEq ι]

namespace Cluster

def update (s : Cluster ι) (i : ι) (server : Server) : Cluster ι :=
  { s with servers := Function.update s.servers i server }

/-- A quorum elects the server, which has everything that is committed. -/
def elect (s : Cluster ι) (i : ι) : Cluster ι :=
  { s with
    stint := s.stint + 1
    leaderOf := Function.update s.leaderOf (s.stint + 1) (some i)
    base := Function.update s.base (s.stint + 1) s.committed.length
    confirmed := true
    servers := Function.update s.servers i ((s.servers i).become true) }

/-- The confirmed leader commits an entry. -/
def append (s : Cluster ι) (data : Bytes) : Cluster ι :=
  { s with committed := s.committed ++ [⟨data, s.stint⟩] }

/-- The server is the leader a quorum confirms. -/
def Holds (s : Cluster ι) (i : ι) : Prop :=
  s.confirmed = true ∧ s.leaderOf s.stint = some i

instance (s : Cluster ι) (i : ι) : Decidable (s.Holds i) :=
  inferInstanceAs (Decidable (_ ∧ _))

/-- The next place of a call. -/
def getStep (s : Cluster ι) (action : GetAction) (call : GetCall ι) : Option GetPC :=
  match action, call.pc with
  | .serve, .issued => some .verifying
  | .serve, .forwarded _ => some .verifying
  | .reply, .forwarded inner =>
      match s.calls[inner]?.map GetCall.pc with
      | some (.returned value) => some (.returned value)
      | _ => none
  | .verify, .verifying => if s.Holds call.server then some (.polling s.stint) else none
  | .check, .polling stint =>
      if (s.servers call.server).control.readyForConsistentReads.ready then some .reading
      else some (.polling stint)
  | .read, .reading => some (.returned ((s.servers call.server).read call.key))
  | .fails, .verifying | .fails, .polling _ | .fails, .reading => some .failed
  | _, _ => none

def step (json : Json) (action : ClusterAction ι) (s : Cluster ι) : Option (Cluster ι) :=
  match action with
  | .gain i =>
      if (s.servers i).leading then none
      else some (s.elect i)
  | .stepDown i =>
      if (s.servers i).leading then
        some { s with
          confirmed := s.confirmed && !decide (s.leaderOf s.stint = some i)
          servers := Function.update s.servers i ((s.servers i).become false) }
      else none
  | .loseQuorum => some { s with confirmed := false }
  | .regainQuorum =>
      match s.leaderOf s.stint with
      | none => none
      | some i => if (s.servers i).leading then some { s with confirmed := true } else none
  | .commit data =>
      if s.confirmed then some (s.append data) else none
  | .apply i =>
      match s.committed[(s.servers i).applied]? with
      | none => none
      | some entry => some (s.update i { s.servers i with
          applied := (s.servers i).applied + 1
          content := appliedContent json entry.data (s.servers i).content })
  | .commitBarrier i =>
      if s.Holds i ∧ (s.servers i).inBarrier = true ∧ (s.servers i).barrier = none then
        some (s.update i { s.servers i with barrier := some ⟨s.committed.length, s.stint⟩ })
      else none
  | .acknowledge position =>
      match s.committed[position]? with
      | none => none
      | some entry =>
        match s.leaderOf entry.stint with
        | none => none
        | some i =>
          if position < (s.servers i).applied then some { s with acked := position :: s.acked }
          else none
  | .lead i action =>
      match (s.servers i).answer action with
      | none => none
      | some server =>
        match server.control.step action with
        | none => none
        | some control => some (s.update i { server with control := control })
  | .issue i key => some { s with calls := s.calls ++ [⟨i, key, s.acked, .issued⟩] }
  | .forward k target =>
      match s.calls[k]? with
      | none => none
      | some call =>
        if call.pc = .issued ∧ (s.servers call.server).leading = false then
          some { s with calls := s.calls.set k { call with pc := .forwarded s.calls.length } ++
            [⟨target, call.key, s.acked, .issued⟩] }
        else none
  | .get k action =>
      match s.calls[k]? with
      | none => none
      | some call =>
        match s.getStep action call with
        | none => none
        | some pc => some { s with calls := s.calls.set k { call with pc := pc } }

end Cluster

/-! ### What a step can do -/

/-- The steps of a call, one by one. -/
inductive GetStep (s : Cluster ι) (call : GetCall ι) : GetAction → GetPC → Prop
  | serve (hpc : call.pc = .issued ∨ ∃ inner, call.pc = .forwarded inner) :
      GetStep s call .serve .verifying
  | reply {inner : Nat} {other : GetCall ι} {value : Bytes} (hpc : call.pc = .forwarded inner)
      (hother : s.calls[inner]? = some other) (hvalue : other.pc = .returned value) :
      GetStep s call .reply (.returned value)
  | verify (hpc : call.pc = .verifying) (hholds : s.Holds call.server) :
      GetStep s call .verify (.polling s.stint)
  | pass {stint : Nat} (hpc : call.pc = .polling stint)
      (hready : (s.servers call.server).control.readyForConsistentReads.ready = true) :
      GetStep s call .check .reading
  | again {stint : Nat} (hpc : call.pc = .polling stint) :
      GetStep s call .check (.polling stint)
  | read (hpc : call.pc = .reading) :
      GetStep s call .read (.returned ((s.servers call.server).read call.key))
  | fails : GetStep s call .fails .failed

/-- The steps of the cluster, one by one. -/
inductive ClusterStep (json : Json) (s : Cluster ι) : ClusterAction ι → Cluster ι → Prop
  | gain (i : ι) : ClusterStep json s (.gain i) (s.elect i)
  | stepDown (i : ι) : ClusterStep json s (.stepDown i) { s with
      confirmed := s.confirmed && !decide (s.leaderOf s.stint = some i)
      servers := Function.update s.servers i ((s.servers i).become false) }
  | quorum {action : ClusterAction ι} (confirmed : Bool) :
      ClusterStep json s action { s with confirmed := confirmed }
  | commit (data : Bytes) (hconfirmed : s.confirmed = true) :
      ClusterStep json s (.commit data) (s.append data)
  | apply {i : ι} {entry : CommittedEntry}
      (hentry : s.committed[(s.servers i).applied]? = some entry) :
      ClusterStep json s (.apply i) (s.update i { s.servers i with
        applied := (s.servers i).applied + 1
        content := appliedContent json entry.data (s.servers i).content })
  | commitBarrier {i : ι} (hholds : s.Holds i) : ClusterStep json s (.commitBarrier i)
      (s.update i { s.servers i with barrier := some ⟨s.committed.length, s.stint⟩ })
  | acknowledge {position : Nat} {entry : CommittedEntry} {i : ι}
      (hentry : s.committed[position]? = some entry) (hleader : s.leaderOf entry.stint = some i)
      (happlied : position < (s.servers i).applied) :
      ClusterStep json s (.acknowledge position) { s with acked := position :: s.acked }
  | lead {i : ι} {action : LeaderAction} {server : Server} {control : LeaderNode}
      (hanswer : (s.servers i).answer action = some server)
      (hcontrol : LeaderStep server.control action control) :
      ClusterStep json s (.lead i action) (s.update i { server with control := control })
  | issue (i : ι) (key : Bytes) : ClusterStep json s (.issue i key)
      { s with calls := s.calls ++ [⟨i, key, s.acked, .issued⟩] }
  | forward {k : Nat} {call : GetCall ι} (target : ι) (hcall : s.calls[k]? = some call) :
      ClusterStep json s (.forward k target)
        { s with calls := s.calls.set k { call with pc := .forwarded s.calls.length } ++
          [⟨target, call.key, s.acked, .issued⟩] }
  | get {k : Nat} {action : GetAction} {call : GetCall ι} {pc : GetPC}
      (hcall : s.calls[k]? = some call) (hget : GetStep s call action pc) :
      ClusterStep json s (.get k action) { s with calls := s.calls.set k { call with pc := pc } }

variable {json : Json} {s s' : Cluster ι} {action : ClusterAction ι}

theorem Cluster.getStep_spec {action : GetAction} {call : GetCall ι} {pc : GetPC}
    (hstep : s.getStep action call = some pc) : GetStep s call action pc := by
  unfold Cluster.getStep at hstep
  split at hstep
  · rename_i hpc
    obtain rfl := Option.some.inj hstep
    exact .serve (.inl hpc)
  · rename_i inner hpc
    obtain rfl := Option.some.inj hstep
    exact .serve (.inr ⟨inner, hpc⟩)
  · rename_i inner hpc
    split at hstep
    · rename_i value hinner
      obtain rfl := Option.some.inj hstep
      obtain ⟨other, hother, hvalue⟩ := Option.map_eq_some_iff.mp hinner
      exact .reply hpc hother hvalue
    · simp at hstep
  · rename_i hpc
    split at hstep
    · rename_i hholds
      obtain rfl := Option.some.inj hstep
      exact .verify hpc hholds
    · simp at hstep
  · rename_i stint hpc
    split at hstep
    · rename_i hready
      obtain rfl := Option.some.inj hstep
      exact .pass hpc hready
    · obtain rfl := Option.some.inj hstep
      exact .again hpc
  · rename_i hpc
    obtain rfl := Option.some.inj hstep
    exact .read hpc
  · obtain rfl := Option.some.inj hstep
    exact .fails
  · obtain rfl := Option.some.inj hstep
    exact .fails
  · obtain rfl := Option.some.inj hstep
    exact .fails
  · simp at hstep

theorem Cluster.step_spec (hstep : s.step json action = some s') :
    ClusterStep json s action s' := by
  cases action with
  | gain i =>
    simp only [Cluster.step] at hstep
    split at hstep
    · simp at hstep
    · obtain rfl := Option.some.inj hstep
      exact .gain i
  | stepDown i =>
    simp only [Cluster.step] at hstep
    split at hstep
    · obtain rfl := Option.some.inj hstep
      exact .stepDown i
    · simp at hstep
  | loseQuorum =>
    obtain rfl := Option.some.inj hstep
    exact .quorum false
  | regainQuorum =>
    simp only [Cluster.step] at hstep
    split at hstep
    · simp at hstep
    · split at hstep
      · obtain rfl := Option.some.inj hstep
        exact .quorum true
      · simp at hstep
  | commit data =>
    simp only [Cluster.step] at hstep
    split at hstep
    · rename_i hconfirmed
      obtain rfl := Option.some.inj hstep
      exact .commit data hconfirmed
    · simp at hstep
  | apply i =>
    simp only [Cluster.step] at hstep
    split at hstep
    · simp at hstep
    · rename_i entry hentry
      obtain rfl := Option.some.inj hstep
      exact .apply hentry
  | commitBarrier i =>
    simp only [Cluster.step] at hstep
    split at hstep
    · rename_i h
      obtain rfl := Option.some.inj hstep
      exact .commitBarrier h.1
    · simp at hstep
  | acknowledge position =>
    simp only [Cluster.step] at hstep
    split at hstep
    · simp at hstep
    · rename_i entry hentry
      split at hstep
      · simp at hstep
      · rename_i i hleader
        split at hstep
        · rename_i happlied
          obtain rfl := Option.some.inj hstep
          exact .acknowledge hentry hleader happlied
        · simp at hstep
  | lead i action =>
    simp only [Cluster.step] at hstep
    split at hstep
    · simp at hstep
    · rename_i server hanswer
      split at hstep
      · simp at hstep
      · rename_i control hcontrol
        obtain rfl := Option.some.inj hstep
        exact .lead hanswer (LeaderNode.step_spec hcontrol)
  | issue i key =>
    obtain rfl := Option.some.inj hstep
    exact .issue i key
  | forward k target =>
    simp only [Cluster.step] at hstep
    split at hstep
    · simp at hstep
    · rename_i call hcall
      split at hstep
      · obtain rfl := Option.some.inj hstep
        exact .forward target hcall
      · simp at hstep
  | get k action =>
    simp only [Cluster.step] at hstep
    split at hstep
    · simp at hstep
    · rename_i call hcall
      split at hstep
      · simp at hstep
      · rename_i pc hpc
        obtain rfl := Option.some.inj hstep
        exact .get hcall (Cluster.getStep_spec hpc)

end Steps

/-! ### What only grows -/

section Later

variable {ι : Type}

/-- The second state is one the cluster may be in after the first. -/
structure Cluster.Later (s s' : Cluster ι) : Prop where
  committed : s.committed <+: s'.committed
  stint : s.stint ≤ s'.stint
  leaderOf : ∀ u ≤ s.stint, s'.leaderOf u = s.leaderOf u
  base : ∀ u ≤ s.stint, s'.base u = s.base u
  applied : ∀ i, (s.servers i).applied ≤ (s'.servers i).applied
  acked : ∀ p ∈ s.acked, p ∈ s'.acked
  calls : ∀ (k : Nat) (call : GetCall ι), s.calls[k]? = some call → ∃ call', s'.calls[k]? = some call' ∧
    call'.key = call.key ∧ call'.ackedBefore = call.ackedBefore

variable {s s' : Cluster ι}

theorem Cluster.Later.refl (s : Cluster ι) : s.Later s where
  committed := List.prefix_rfl
  stint := Nat.le_refl _
  leaderOf _ _ := rfl
  base _ _ := rfl
  applied _ := Nat.le_refl _
  acked _ h := h
  calls _ call h := ⟨call, h, rfl, rfl⟩

theorem Cluster.Later.entry (h : s.Later s') {p : Nat} {entry : CommittedEntry}
    (hentry : s.committed[p]? = some entry) : s'.committed[p]? = some entry := by
  obtain ⟨rest, hrest⟩ := h.committed
  rw [← hrest, List.getElem?_append_left (List.getElem?_eq_some_iff.mp hentry).1, hentry]

/-- A call that moves on keeps its key and its time of issue. -/
theorem Cluster.calls_set {k : Nat} {call : GetCall ι} (hcall : s.calls[k]? = some call)
    (pc : GetPC) {j : Nat} {other : GetCall ι} (hother : s.calls[j]? = some other) :
    ∃ other', (s.calls.set k { call with pc := pc })[j]? = some other' ∧
      other'.key = other.key ∧ other'.ackedBefore = other.ackedBefore := by
  by_cases hj : k = j
  · subst hj
    obtain rfl := Option.some.inj (hcall.symm.trans hother)
    have hk : k < s.calls.length := (List.getElem?_eq_some_iff.mp hcall).1
    exact ⟨{ call with pc := pc }, List.getElem?_set_self hk, rfl, rfl⟩
  · exact ⟨other, by rw [List.getElem?_set_ne hj, hother], rfl, rfl⟩

variable [DecidableEq ι] {json : Json} {action : ClusterAction ι}

/-- A step that only replaces a server by one that has applied no less. -/
theorem Cluster.later_update (s : Cluster ι) (i : ι) (server : Server)
    (happlied : (s.servers i).applied ≤ server.applied) : s.Later (s.update i server) := by
  refine { Cluster.Later.refl s with applied := ?_ }
  intro j
  by_cases hj : j = i
  · subst hj
    simpa [Cluster.update] using happlied
  · simp [Cluster.update, hj]

/-- What raft's answer changes: the Barrier is over, and one that succeeded was behind
    everything it had to be. -/
theorem Server.answer_spec {server server' : Server} {action : LeaderAction}
    (h : server.answer action = some server') :
    (server' = server ∨ server' = { server with barrier := none }) ∧
      ∀ k stint, action = .loop k (.barrierOk stint) → ∃ barrier,
        server.barrier = some barrier ∧ barrier.stint = stint ∧
          barrier.preceding ≤ server.applied := by
  unfold Server.answer at h
  split at h
  · simp at h
  · rename_i stint
    split at h
    · simp at h
    · rename_i barrier hbarrier
      split at h
      · rename_i hsucceeds
        obtain rfl := Option.some.inj h
        refine ⟨.inr rfl, ?_⟩
        intro k other haction
        obtain ⟨-, hstint⟩ := LeaderAction.loop.inj haction
        obtain rfl := LoopAction.barrierOk.inj hstint
        exact ⟨barrier, hbarrier, hsucceeds⟩
      · simp at h
  · obtain rfl := Option.some.inj h
    exact ⟨.inr rfl, by simp⟩
  · obtain rfl := Option.some.inj h
    exact ⟨.inr rfl, by simp⟩
  · rename_i hother _ _
    obtain rfl := Option.some.inj h
    exact ⟨.inl rfl, fun k stint haction => absurd haction (hother k stint)⟩

/-- Nothing that was committed, elected, applied or acknowledged is taken back. -/
theorem ClusterStep.later (hstep : ClusterStep json s action s') : s.Later s' := by
  cases hstep with
  | gain i =>
    refine { Cluster.Later.refl s with
      stint := Nat.le_succ _
      leaderOf := ?_
      base := ?_
      applied := (s.later_update i ((s.servers i).become true) (Nat.le_refl _)).applied }
    · intro u hu
      exact Function.update_of_ne (by omega) _ _
    · intro u hu
      exact Function.update_of_ne (by omega) _ _
  | stepDown i =>
    exact { Cluster.Later.refl s with
      applied := (s.later_update i ((s.servers i).become false) (Nat.le_refl _)).applied }
  | quorum confirmed => exact { Cluster.Later.refl s with }
  | commit data _ => exact { Cluster.Later.refl s with committed := List.prefix_append _ _ }
  | apply hentry => exact s.later_update _ _ (Nat.le_succ _)
  | commitBarrier _ => exact s.later_update _ _ (Nat.le_refl _)
  | acknowledge _ _ _ =>
    exact { Cluster.Later.refl s with acked := fun p hp => List.mem_cons_of_mem _ hp }
  | lead hanswer _ =>
    apply s.later_update
    rcases (Server.answer_spec hanswer).1 with rfl | rfl
    · exact Nat.le_refl _
    · exact Nat.le_refl _
  | issue i key =>
    refine { Cluster.Later.refl s with calls := ?_ }
    intro k call hcall
    have hk : k < s.calls.length := (List.getElem?_eq_some_iff.mp hcall).1
    exact ⟨call, by rw [List.getElem?_append_left hk, hcall], rfl, rfl⟩
  | forward target hmoved =>
    refine { Cluster.Later.refl s with calls := ?_ }
    intro k call hcall
    obtain ⟨call', hcall', hsame⟩ :=
      Cluster.calls_set hmoved (.forwarded s.calls.length) hcall
    have hk := (List.getElem?_eq_some_iff.mp hcall').1
    exact ⟨call', by rw [List.getElem?_append_left hk, hcall'], hsame⟩
  | get hmoved _ =>
    exact { Cluster.Later.refl s with calls := fun k call hcall => Cluster.calls_set hmoved _ hcall }

end Later

/-! ### The state machine of a server -/

/-- The state machine holds what the server's store holds. -/
structure Server.Runs (cwd : Loc) (r : StateMachine) (fs : FS KV) (server : Server) : Prop where
  opened : r.store.closed = false
  serving : ∃ name, Serving cwd r.store fs name server.content

theorem Server.Runs.readLocal {cwd : Loc} {r : StateMachine} {fs : FS KV} {server : Server}
    (h : Server.Runs cwd r fs server) (key : Bytes) : r.readLocal fs key = ⟨server.read key, none⟩ := by
  obtain ⟨name, hserving⟩ := h.serving
  exact r.readLocal_eq h.opened hserving.lookup key

/-- `Apply` is what the step `apply` does to the store. -/
theorem Server.Runs.apply {json : Json} {cwd : Loc} {r : StateMachine} {fs : FS KV}
    {server : Server} (h : Server.Runs cwd r fs server) (index : UInt64) (data : Bytes) :
    ∃ resp r' fs', r.apply json index data (.fair cwd) fs = (.value (resp, r'), fs') ∧
      Server.Runs cwd r' fs' { server with
        applied := server.applied + 1
        content := appliedContent json data server.content } := by
  obtain ⟨name, hserving⟩ := h.serving
  obtain ⟨resp, fs', hrun, hserving'⟩ := apply_fair index data h.opened hserving
  exact ⟨resp, _, fs', hrun, h.opened, name, hserving'⟩

end RaftExample
