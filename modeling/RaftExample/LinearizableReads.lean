import RaftExample.ConsistentReads

/-!
# Linearizable reads

A consistent read verifies its server's leadership, waits for the flag and reads the
local store.  The flag says that some Barrier has succeeded, not when: it is reset by the
`leaderLoop` that set it, after the monitor has taken the loss of the leadership from
`raftNotifyCh`.  A read is current if the Barrier behind the flag belongs to the stint
in which the leadership was verified, or to a later one.
-/

namespace RaftExample

open Interleaving

/-! ### The invariant -/

section Invariant

variable {ι : Type}

/-- The entries of the committed log. -/
def Cluster.log (s : Cluster ι) : List Bytes := s.committed.map CommittedEntry.data

/-- The value is that of a state that includes the entries at these positions. -/
def Cluster.Includes (json : Json) (s : Cluster ι) (key : Bytes) (positions : List Nat)
    (value : Bytes) : Prop :=
  ∃ n ≤ s.log.length, value = valueAt json key s.log n ∧ ∀ p ∈ positions, p < n

/-- The entry is committed, and the server that acknowledges it has applied it. -/
def Cluster.Acked (s : Cluster ι) (p : Nat) : Prop :=
  ∃ entry i, s.committed[p]? = some entry ∧ entry.stint ≤ s.stint ∧
    s.leaderOf entry.stint = some i ∧ p < (s.servers i).applied

/-- The server has applied all that was committed before the stint. -/
def Cluster.CaughtUp (s : Cluster ι) (i : ι) (stint : Nat) : Prop :=
  stint ≤ s.stint ∧ s.base stint ≤ (s.servers i).applied

/-- The Barrier is behind all that was committed before its stint. -/
def Cluster.Behind (s : Cluster ι) (barrier : CommittedBarrier) : Prop :=
  barrier.stint ≤ s.stint ∧ s.base barrier.stint ≤ barrier.preceding

/-- What a call can rely on at each of its places. -/
def Cluster.Relies (json : Json) (s : Cluster ι) (call : GetCall ι) : Prop :=
  match call.pc with
  | .forwarded inner => ∃ other, s.calls[inner]? = some other ∧ other.key = call.key ∧
      ∀ p ∈ call.ackedBefore, p ∈ other.ackedBefore
  | .polling stint => stint ≤ s.stint ∧ s.leaderOf stint = some call.server ∧
      ∀ p ∈ call.ackedBefore, ∃ entry, s.committed[p]? = some entry ∧ entry.stint ≤ stint
  | .reading => ∀ p ∈ call.ackedBefore, p < (s.servers call.server).applied
  | .returned value => s.Includes json call.key call.ackedBefore value
  | _ => True

/-- The log: what is applied, what the stores hold, and how the stints divide it. -/
structure Cluster.LogOk (json : Json) (s : Cluster ι) : Prop where
  applied : ∀ i, (s.servers i).applied ≤ s.log.length
  content : ∀ i, (s.servers i).content = replay json (s.log.take (s.servers i).applied)
  stints : ∀ (p : Nat) (entry : CommittedEntry), s.committed[p]? = some entry → entry.stint ≤ s.stint
  before : ∀ (p : Nat) (entry : CommittedEntry), s.committed[p]? = some entry →
    ∀ u, entry.stint < u → u ≤ s.stint → p < s.base u
  bases : ∀ u ≤ s.stint, s.base u ≤ s.committed.length
  ascending : ∀ u u', u ≤ u' → u' ≤ s.stint → s.base u ≤ s.base u'

structure Cluster.Ok (json : Json) (s : Cluster ι) : Prop where
  log : s.LogOk json
  acked : ∀ p ∈ s.acked, s.Acked p
  barriers : ∀ i barrier, (s.servers i).barrier = some barrier → s.Behind barrier
  backed : ∀ i, (s.servers i).control.Backed (s.CaughtUp i)
  issued : ∀ call ∈ s.calls, ∀ p ∈ call.ackedBefore, p ∈ s.acked
  calls : ∀ call ∈ s.calls, s.Relies json call

variable {json : Json} {s s' : Cluster ι}

theorem Cluster.Later.log (h : s.Later s') : ∃ rest, s'.log = s.log ++ rest := by
  obtain ⟨rest, hrest⟩ := h.committed
  exact ⟨rest.map CommittedEntry.data, by rw [Cluster.log, ← hrest, List.map_append]; rfl⟩

theorem Cluster.Includes.later {key : Bytes} {positions : List Nat} {value : Bytes}
    (hvalue : s.Includes json key positions value) (h : s.Later s') :
    s'.Includes json key positions value := by
  obtain ⟨n, hn, hat, hpositions⟩ := hvalue
  obtain ⟨rest, hrest⟩ := h.log
  refine ⟨n, ?_, ?_, hpositions⟩
  · rw [hrest, List.length_append]
    omega
  · rw [hrest, valueAt_append rest hn, hat]

theorem Cluster.Acked.later {p : Nat} (hacked : s.Acked p) (h : s.Later s') : s'.Acked p := by
  obtain ⟨entry, i, hentry, hstint, hleader, happlied⟩ := hacked
  refine ⟨entry, i, h.entry hentry, Nat.le_trans hstint h.stint, ?_, ?_⟩
  · rw [h.leaderOf _ hstint, hleader]
  · exact Nat.lt_of_lt_of_le happlied (h.applied i)

theorem Cluster.CaughtUp.later {i : ι} {stint : Nat} (hcaught : s.CaughtUp i stint)
    (h : s.Later s') : s'.CaughtUp i stint := by
  refine ⟨Nat.le_trans hcaught.1 h.stint, ?_⟩
  rw [h.base _ hcaught.1]
  exact Nat.le_trans hcaught.2 (h.applied i)

theorem Cluster.Behind.later {barrier : CommittedBarrier} (hbehind : s.Behind barrier)
    (h : s.Later s') : s'.Behind barrier := by
  refine ⟨Nat.le_trans hbehind.1 h.stint, ?_⟩
  rw [h.base _ hbehind.1]
  exact hbehind.2

theorem Cluster.Relies.later {call : GetCall ι} (hrelies : s.Relies json call) (h : s.Later s') :
    s'.Relies json call := by
  unfold Cluster.Relies at hrelies ⊢
  split
  · rename_i inner hpc
    simp only [hpc] at hrelies
    obtain ⟨other, hother, hkey, hbefore⟩ := hrelies
    obtain ⟨other', hother', hkey', hbefore'⟩ := h.calls inner other hother
    exact ⟨other', hother', hkey'.trans hkey, fun p hp => hbefore' ▸ hbefore p hp⟩
  · rename_i stint hpc
    simp only [hpc] at hrelies
    obtain ⟨hstint, hleader, hbefore⟩ := hrelies
    refine ⟨Nat.le_trans hstint h.stint, by rw [h.leaderOf _ hstint, hleader], ?_⟩
    intro p hp
    obtain ⟨entry, hentry, hle⟩ := hbefore p hp
    exact ⟨entry, h.entry hentry, hle⟩
  · rename_i hpc
    simp only [hpc] at hrelies
    intro p hp
    exact Nat.lt_of_lt_of_le (hrelies p hp) (h.applied _)
  · rename_i value hpc
    simp only [hpc] at hrelies
    exact hrelies.later h
  · trivial

/-- A step that leaves the log, the stints and the stores alone. -/
theorem Cluster.LogOk.of_same (h : s.LogOk json) (hcommitted : s'.committed = s.committed)
    (hstint : s'.stint = s.stint) (hbase : s'.base = s.base)
    (hservers : ∀ i, (s'.servers i).applied = (s.servers i).applied ∧
      (s'.servers i).content = (s.servers i).content) : s'.LogOk json := by
  have hlog : s'.log = s.log := by rw [Cluster.log, hcommitted, Cluster.log]
  constructor
  · intro i
    rw [hlog, (hservers i).1]
    exact h.applied i
  · intro i
    rw [hlog, (hservers i).1, (hservers i).2]
    exact h.content i
  · rw [hcommitted, hstint]
    exact h.stints
  · rw [hcommitted, hstint, hbase]
    exact h.before
  · rw [hcommitted, hstint, hbase]
    exact h.bases
  · rw [hstint, hbase]
    exact h.ascending

/-- An entry of a log that has just grown is an old one, or belongs to the latest stint. -/
theorem Cluster.append_entry {data : Bytes} {p : Nat} {entry : CommittedEntry}
    (hentry : (s.append data).committed[p]? = some entry) :
    s.committed[p]? = some entry ∨ entry.stint = s.stint := by
  rcases Interleaving.getElem?_concat_cases hentry with hold | ⟨-, rfl⟩
  · exact .inl hold
  · exact .inr rfl

theorem Cluster.LogOk.append (h : s.LogOk json) (data : Bytes) : (s.append data).LogOk json := by
  have hlog : (s.append data).log = s.log ++ [data] := List.map_append
  constructor
  · intro i
    rw [hlog, List.length_append]
    exact Nat.le_add_right_of_le (h.applied i)
  · intro i
    rw [hlog]
    exact (h.content i).trans (by rw [← List.take_append_of_le_length (h.applied i)]; rfl)
  · intro p entry hentry
    rcases Cluster.append_entry hentry with hold | hnew
    · exact h.stints p entry hold
    · exact Nat.le_of_eq hnew
  · intro p entry hentry u hu hle
    rcases Cluster.append_entry hentry with hold | hnew
    · exact h.before p entry hold u hu hle
    · exact absurd hle (Nat.not_le_of_lt (hnew ▸ hu))
  · intro u hle
    have hlength : (s.append data).committed.length = s.committed.length + 1 := by
      simp [Cluster.append]
    rw [hlength]
    exact Nat.le_succ_of_le (h.bases u hle)
  · exact h.ascending

theorem Cluster.Initial.ok (h : s.Initial) : s.Ok json := by
  subst h
  exact {
    log := {
      applied := fun _ => Nat.le_refl 0
      content := fun _ => rfl
      stints := by simp [Cluster.new]
      before := by simp [Cluster.new]
      bases := fun _ _ => Nat.le_refl 0
      ascending := fun _ _ _ _ => Nat.le_refl 0 }
    acked := by simp [Cluster.new]
    barriers := by simp [Cluster.new, Server.new]
    backed := fun _ => LeaderNode.backed_new _
    issued := by simp [Cluster.new]
    calls := by simp [Cluster.new] }

/-! ### The schedules with current reads -/

/-- A call that finds the flag set finds it set after a Barrier of the stint in which the
    call verified the leadership, or of a later one. -/
def Cluster.barrierCurrent (s : Cluster ι) : ClusterAction ι → Bool
  | .get k .check =>
      match s.calls[k]? with
      | none => true
      | some call =>
        match call.pc with
        | .polling stint =>
            let flag := (s.servers call.server).control.readyForConsistentReads
            !flag.ready || decide (stint ≤ flag.stint)
        | _ => true
  | _ => true

/-- A read that passes a current flag is on a server that has applied everything
    acknowledged before the call. -/
theorem Cluster.Ok.pass (h : s.Ok json) {k : Nat} {call : GetCall ι} {stint : Nat}
    (hcall : s.calls[k]? = some call) (hpc : call.pc = .polling stint)
    (hready : (s.servers call.server).control.readyForConsistentReads.ready = true)
    (hcurrent : stint ≤ (s.servers call.server).control.readyForConsistentReads.stint) :
    ∀ p ∈ call.ackedBefore, p < (s.servers call.server).applied := by
  intro p hp
  have hmem : call ∈ s.calls := List.mem_of_getElem? hcall
  have hrelies := h.calls call hmem
  rw [Cluster.Relies, hpc] at hrelies
  obtain ⟨-, hleader, hbefore⟩ := hrelies
  obtain ⟨entry, hentry, hstint⟩ := hbefore p hp
  rcases Nat.eq_or_lt_of_le hstint with hsame | hearlier
  · -- acknowledged in the stint of the read, so by the server that reads
    obtain ⟨entry', i, hentry', -, hleader', happlied⟩ := h.acked p (h.issued call hmem p hp)
    obtain rfl := Option.some.inj (hentry.symm.trans hentry')
    rw [hsame, hleader] at hleader'
    obtain rfl := Option.some.inj hleader'
    exact happlied
  · -- committed before the stint of the Barrier
    obtain ⟨hle, hbase⟩ := (h.backed call.server).flag hready
    have hp := h.log.before p entry hentry _ (Nat.lt_of_lt_of_le hearlier hcurrent) hle
    exact Nat.lt_of_lt_of_le hp hbase

/-- One step of a call. -/
theorem GetStep.relies {k : Nat} {call : GetCall ι} {action : GetAction} {pc : GetPC}
    (hget : GetStep s call action pc) (h : s.Ok json) (hcall : s.calls[k]? = some call)
    (hcurrent : s.barrierCurrent (.get k action) = true) :
    s.Relies json { call with pc := pc } := by
  have hmem : call ∈ s.calls := List.mem_of_getElem? hcall
  have hrelies := h.calls call hmem
  cases hget with
  | serve _ => trivial
  | reply hpc hother hvalue =>
    rw [Cluster.Relies, hpc] at hrelies
    obtain ⟨other, hother', hkey, hbefore⟩ := hrelies
    obtain rfl := Option.some.inj (hother.symm.trans hother')
    have hinner := h.calls _ (List.mem_of_getElem? hother)
    rw [Cluster.Relies, hvalue] at hinner
    obtain ⟨n, hn, hat, hpositions⟩ := hinner
    exact ⟨n, hn, hkey ▸ hat, fun p hp => hpositions p (hbefore p hp)⟩
  | verify _ hholds =>
    refine ⟨Nat.le_refl _, hholds.2, ?_⟩
    intro p hp
    obtain ⟨entry, -, hentry, hstint, -⟩ := h.acked p (h.issued call hmem p hp)
    exact ⟨entry, hentry, hstint⟩
  | pass hpc hready =>
    apply h.pass hcall hpc hready
    simpa [Cluster.barrierCurrent, hcall, hpc, hready] using hcurrent
  | again hpc =>
    rw [Cluster.Relies, hpc] at hrelies
    exact hrelies
  | read hpc =>
    rw [Cluster.Relies, hpc] at hrelies
    refine ⟨_, h.log.applied call.server, ?_, hrelies⟩
    rw [Server.read, h.log.content call.server, lookup_replay_take]
  | fails => trivial

/-! ### Steps keep the invariant -/

variable [DecidableEq ι] {action : ClusterAction ι}

/-- Replacing a server by one with the same store. -/
theorem Cluster.same_update (s : Cluster ι) (i : ι) (server : Server)
    (happlied : server.applied = (s.servers i).applied)
    (hcontent : server.content = (s.servers i).content) (j : ι) :
    (Function.update s.servers i server j).applied = (s.servers j).applied ∧
      (Function.update s.servers i server j).content = (s.servers j).content := by
  by_cases hj : j = i
  · subst hj
    simp [happlied, hcontent]
  · simp [hj]

/-- A new stint begins behind everything that is committed. -/
theorem Cluster.LogOk.elect (h : s.LogOk json) (i : ι) : (s.elect i).LogOk json := by
  have hsame := s.same_update i ((s.servers i).become true) rfl rfl
  have hnew : (s.elect i).base (s.stint + 1) = s.committed.length :=
    Function.update_self ..
  have hold : ∀ u ≤ s.stint, (s.elect i).base u = s.base u :=
    (show ClusterStep json s (.gain i) (s.elect i) from .gain i).later.base
  constructor
  · intro j
    rw [show ((s.elect i).servers j).applied = (s.servers j).applied from (hsame j).1]
    exact h.applied j
  · intro j
    rw [show ((s.elect i).servers j).applied = (s.servers j).applied from (hsame j).1]
    exact (hsame j).2.trans (h.content j)
  · intro p entry hentry
    exact Nat.le_succ_of_le (h.stints p entry hentry)
  · intro p entry hentry u hu hle
    rcases Nat.le_or_eq_of_le_succ hle with hu' | rfl
    · rw [hold u hu']
      exact h.before p entry hentry u hu hu'
    · rw [hnew]
      exact (List.getElem?_eq_some_iff.mp hentry).1
  · intro u hle
    rcases Nat.le_or_eq_of_le_succ hle with hu' | rfl
    · rw [hold u hu']
      exact h.bases u hu'
    · exact Nat.le_of_eq hnew
  · intro u u' huu' hle
    rcases Nat.le_or_eq_of_le_succ hle with hu' | rfl
    · rw [hold u' hu', hold u (Nat.le_trans huu' hu')]
      exact h.ascending u u' huu' hu'
    · rw [hnew]
      rcases Nat.le_or_eq_of_le_succ huu' with hu | rfl
      · rw [hold u hu]
        exact h.bases u hu
      · exact Nat.le_of_eq hnew

theorem Cluster.LogOk.apply (h : s.LogOk json) {i : ι} {entry : CommittedEntry}
    (hentry : s.committed[(s.servers i).applied]? = some entry) :
    (s.update i { s.servers i with
      applied := (s.servers i).applied + 1
      content := appliedContent json entry.data (s.servers i).content }).LogOk json := by
  have hnext : s.log[(s.servers i).applied]? = some entry.data := by
    rw [Cluster.log, List.getElem?_map, hentry]
    rfl
  refine { h with applied := ?_, content := ?_ }
  · refine (Function.forall_update_iff _ (p := fun _ (server : Server) => server.applied ≤ s.log.length)).mpr
      ⟨?_, fun j _ => h.applied j⟩
    exact (List.getElem?_eq_some_iff.mp hnext).1
  · refine (Function.forall_update_iff _ (p := fun _ (server : Server) =>
      server.content = replay json (s.log.take server.applied))).mpr ⟨?_, fun j _ => h.content j⟩
    rw [replay_take_succ json hnext, ← h.content i]

theorem ClusterStep.logOk (hstep : ClusterStep json s action s') (h : s.LogOk json) :
    s'.LogOk json := by
  cases hstep with
  | gain i => exact h.elect i
  | stepDown i =>
    exact h.of_same rfl rfl rfl (s.same_update i ((s.servers i).become false) rfl rfl)
  | quorum confirmed => exact { h with }
  | commit data _ => exact h.append data
  | apply hentry => exact h.apply hentry
  | commitBarrier _ => exact h.of_same rfl rfl rfl (s.same_update _ _ rfl rfl)
  | acknowledge _ _ _ => exact { h with }
  | lead hanswer _ =>
    rcases (Server.answer_spec hanswer).1 with rfl | rfl
    · exact h.of_same rfl rfl rfl (s.same_update _ _ rfl rfl)
    · exact h.of_same rfl rfl rfl (s.same_update _ _ rfl rfl)
  | issue i key => exact { h with }
  | forward target _ => exact { h with }
  | get _ _ => exact { h with }

theorem ClusterStep.acked (hstep : ClusterStep json s action s') (h : s.Ok json) :
    ∀ p ∈ s'.acked, s'.Acked p := by
  have hlater := hstep.later
  have hold : ∀ p ∈ s.acked, s'.Acked p := fun p hp => (h.acked p hp).later hlater
  cases hstep with
  | acknowledge hentry hleader happlied =>
    intro p hp
    rcases List.mem_cons.mp hp with rfl | hp
    · exact ⟨_, _, hentry, h.log.stints _ _ hentry, hleader, happlied⟩
    · exact hold p hp
  | _ => exact hold

/-- A property of all servers after one was replaced. -/
theorem Cluster.forall_servers (s' : Cluster ι) (P : ι → Server → Prop)
    (hold : ∀ j, P j (s.servers j)) (i : ι) (server : Server)
    (hservers : s'.servers = Function.update s.servers i server) (hserver : P i server) :
    ∀ j, P j (s'.servers j) := by
  rw [hservers]
  exact (Function.forall_update_iff s.servers P).mpr ⟨hserver, fun j _ => hold j⟩

theorem ClusterStep.barriers (hstep : ClusterStep json s action s') (h : s.Ok json) :
    ∀ i barrier, (s'.servers i).barrier = some barrier → s'.Behind barrier := by
  have hlater := hstep.later
  have hold : ∀ i barrier, (s.servers i).barrier = some barrier → s'.Behind barrier :=
    fun i barrier hbarrier => (h.barriers i barrier hbarrier).later hlater
  have hone := Cluster.forall_servers s'
    (fun _ (server : Server) => ∀ barrier, server.barrier = some barrier → s'.Behind barrier) hold
  cases hstep with
  | gain i => exact hone i _ rfl (hold i)
  | stepDown i => exact hone i _ rfl (hold i)
  | apply _ => exact hone _ _ rfl (hold _)
  | commitBarrier _ =>
    apply hone _ _ rfl
    intro barrier hbarrier
    obtain rfl := Option.some.inj hbarrier
    exact ⟨Nat.le_refl _, h.log.bases _ (Nat.le_refl _)⟩
  | lead hanswer _ =>
    apply hone _ _ rfl
    rcases (Server.answer_spec hanswer).1 with rfl | rfl
    · exact hold _
    · intro barrier hbarrier
      simp at hbarrier
  | _ => exact hold

theorem ClusterStep.backed (hstep : ClusterStep json s action s') (h : s.Ok json) :
    ∀ i, (s'.servers i).control.Backed (s'.CaughtUp i) := by
  have hlater := hstep.later
  have hold : ∀ i, (s.servers i).control.Backed (s'.CaughtUp i) :=
    fun i => (h.backed i).mono fun stint hcaught => hcaught.later hlater
  have hone := Cluster.forall_servers s'
    (fun j (server : Server) => server.control.Backed (s'.CaughtUp j)) hold
  cases hstep with
  | gain i => exact hone i _ rfl ⟨(hold i).loops, (hold i).flag⟩
  | stepDown i => exact hone i _ rfl ⟨(hold i).loops, (hold i).flag⟩
  | apply _ => exact hone _ _ rfl (hold _)
  | commitBarrier _ => exact hone _ _ rfl (hold _)
  | @lead i action server control hanswer hcontrol =>
    obtain ⟨hserver, hbarrier⟩ := Server.answer_spec hanswer
    have hsame : server.control = (s.servers i).control := by
      rcases hserver with rfl | rfl
      · rfl
      · rfl
    apply hone _ _ rfl
    apply hcontrol.backed (hsame ▸ hold i)
    -- a Barrier that succeeds is applied here, with all that was committed before its stint
    intro k stint haction
    obtain ⟨barrier, hcommitted, rfl, hpreceding⟩ := hbarrier k stint haction
    obtain ⟨hstint, hbase⟩ := h.barriers i barrier hcommitted
    exact Cluster.CaughtUp.later ⟨hstint, Nat.le_trans hbase hpreceding⟩ hlater
  | _ => exact hold

theorem ClusterStep.issued (hstep : ClusterStep json s action s') (h : s.Ok json) :
    ∀ call ∈ s'.calls, ∀ p ∈ call.ackedBefore, p ∈ s'.acked := by
  have hlater := hstep.later
  have hold : ∀ call ∈ s.calls, ∀ p ∈ call.ackedBefore, p ∈ s'.acked :=
    fun call hcall p hp => hlater.acked p (h.issued call hcall p hp)
  cases hstep with
  | issue i key =>
    intro call hcall
    rcases List.mem_append.mp hcall with hcall | hcall
    · exact hold call hcall
    · obtain rfl := List.mem_singleton.mp hcall
      exact fun p hp => hp
  | forward target hmoved =>
    intro call hcall
    rcases List.mem_append.mp hcall with hcall | hcall
    · rcases List.mem_or_eq_of_mem_set hcall with hcall | rfl
      · exact hold call hcall
      · exact fun p hp => hold _ (List.mem_of_getElem? hmoved) p hp
    · obtain rfl := List.mem_singleton.mp hcall
      exact fun p hp => hp
  | get hmoved _ =>
    intro call hcall
    rcases List.mem_or_eq_of_mem_set hcall with hcall | rfl
    · exact hold call hcall
    · exact fun p hp => hold _ (List.mem_of_getElem? hmoved) p hp
  | _ => exact hold

theorem ClusterStep.relies (hstep : ClusterStep json s action s') (h : s.Ok json)
    (hcurrent : s.barrierCurrent action = true) : ∀ call ∈ s'.calls, s'.Relies json call := by
  have hlater := hstep.later
  have hold : ∀ call ∈ s.calls, s'.Relies json call :=
    fun call hcall => (h.calls call hcall).later hlater
  cases hstep with
  | issue i key =>
    intro call hcall
    rcases List.mem_append.mp hcall with hcall | hcall
    · exact hold call hcall
    · obtain rfl := List.mem_singleton.mp hcall
      trivial
  | @forward k moved target hmoved =>
    intro call hcall
    rcases List.mem_append.mp hcall with hcall | hcall
    · rcases List.mem_or_eq_of_mem_set hcall with hcall | rfl
      · exact hold call hcall
      · -- the call on the other server was issued later
        refine ⟨⟨target, moved.key, s.acked, .issued⟩, ?_, rfl, ?_⟩
        · simp
        · exact h.issued moved (List.mem_of_getElem? hmoved)
    · obtain rfl := List.mem_singleton.mp hcall
      trivial
  | get hmoved hget =>
    intro call hcall
    rcases List.mem_or_eq_of_mem_set hcall with hcall | rfl
    · exact hold call hcall
    · exact (hget.relies h hmoved hcurrent).later hlater
  | _ => exact hold

theorem ClusterStep.ok (hstep : ClusterStep json s action s') (h : s.Ok json)
    (hcurrent : s.barrierCurrent action = true) : s'.Ok json where
  log := hstep.logOk h.log
  acked := hstep.acked h
  barriers := hstep.barriers h
  backed := hstep.backed h
  issued := hstep.issued h
  calls := hstep.relies h hcurrent

end Invariant

/-- Whenever a `Get` with `Linearizable` has returned a value, it is the value of the key
    in a state that includes every entry whose `Add` was acknowledged before the call was
    issued. -/
theorem linearizable_reads_current {ι : Type} [DecidableEq ι] {json : Json} {s : Cluster ι}
    (hreached : Reached (Cluster.step json)
      (fun s action => s.barrierCurrent action = true) Cluster.Initial s)
    {call : GetCall ι} (hcall : call ∈ s.calls) {value : Bytes}
    (hreturned : call.pc = .returned value) :
    ∃ n ≤ s.log.length, value = valueAt json call.key s.log n ∧ ∀ p ∈ call.ackedBefore, p < n := by
  have hok : s.Ok json := by
    apply hreached.invariant
    · intro s hinit
      exact hinit.ok
    · intro s action s' h hcurrent hstep
      exact (Cluster.step_spec hstep).ok h hcurrent
  have hrelies := hok.calls call hcall
  rw [Cluster.Relies, hreturned] at hrelies
  exact hrelies

/-! ### Schedules -/

/-- The first server is elected, and its `leaderLoop` sets the flag. -/
def firstStint : List (ClusterAction (Fin 2)) :=
  [.gain 0, .lead 0 .receive, .commitBarrier 0, .lead 0 (.loop 0 (.barrierOk 1)),
    .lead 0 (.loop 0 .checkCtx), .lead 0 (.loop 0 .setConsistentReadReady)]

/-- An entry is committed by this server and acknowledged. -/
def addOn (i : Fin 2) : List (ClusterAction (Fin 2)) :=
  [.commit soloEntry, .apply i, .acknowledge 0]

/-- A call on the first server, up to its return. -/
def getOnFirst : List (ClusterAction (Fin 2)) :=
  [.issue 0 [107], .get 0 .serve, .get 0 .verify, .get 0 .check, .get 0 .read]

/-- A read in the stint of its Barrier. -/
theorem linearizable_reads_first_stint :
    ∃ s, run (Cluster.step goJson) (fun s action => s.barrierCurrent action = true)
        (firstStint ++ addOn 0 ++ getOnFirst) .new = some s ∧
      ∃ call ∈ s.calls, call.pc = .returned [118] ∧ call.ackedBefore = [0] ∧
        ∃ n ≤ s.log.length, [118] = valueAt goJson call.key s.log n ∧
          ∀ p ∈ call.ackedBefore, p < n := by
  obtain ⟨s, hrun, call, hcall, hreturned, hbefore⟩ : ∃ s, run (Cluster.step goJson)
      (fun s action => s.barrierCurrent action = true)
        (firstStint ++ addOn 0 ++ getOnFirst) .new = some s ∧
      ∃ call, s.calls[0]? = some call ∧ call.pc = .returned [118] ∧ call.ackedBefore = [0] :=
    ⟨_, rfl, _, rfl, by decide +kernel, rfl⟩
  have hmem : call ∈ s.calls := List.mem_of_getElem? hcall
  exact ⟨s, hrun, call, hmem, hreturned, hbefore,
    linearizable_reads_current (reached_run (.start rfl) hrun) hmem hreturned⟩

/-- The first server loses its leadership and gains it back before its monitor has taken
    the loss from `raftNotifyCh`.  The entry the other server has acknowledged in between
    is not in the value that is read. -/
theorem linearizable_read_stale :
    ∃ s, Reached (Cluster.step (ι := Fin 2) goJson) (fun _ _ => True) Cluster.Initial s ∧
      ∃ call ∈ s.calls, call.pc = .returned [] ∧ call.ackedBefore = [0] ∧
        ¬ ∃ n ≤ s.log.length, [] = valueAt goJson call.key s.log n ∧
          ∀ p ∈ call.ackedBefore, p < n := by
  obtain ⟨s, hrun, call, hcall, hreturned, hbefore, hkey, hlog⟩ : ∃ s,
      run (Cluster.step goJson) (fun _ _ => True)
        (firstStint ++ [.stepDown 0, .gain 1] ++ addOn 1 ++ [.stepDown 1, .gain 0] ++ getOnFirst)
        .new = some s ∧
      ∃ call, s.calls[0]? = some call ∧ call.pc = .returned [] ∧ call.ackedBefore = [0] ∧
        call.key = [107] ∧ s.log = [soloEntry] :=
    ⟨_, rfl, _, rfl, by decide +kernel, rfl, rfl, rfl⟩
  refine ⟨s, reached_run (.start rfl) hrun, call, List.mem_of_getElem? hcall, hreturned, hbefore,
    ?_⟩
  rw [hbefore, hkey, hlog]
  intro hincludes
  obtain ⟨n, hn, hvalue, hpositions⟩ := hincludes
  have hpos := hpositions 0 List.mem_cons_self
  obtain rfl : n = 1 := by
    simp only [List.length_singleton] at hn
    omega
  exact absurd hvalue (by decide)

end RaftExample
