import RaftExample.CrashConsistency
import RaftExample.Overwrites

/-!
# The replicated state machine

A cluster of hosts is fed one committed log.  A host may be killed anywhere; its store
survives, and raft then restores one of its snapshots, or none if there is none, and
replays the log from there.  Snapshots are taken at any moment, persisted later, and
restored by any host.  A store thus holds a mixture of old and future values, but each
key has the value from some moment of the log, and a host that has caught up with
everything its store ever saw holds exactly the log.
-/

namespace RaftExample

open Overwrites

/-! ### The log -/

/-- The value an entry writes to a key. -/
def writesOf (json : Json) (data key : Bytes) : Option Bytes :=
  match json.unmarshalCommand data with
  | none => none
  | some command =>
    if command.type = cmdInsert then
      match json.unmarshalPayload command.payload with
      | none => none
      | some payload =>
        if buildColumnFamilyKey cfDefault payload.key = key then some payload.value else none
    else none

/-- The log applied once to an empty store. -/
def replay (json : Json) (log : List Bytes) : KV :=
  log.foldl (fun content data => appliedContent json data content) ∅

theorem lookup_appliedContent (json : Json) (data key : Bytes) (content : KV) :
    (appliedContent json data content)[key]? = (writesOf json data key).or content[key]? := by
  unfold appliedContent writesOf
  cases json.unmarshalCommand data with
  | none => simp
  | some command =>
    simp only
    by_cases hinsert : command.type = cmdInsert
    · rw [if_pos hinsert, if_pos hinsert]
      cases json.unmarshalPayload command.payload with
      | none => simp
      | some payload =>
        simp only [insertContent, Std.ExtTreeMap.getElem?_insert, Std.compare_eq_iff_eq]
        by_cases hkey : buildColumnFamilyKey cfDefault payload.key = key
        · simp [hkey]
        · simp [hkey]
    · rw [if_neg hinsert, if_neg hinsert]
      simp

theorem lookup_replay (json : Json) (log : List Bytes) (key : Bytes) :
    (replay json log)[key]? = valueAfter (writesOf json) log key := by
  induction log using List.reverseRecOn with
  | nil => exact Std.ExtTreeMap.getElem?_empty
  | append_singleton log data ih =>
    rw [valueAfter_concat, ← ih, ← lookup_appliedContent]
    simp [replay]

theorem replay_take_succ (json : Json) {log : List Bytes} {n : Nat} {data : Bytes}
    (h : log[n]? = some data) :
    replay json (log.take (n + 1)) = appliedContent json data (replay json (log.take n)) := by
  rw [List.take_add_one, h]
  simp [replay]

/-- The value a read finds after the first `n` entries. -/
def valueAt (json : Json) (key : Bytes) (log : List Bytes) (n : Nat) : Bytes :=
  (valueAfter (writesOf json) (log.take n) (buildColumnFamilyKey cfDefault key)).getD []

theorem lookup_replay_take (json : Json) (key : Bytes) (log : List Bytes) (n : Nat) :
    (replay json (log.take n))[buildColumnFamilyKey cfDefault key]?.getD [] =
      valueAt json key log n := by
  rw [lookup_replay, valueAt]

theorem valueAt_append {json : Json} {key : Bytes} {log : List Bytes} (later : List Bytes) {n : Nat}
    (hn : n ≤ log.length) : valueAt json key (log ++ later) n = valueAt json key log n := by
  rw [valueAt, List.take_append_of_le_length hn, valueAt]

/-- Every key of the content has its value from some moment between two positions. -/
def Mixed (json : Json) (log : List Bytes) (low high : Nat) (content : KV) : Prop :=
  Between (writesOf json) log low high fun key => content[key]?

section Mixed

variable {json : Json} {log : List Bytes} {low high : Nat} {content : KV} {data : Bytes}

theorem mixed_empty (json : Json) (log : List Bytes) : Mixed json log 0 0 ∅ := by
  intro key
  refine ⟨0, Nat.le_refl 0, Nat.le_refl 0, ?_⟩
  exact Std.ExtTreeMap.getElem?_empty

theorem Mixed.apply (h : Mixed json log low high content) (hdata : log[low]? = some data) :
    Mixed json log (low + 1) (max high (low + 1)) (appliedContent json data content) :=
  Between.step h hdata fun key => lookup_appliedContent json data key content

theorem Mixed.eq_replay {n : Nat} (h : Mixed json log low high content) (hlow : n ≤ low)
    (hhigh : high ≤ n) : content = replay json (log.take n) := by
  apply Std.ExtTreeMap.ext_getElem?
  intro key
  rw [lookup_replay]
  exact Between.exact h hlow hhigh key

end Mixed

/-! ### The members of a cluster -/

/-- A snapshot in a snapshot store: its bytes, the position of the log at which it was
    captured, and the highest position whose effect its store had ever held by then. -/
structure StoredSnapshot where
  data : Bytes
  position : Nat
  highest : Nat

/-- What `Snapshot` returned and `Persist` has not written yet. -/
structure PendingSnapshot where
  captured : StateMachine.Captured
  position : Nat
  highest : Nat

/-- Where a member lives. -/
structure Placement where
  raftAddr : Bytes
  nodeId : Bytes
  dir : Bytes
  cwd : Loc

/-- A host with what raft knows about it.  `recovered` says that raft has restored a
    snapshot since the process started, or found none; `position` counts the entries
    given to this process.  `highest` is a ghost: no later position has ever had an
    effect in the store or in a store one of the snapshots comes from. -/
structure Member where
  host : Host
  recovered : Bool
  position : Nat
  highest : Nat
  pending : List PendingSnapshot
  snapshots : List StoredSnapshot

namespace Member

/-- After a step that may have killed the process.  A new process starts over. -/
def settle (m : Member) (host : Host) (position : Nat) : Member :=
  if host.machine.isSome then { m with host := host, recovered := true, position := position }
  else { m with host := host, recovered := false, position := 0, pending := [] }

/-- An entry has an effect only if `Apply` returned. -/
def applied (m : Member) (host : Host) : Member :=
  let m := if host.machine.isSome then { m with highest := max m.highest (m.position + 1) } else m
  m.settle host (m.position + 1)

/-- A snapshot from elsewhere goes into the snapshot store before it is restored. -/
def received (m : Member) (snap : StoredSnapshot) : Member :=
  { m with snapshots := snap :: m.snapshots, highest := max m.highest snap.highest }

end Member

/-- A persisted snapshot restores to the content that was captured. -/
def RoundTrips (gz : Gzip) (data : Bytes) (content : KV) : Prop :=
  ∀ before, restoredContent gz data before = content

/-- The environments of a run: nothing fails, and the base path keeps its meaning. -/
def Placement.Allows (place : Placement) (env : Env Site) : Prop :=
  env.NoFail ∧ resolve env.cwd place.dir = resolve place.cwd place.dir

def Placement.run (json : Json) (gz : Gzip) (place : Placement) (op : Op) (env : Env Site)
    (host : Host) : Host :=
  op.run json gz place.raftAddr place.nodeId place.dir env host

/-- One step of a member.  `pool` are the snapshots the other members can send.  Which of
    its own snapshots raft restores after a start is left open: the latest is one of
    them. -/
inductive MemberStep (json : Json) (gz : Gzip) (log : List Bytes) (place : Placement)
    (pool : StoredSnapshot → Prop) : Member → Member → Prop
  | apply {m : Member} {data : Bytes} {env : Env Site} (hup : m.host.machine.isSome = true)
      (hrecovered : m.recovered = true) (hdata : log[m.position]? = some data)
      (henv : place.Allows env) :
      MemberStep json gz log place pool m
        (m.applied (place.run json gz (.apply (.ofNat (m.position + 1)) data) env m.host))
  | snapshot {m : Member} {r : StateMachine} {now : Int64} {captured : StateMachine.Captured}
      (hup : m.host.machine = some r) (hrecovered : m.recovered = true)
      (hsnapshot : r.snapshot m.host.fs now = .ok captured) :
      MemberStep json gz log place pool m
        { m with pending := ⟨captured, m.position, m.highest⟩ :: m.pending }
  | persist {m : Member} {r r' : StateMachine} {snap : PendingSnapshot} {faults : SaveFaults}
      {created now : Int64} {sink : Sink} (hup : m.host.machine = some r)
      (hsnap : snap ∈ m.pending)
      (hpersist : r.persist gz faults snap.captured created now .fresh = (.ok (), r', sink))
      (hround : RoundTrips gz sink.data snap.captured.snapshot) :
      MemberStep json gz log place pool m
        { m with host := ⟨m.host.fs, some r'⟩
                 snapshots := ⟨sink.data, snap.position, snap.highest⟩ :: m.snapshots }
  | install {m : Member} {snap : StoredSnapshot} {stamp : Stamp} {startTime now : Int64}
      {env : Env Site} (hup : m.host.machine.isSome = true) (hrecovered : m.recovered = true)
      (hsnap : pool snap) (henv : place.Allows env)
      (hfresh : (Op.restore stamp startTime now snap.data).Fresh place.cwd place.dir m.host.fs) :
      MemberStep json gz log place pool m ((m.received snap).settle
        (place.run json gz (.restore stamp startTime now snap.data) env m.host) snap.position)
  | kill {m : Member} :
      MemberStep json gz log place pool m (m.settle ⟨m.host.fs, none⟩ 0)
  | start {m : Member} (stamp : Stamp) {env : Env Site} (hdown : m.host.machine = none)
      (henv : place.Allows env) :
      MemberStep json gz log place pool m
        { m with host := place.run json gz (.start stamp) env m.host
                 recovered := false, position := 0 }
  | recoverNone {m : Member} (hup : m.host.machine.isSome = true)
      (hrecovered : m.recovered = false) (hnone : m.snapshots = []) :
      MemberStep json gz log place pool m { m with recovered := true, position := 0 }
  | recoverFrom {m : Member} {snap : StoredSnapshot} {stamp : Stamp} {startTime now : Int64}
      {env : Env Site} (hup : m.host.machine.isSome = true) (hrecovered : m.recovered = false)
      (hsnap : snap ∈ m.snapshots) (henv : place.Allows env)
      (hfresh : (Op.restore stamp startTime now snap.data).Fresh place.cwd place.dir m.host.fs) :
      MemberStep json gz log place pool m (m.settle
        (place.run json gz (.restore stamp startTime now snap.data) env m.host) snap.position)

/-- The clusters reached from new hosts. -/
inductive ClusterReaches {ι : Type} [DecidableEq ι] (json : Json) (gz : Gzip) (log : List Bytes)
    (places : ι → Placement) : (ι → Member) → Prop
  | init {hosts : ι → Host}
      (hnew : ∀ i, NewHost (places i).raftAddr (places i).nodeId (places i).cwd (places i).dir
        (hosts i)) :
      ClusterReaches json gz log places fun i => ⟨hosts i, false, 0, 0, [], []⟩
  | step {members : ι → Member} {i : ι} {m : Member}
      (hreach : ClusterReaches json gz log places members)
      (hstep : MemberStep json gz log (places i) (fun snap => ∃ j, snap ∈ (members j).snapshots)
        (members i) m) :
      ClusterReaches json gz log places (Function.update members i m)

/-! ### The invariant -/

/-- A stored snapshot restores to values from the interval it is marked with. -/
def StoredSnapshot.Sound (json : Json) (gz : Gzip) (log : List Bytes) (snap : StoredSnapshot) :
    Prop :=
  ∃ content, RoundTrips gz snap.data content ∧
    Mixed json log snap.position snap.highest content

structure Member.Ok (json : Json) (gz : Gzip) (log : List Bytes) (place : Placement)
    (m : Member) : Prop where
  store : ∃ content, m.host.Holds place.cwd place.dir content ∧
    Mixed json log m.position m.highest content
  pending : ∀ snap ∈ m.pending, snap.highest ≤ m.highest ∧
    Mixed json log snap.position snap.highest snap.captured.snapshot
  snapshots : ∀ snap ∈ m.snapshots, snap.highest ≤ m.highest ∧ snap.Sound json gz log

section Invariant

variable {json : Json} {gz : Gzip} {log : List Bytes} {place : Placement} {m : Member}
  {pool : StoredSnapshot → Prop}

/-- A process that survived continues from where it is, a later one replays from the
    start over whatever is there. -/
theorem Member.Ok.settle (h : m.Ok json gz log place) {host : Host} {position : Nat} {content : KV}
    (hholds : host.Holds place.cwd place.dir content)
    (hmixed : Mixed json log 0 m.highest content)
    (hup : host.machine.isSome = true → Mixed json log position m.highest content) :
    (m.settle host position).Ok json gz log place := by
  unfold Member.settle
  by_cases halive : host.machine.isSome = true
  · rw [if_pos halive]
    exact ⟨⟨content, hholds, hup halive⟩, h.pending, h.snapshots⟩
  · rw [if_neg halive]
    exact ⟨⟨content, hholds, hmixed⟩, by simp, h.snapshots⟩

theorem Member.Ok.raise (h : m.Ok json gz log place) {highest : Nat} (hle : m.highest ≤ highest) :
    Member.Ok json gz log place { m with highest := highest } where
  store := by
    obtain ⟨content, hholds, hmixed⟩ := h.store
    exact ⟨content, hholds, hmixed.mono (Nat.le_refl _) hle⟩
  pending := fun snap hsnap => ⟨(h.pending snap hsnap).1.trans hle, (h.pending snap hsnap).2⟩
  snapshots := fun snap hsnap =>
    ⟨(h.snapshots snap hsnap).1.trans hle, (h.snapshots snap hsnap).2⟩

theorem Member.Ok.received (h : m.Ok json gz log place) {snap : StoredSnapshot}
    (hsnap : snap.Sound json gz log) : (m.received snap).Ok json gz log place := by
  obtain ⟨hstore, hpending, hsnapshots⟩ := h.raise (Nat.le_max_left m.highest snap.highest)
  refine ⟨hstore, hpending, ?_⟩
  intro other hother
  rcases List.mem_cons.mp hother with rfl | hother
  · exact ⟨Nat.le_max_right .., hsnap⟩
  · exact hsnapshots other hother

theorem Placement.run_holds {host : Host} {content : KV} {env : Env Site} (op : Op)
    (h : host.Holds place.cwd place.dir content) (henv : place.Allows env)
    (hfresh : op.Fresh place.cwd place.dir host.fs) :
    ∃ content', (place.run json gz op env host).Holds place.cwd place.dir content' ∧
      (content' = content ∨ content' = op.effect json gz host content) ∧
      ((place.run json gz op env host).machine.isSome = true →
        content' = op.effect json gz host content) := by
  obtain ⟨content', hholds, ⟨hcontent, -⟩, halive⟩ := h.run henv.1 henv.2 hfresh
  exact ⟨content', hholds, hcontent, halive⟩

/-- Restoring a sound snapshot, killed or not. -/
theorem Member.Ok.restore (h : m.Ok json gz log place) {snap : StoredSnapshot} {stamp : Stamp}
    {startTime now : Int64} {env : Env Site} (hup : m.host.machine.isSome = true)
    (hsnap : snap.Sound json gz log) (hhighest : snap.highest ≤ m.highest)
    (henv : place.Allows env)
    (hfresh : (Op.restore stamp startTime now snap.data).Fresh place.cwd place.dir m.host.fs) :
    (m.settle (place.run json gz (.restore stamp startTime now snap.data) env m.host)
      snap.position).Ok json gz log place := by
  obtain ⟨content, hholds, hmixed⟩ := h.store
  obtain ⟨restored, hround, hrestored⟩ := hsnap
  obtain ⟨content', hholds', hcontent, halive⟩ := Placement.run_holds _ hholds henv hfresh
  have heffect : (Op.restore stamp startTime now snap.data).effect json gz m.host content =
      restored := by
    rw [Op.effect, if_pos hup]
    exact hround content
  rw [heffect] at hcontent halive
  have hnew : Mixed json log snap.position m.highest restored :=
    hrestored.mono (Nat.le_refl _) hhighest
  apply h.settle hholds'
  · rcases hcontent with rfl | rfl
    · exact hmixed.mono (Nat.zero_le _) (Nat.le_refl _)
    · exact hnew.mono (Nat.zero_le _) (Nat.le_refl _)
  · intro hsurvived
    rw [halive hsurvived]
    exact hnew

/-- Applying the next entry, killed or not. -/
theorem Member.Ok.apply (h : m.Ok json gz log place) {data : Bytes} {env : Env Site}
    (hup : m.host.machine.isSome = true) (hdata : log[m.position]? = some data)
    (henv : place.Allows env) :
    (m.applied (place.run json gz (.apply (.ofNat (m.position + 1)) data) env m.host)).Ok
      json gz log place := by
  obtain ⟨content, hholds, hmixed⟩ := h.store
  have happlied := hmixed.apply hdata
  rcases hholds.run_apply hup henv.1 henv.2 (.ofNat (m.position + 1)) data with
    ⟨fs', r', hrun, hholds'⟩ | ⟨fs', hrun, hholds'⟩
  · rw [Placement.run, hrun]
    exact (h.raise (Nat.le_max_left m.highest (m.position + 1))).settle hholds'
      (happlied.mono (Nat.zero_le _) (Nat.le_refl _)) fun _ => happlied
  · rw [Placement.run, hrun]
    refine h.settle hholds' (hmixed.mono (Nat.zero_le _) (Nat.le_refl _)) ?_
    intro halive
    simp at halive

theorem MemberStep.ok {m' : Member} (hstep : MemberStep json gz log place pool m m')
    (h : m.Ok json gz log place) (hpool : ∀ snap, pool snap → snap.Sound json gz log) :
    m'.Ok json gz log place := by
  cases hstep with
  | apply hup hrecovered hdata henv => exact h.apply hup hdata henv
  | @snapshot r now captured hup hrecovered hsnapshot =>
    obtain ⟨content, hholds, hmixed⟩ := h.store
    have hcaptured : captured.snapshot = content := by
      obtain ⟨hclosed, hlookup⟩ := hholds.lookup hup
      simp only [StateMachine.snapshot, hclosed, Bool.false_eq_true, if_false, hlookup,
        Except.ok.injEq] at hsnapshot
      rw [← hsnapshot]
    refine ⟨h.store, ?_, h.snapshots⟩
    intro snap hsnap
    rcases List.mem_cons.mp hsnap with rfl | hsnap
    · rw [← hcaptured] at hmixed
      exact ⟨Nat.le_refl _, hmixed⟩
    · exact h.pending snap hsnap
  | persist hup hsnap hpersist hround =>
    obtain ⟨content, hholds, hmixed⟩ := h.store
    obtain ⟨hhighest, hpending⟩ := h.pending _ hsnap
    refine ⟨⟨content, ?_, hmixed⟩, h.pending, ?_⟩
    · exact hholds.with_machine hup (StateMachine.persist_store hpersist)
    · intro snap hsnap
      rcases List.mem_cons.mp hsnap with rfl | hsnap
      · exact ⟨hhighest, _, hround, hpending⟩
      · exact h.snapshots snap hsnap
  | install hup hrecovered hsnap henv hfresh =>
    exact (h.received (hpool _ hsnap)).restore hup (hpool _ hsnap) (Nat.le_max_right ..) henv
      hfresh
  | kill =>
    obtain ⟨content, ⟨name, hcur, -⟩, hmixed⟩ := h.store
    refine h.settle (Host.holds_down hcur) (hmixed.mono (Nat.zero_le _) (Nat.le_refl _)) ?_
    intro halive
    simp at halive
  | start stamp hdown henv =>
    obtain ⟨content, hholds, hmixed⟩ := h.store
    obtain ⟨content', hholds', hcontent, -⟩ :=
      Placement.run_holds (.start stamp) hholds henv trivial
    obtain rfl : content' = content := hcontent.elim id id
    exact ⟨⟨content', hholds', hmixed.mono (Nat.zero_le _) (Nat.le_refl _)⟩, h.pending,
      h.snapshots⟩
  | recoverNone hup hrecovered hnone =>
    obtain ⟨content, hholds, hmixed⟩ := h.store
    exact ⟨⟨content, hholds, hmixed.mono (Nat.zero_le _) (Nat.le_refl _)⟩, h.pending,
      h.snapshots⟩
  | recoverFrom hup hrecovered hsnap henv hfresh =>
    obtain ⟨hhighest, hsound⟩ := h.snapshots _ hsnap
    exact h.restore hup hsound hhighest henv hfresh

/-- What a run keeps, for every member at once: the snapshots travel. -/
theorem ClusterReaches.ok {ι : Type} [DecidableEq ι] {places : ι → Placement}
    {members : ι → Member} (hreach : ClusterReaches json gz log places members) (i : ι) :
    (members i).Ok json gz log (places i) := by
  induction hreach generalizing i with
  | init hnew =>
    exact ⟨⟨∅, (hnew i).holds, mixed_empty json log⟩, by simp, by simp⟩
  | @step members j m _ hstep ih =>
    by_cases hij : i = j
    · subst hij
      rw [Function.update_self]
      apply hstep.ok (ih i)
      rintro snap ⟨k, hsnap⟩
      exact ((ih k).snapshots snap hsnap).2
    · rw [Function.update_of_ne hij]
      exact ih i

/-- A member that has been given the log up to a position, no later position having had
    an effect in its store or in a store its snapshots come from, holds exactly the log
    up to there. -/
theorem content_eq_replay {ι : Type} [DecidableEq ι] {places : ι → Placement}
    {members : ι → Member} (hreach : ClusterReaches json gz log places members) (i : ι)
    {r : StateMachine} (hup : (members i).host.machine = some r)
    {n : Nat} (hposition : (members i).position = n)
    (hhighest : (members i).highest ≤ n) :
    (members i).host.fs[r.store.db]? =
      some (.dir (.database (replay json (log.take n)))) := by
  obtain ⟨content, hholds, hmixed⟩ := (hreach.ok i).store
  rw [(hholds.lookup hup).2, hmixed.eq_replay (Nat.le_of_eq hposition.symm) hhighest]

/-- Whatever was killed, replayed and restored: a running member answers a local read with
    the value the key had at some moment of the log.  It is not a moment before the position
    the member has reached since its start, nor one after the last position its store has
    seen. -/
theorem local_read_from_log {ι : Type} [DecidableEq ι] {places : ι → Placement}
    {members : ι → Member} (hreach : ClusterReaches json gz log places members) (i : ι)
    {r : StateMachine} (hup : (members i).host.machine = some r) (key : Bytes) :
    ∃ n, (members i).position ≤ n ∧ n ≤ (members i).highest ∧
      r.readLocal (members i).host.fs key = ⟨valueAt json key log n, none⟩ := by
  obtain ⟨content, hholds, hmixed⟩ := (hreach.ok i).store
  obtain ⟨n, hposition, hhighest, hvalue⟩ := hmixed (buildColumnFamilyKey cfDefault key)
  obtain ⟨hclosed, hlookup⟩ := hholds.lookup hup
  refine ⟨n, hposition, hhighest, ?_⟩
  rw [r.readLocal_eq hclosed hlookup, valueAt, ← hvalue]

/-- The assumption on persisted snapshots holds for every content the reader can take
    back. -/
theorem roundTrips_of_persist {r r' : StateMachine} {captured : StateMachine.Captured}
    {faults : SaveFaults} {created now : Int64} {sink : Sink} (hgz : gz.Lawful)
    (hkeys : ∀ key ∈ captured.snapshot, key.length ≤ 2 ^ 30) (hnode : r.nodeId.length ≤ 65535)
    (hpersist : r.persist gz faults captured created now .fresh = (.ok (), r', sink)) :
    RoundTrips gz sink.data captured.snapshot := by
  intro before
  unfold StateMachine.persist at hpersist
  split at hpersist
  · cases hpersist
  · rename_i result sink' hsave
    cases hpersist
    rw [restoredContent_of_accepts (saveSnapShot_complete hgz hkeys hnode hsave).accepts,
      applyBatch_toList]

end Invariant

/-! ### A member that replays over its own store -/

def soloPlace : Placement := ⟨[], [110], nodeDir, []⟩

def soloEntry : Bytes := encodeInsert goJson [107] [118]

def Member.applySolo (m : Member) : Member :=
  m.applied (soloPlace.run goJson sampleGzip (.apply (.ofNat (m.position + 1)) soloEntry)
    (.fair []) m.host)

/-- The member has applied the entry and is killed. -/
def soloKilled : Member :=
  let m := Member.applySolo ⟨firstHost, true, 0, 0, [], []⟩
  m.settle ⟨m.host.fs, none⟩ 0

/-- It has started again and found no snapshot. -/
def soloRestarted : Member :=
  { soloKilled with
    host := soloPlace.run goJson sampleGzip (.start nodeStamp) (.fair []) soloKilled.host
    recovered := true, position := 0 }

def SoloReaches (m : Member) : Prop :=
  ClusterReaches goJson sampleGzip [soloEntry] (fun _ : Unit => soloPlace) fun _ => m

theorem SoloReaches.step {m m' : Member} (hreach : SoloReaches m)
    (hstep : MemberStep goJson sampleGzip [soloEntry] soloPlace
      (fun snap => ∃ _ : Unit, snap ∈ m.snapshots) m m') : SoloReaches m' := by
  have hnext := ClusterReaches.step (i := ()) hreach hstep
  have hsame : Function.update (fun _ : Unit => m) () m' = fun _ => m' := by
    funext i
    exact Function.update_self ..
  rwa [hsame] at hnext

theorem soloPlace_allows : soloPlace.Allows (.fair []) := by
  have hfair : (Env.fair [] : Env Site).AllOk := Env.fair_allOk []
  exact ⟨hfair.noFail, rfl⟩

theorem soloReaches_restarted : SoloReaches soloRestarted := by
  have hnew : SoloReaches ⟨firstHost, false, 0, 0, [], []⟩ := .init fun _ => newHost_firstHost
  have hrecovered : SoloReaches ⟨firstHost, true, 0, 0, [], []⟩ :=
    hnew.step (.recoverNone rfl rfl rfl)
  have hkilled : SoloReaches soloKilled :=
    (hrecovered.step (.apply rfl rfl rfl soloPlace_allows)).step .kill
  have hdown : soloKilled.host.machine = none := by decide +kernel
  have hnone : soloKilled.snapshots = [] := by decide +kernel
  exact (hkilled.step (.start nodeStamp hdown soloPlace_allows)).step
    (.recoverNone (by decide +kernel) rfl hnone)

/-- Replaying the entry over the store that already holds it. -/
theorem content_eq_replay_again : ∃ r, soloRestarted.applySolo.host.machine = some r ∧
    soloRestarted.applySolo.host.fs[r.store.db]? =
      some (.dir (.database (replay goJson [soloEntry]))) := by
  have hreach : SoloReaches soloRestarted.applySolo := soloReaches_restarted.step
    (.apply (by decide +kernel) rfl rfl soloPlace_allows)
  have hup : soloRestarted.applySolo.host.machine.isSome = true := by decide +kernel
  obtain ⟨r, hr⟩ := Option.isSome_iff_exists.mp hup
  exact ⟨r, hr, content_eq_replay (n := 1) hreach () hr (by decide +kernel) (by decide +kernel)⟩

/-- After the restart the store is ahead of the log: the entry has not been given to the
    new process, but a read finds its value. -/
theorem local_read_from_log_restarted : ∃ r n, soloRestarted.host.machine = some r ∧
    soloRestarted.position = 0 ∧ n ≤ 1 ∧
    valueAt goJson [107] [soloEntry] n = [118] ∧
    r.readLocal soloRestarted.host.fs [107] =
      ⟨valueAt goJson [107] [soloEntry] n, none⟩ := by
  have hup : soloRestarted.host.machine.isSome = true := by decide +kernel
  have hhighest : soloRestarted.highest = 1 := by decide +kernel
  obtain ⟨r, hr⟩ := Option.isSome_iff_exists.mp hup
  obtain ⟨n, -, hn, hread⟩ := local_read_from_log soloReaches_restarted () hr [107]
  have hval : (soloRestarted.host.machine.map fun r =>
      (r.readLocal soloRestarted.host.fs [107]).val) = some [118] := by decide +kernel
  rw [hr, Option.map_some, hread, Option.some.injEq] at hval
  exact ⟨r, n, hr, rfl, hhighest ▸ hn, hval, hread⟩

end RaftExample
