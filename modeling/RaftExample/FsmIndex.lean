import RaftExample.CorruptionDetection
import RaftExample.Interleaving
import RaftExample.Replication

/-!
# The index of the state machine

`Apply` stores the index of its entry, `Snapshot` captures the index, `Persist` writes it
into the header, and `Restore` takes it from there, but only if it is not zero.  Several
machines run one operation after the other and exchange their snapshots.  Next to each
machine the entries its store reflects are recorded: those applied, or those behind the
snapshot it has restored and those applied since.  The index is the one of the last of
them as long as no snapshot from before the first entry is restored into a machine that
has got further.
-/

namespace RaftExample

open Interleaving

/-! ### The machines -/

/-- Log entries, with their indices, in the order in which they were applied. -/
abbrev History := List (UInt64 × Bytes)

def History.lastIndex (history : History) : UInt64 := (history.getLast?.map Prod.fst).getD 0

/-- The content of a store that reflects these entries.  Rejected ones have no effect. -/
def History.content (json : Json) (history : History) : KV := replay json (history.map Prod.snd)

/-- What `Snapshot` returned, what `GetFsmIndex` said at that moment, and what the store
    reflected. -/
structure TakenSnapshot where
  captured : StateMachine.Captured
  fsmIndex : UInt64
  history : History

/-- The same of a snapshot that was persisted. -/
structure SavedSnapshot where
  data : Bytes
  fsmIndex : UInt64
  history : History

/-- A machine and its disk.  The rest are ghosts: what the store reflects and, from a
    successful `Restore` to the next `Apply`, what `GetFsmIndex` said on the source when
    the snapshot was taken. -/
structure TrackedMachine where
  machine : StateMachine
  fs : FS KV
  taken : List TakenSnapshot
  history : History
  restoredAt : Option UInt64

structure Fleet (ι : Type) where
  machines : ι → TrackedMachine
  saved : List SavedSnapshot

inductive FleetAction (ι : Type) where
  | apply (i : ι) (index : UInt64) (data : Bytes)
  | snapshot (i : ι) (now : Int64)
  | persist (i : ι) (n : Nat) (faults : SaveFaults) (created now : Int64)
  | restore (i : ι) (n : Nat) (stamp : Stamp) (startTime now : Int64)

namespace TrackedMachine

def apply (json : Json) (cwd : Loc) (index : UInt64) (data : Bytes) (m : TrackedMachine) :
    Option TrackedMachine :=
  match m.machine.apply json index data (.fair cwd) m.fs with
  | (.value (_, r), fs) =>
      some { m with machine := r, fs := fs, history := m.history ++ [(index, data)]
                    restoredAt := none }
  | _ => none

def snapshot (now : Int64) (m : TrackedMachine) : Option TrackedMachine :=
  match m.machine.snapshot m.fs now with
  | .ok captured => some { m with taken := m.taken ++ [⟨captured, m.machine.fsmIndex, m.history⟩] }
  | .error _ => some m

/-- `Persist` of a snapshot the machine has taken, with what it adds to the saved ones. -/
def persist (gz : Gzip) (taken : TakenSnapshot) (faults : SaveFaults) (created now : Int64)
    (m : TrackedMachine) : TrackedMachine × List SavedSnapshot :=
  match m.machine.persist gz faults taken.captured created now .fresh with
  | (.ok (), r, sink) => ({ m with machine := r }, [⟨sink.data, taken.fsmIndex, taken.history⟩])
  | (.error _, r, _) => ({ m with machine := r }, [])

def restore (gz : Gzip) (cwd : Loc) (snap : SavedSnapshot) (stamp : Stamp)
    (startTime now : Int64) (m : TrackedMachine) : Option TrackedMachine :=
  match m.machine.restore gz stamp startTime now snap.data (.fair cwd) m.fs with
  | (.value (.ok (), r), fs) =>
      some { m with machine := r, fs := fs, history := snap.history
                    restoredAt := some snap.fsmIndex }
  | (.value (.error _, r), fs) => some { m with machine := r, fs := fs }
  | _ => none

end TrackedMachine

namespace Fleet

variable {ι : Type} [DecidableEq ι]

def set (s : Fleet ι) (i : ι) (m : TrackedMachine) : Fleet ι :=
  { s with machines := Function.update s.machines i m }

/-- One operation of one machine, none of whose disk operations fails. -/
def step (json : Json) (gz : Gzip) (cwd : ι → Loc) (action : FleetAction ι) (s : Fleet ι) :
    Option (Fleet ι) :=
  match action with
  | .apply i index data => ((s.machines i).apply json (cwd i) index data).map (s.set i)
  | .snapshot i now => ((s.machines i).snapshot now).map (s.set i)
  | .persist i n faults created now =>
      (s.machines i).taken[n]?.map fun taken =>
        let (m, saved) := (s.machines i).persist gz taken faults created now
        { s.set i m with saved := s.saved ++ saved }
  | .restore i n stamp startTime now =>
      s.saved[n]?.bind fun snap =>
        ((s.machines i).restore gz (cwd i) snap stamp startTime now).map (s.set i)

/-- Machines that were just started for the first time. -/
def Fresh (cwd : ι → Loc) (s : Fleet ι) : Prop :=
  s.saved = [] ∧ ∀ i, ∃ raftAddr nodeId dir r fs, NewHost raftAddr nodeId (cwd i) dir ⟨fs, some r⟩ ∧
    s.machines i = ⟨r, fs, [], [], none⟩

/-- A name that `Restore` generates is not in use, and keys are no longer than a slice can
    be. -/
def practicable (cwd : ι → Loc) (s : Fleet ι) : FleetAction ι → Bool
  | .restore i _ stamp _ _ =>
      ((s.machines i).fs[targetOf (.fair (cwd i)) (s.machines i).machine.store stamp]?).isNone
  | .persist i n _ _ _ => (s.machines i).taken[n]?.all fun taken =>
      taken.captured.snapshot.toList.all fun record => decide (record.1.length ≤ maxAlloc)
  | _ => true

/-- Snapshots are written under a node ID whose length fits the header, and a snapshot
    taken at index zero is restored only where the index is zero. -/
def keepsIndex (s : Fleet ι) : FleetAction ι → Bool
  | .persist i _ _ _ _ => decide ((s.machines i).machine.nodeId.length ≤ 65535)
  | .restore i n _ _ _ => s.saved[n]?.all fun snap =>
      decide (snap.fsmIndex ≠ 0) || decide ((s.machines i).machine.fsmIndex = 0)
  | _ => true

end Fleet

/-- The store holds what its history says, and `fsmIndex` is the index of the last entry
    of it; after a successful `Restore` it is what it was on the source. -/
structure TrackedMachine.Described (json : Json) (m : TrackedMachine) : Prop where
  content : m.fs[m.machine.store.db]? = some (.dir (.database (m.history.content json)))
  fsmIndex : m.machine.fsmIndex = m.history.lastIndex
  restoredAt : ∀ index, m.restoredAt = some index → m.machine.fsmIndex = index

section FsmIndex

variable {json : Json} {gz : Gzip} {cwd : Loc} {m m' : TrackedMachine} {history : History}

@[simp] theorem History.lastIndex_concat (history : History) (index : UInt64) (data : Bytes) :
    History.lastIndex (history ++ [(index, data)]) = index := by
  simp [History.lastIndex]

theorem History.content_concat (json : Json) (history : History) (index : UInt64) (data : Bytes) :
    History.content json (history ++ [(index, data)]) =
      appliedContent json data (history.content json) := by
  simp [History.content, replay]

/-! ### What a persisted snapshot says -/

/-- Compressing leaves the keys alone. -/
theorem Compressed.keys {records zipped : List (Bytes × Bytes)} (h : Compressed gz records zipped) :
    zipped.map Prod.fst = records.map Prod.fst := by
  induction h with
  | nil => rfl
  | cons hhead _ ih => rw [List.map_cons, List.map_cons, hhead.1, ih]

/-- If the reader accepts what the writer wrote, it gets the writer's index and content.
    It does not accept keys the writer should not have written. -/
theorem saveSnapShot_accepts {faults : SaveFaults} {nodeId : Bytes} {lastIndex : UInt64}
    {timestamp : Int64} {content : KV} {result : SnapshotResult} {sink : Sink}
    {header : SnapshotHeader} {records : List (Bytes × Bytes)} (hgz : gz.Lawful)
    (hnode : nodeId.length ≤ 65535) (hkeys : ∀ key ∈ content, key.length ≤ maxAlloc)
    (hsave : saveSnapShot gz faults nodeId lastIndex timestamp content .fresh = (.ok result, sink))
    (haccepts : Accepts gz sink.data header records) :
    header.lastIndex = lastIndex ∧ applyBatch records ∅ = content := by
  obtain ⟨zipped, hzipped, hdata⟩ := saveSnapShot_ok hsave
  by_cases hlong : ∃ record ∈ zipped, 2 ^ 30 < record.1.length
  · have hlengths := Compressed.lengths hgz hkeys hzipped
    obtain ⟨read, e, hbad⟩ : ∃ read e, parseRecords gz (encodeRecords zipped ++
        leBytes 4 (crc32 (encodeRecords zipped)).toNat) = (read, .bad e) :=
      readRecords_refused (fun r hr => (hlengths r hr).1) (fun r hr => (hlengths r hr).2)
        (length_leBytes ..) (.inl hlong) (by rw [List.length_append]; omega)
    obtain ⟨rest, reason, hheader, hparse⟩ := haccepts
    rw [hdata, List.append_assoc, readSnapshotHeader_append
      (readSnapshotHeader_encodeHeader hnode lastIndex timestamp)] at hheader
    obtain ⟨-, rfl⟩ := Prod.mk.inj (Except.ok.inj hheader)
    rw [hbad] at hparse
    cases hparse
  · have hshort : ∀ key ∈ content, key.length ≤ 2 ^ 30 := by
      rw [forall_key_iff]
      intro record hrecord
      have hkey : record.1 ∈ zipped.map Prod.fst := by
        rw [hzipped.keys]
        exact List.mem_map_of_mem hrecord
      obtain ⟨z, hz, hsame⟩ := List.mem_map.mp hkey
      rw [← hsame]
      exact Nat.not_lt.mp fun hlt => hlong ⟨z, hz, hlt⟩
    obtain ⟨rfl, rfl⟩ := haccepts.unique (saveSnapShot_complete hgz hshort hnode hsave).accepts
    exact ⟨rfl, applyBatch_toList content⟩

/-! ### A restore that is not disturbed -/

/-- If it returns, it has installed what the reader accepts, or has left machine and store
    as they were. -/
theorem restore_fair {r r' : StateMachine} {fs fs' : FS KV} {name : Name} {content : KV}
    {stream : Bytes} {stamp : Stamp} {startTime now : Int64} {result : Except Err Unit}
    (hopened : r.store.closed = false) (hserving : Serving cwd r.store fs name content)
    (hfresh : fs[targetOf (.fair cwd) r.store stamp]? = none)
    (hrun : r.restore gz stamp startTime now stream (.fair cwd) fs =
      (.value (result, r'), fs')) :
    (result = .ok () ∧ ∃ header records s', Accepts gz stream header records ∧
      r' = { r with store := s' }.adopt header startTime now ∧ s'.closed = false ∧
      Serving cwd s' fs' (stampName stamp) (applyBatch records ∅)) ∨
    ((∃ e, result = .error e) ∧ r' = r ∧ Serving cwd r.store fs' name content) := by
  have hfair : (Env.fair cwd : Env Site).AllOk := Env.fair_allOk cwd
  by_cases haccepts : ∃ header records, Accepts gz stream header records
  · obtain ⟨header, records, haccepts⟩ := haccepts
    obtain ⟨s', fs₁, hrecovered, hclosed, hserving'⟩ :=
      recoverSnapShot_of_accepts hfair hserving.toPointsTo hfresh haccepts
    rw [StateMachine.restore_of_recovered hopened hrecovered] at hrun
    cases hrun
    exact .inl ⟨rfl, header, records, s', haccepts, rfl, hclosed.trans hopened, hserving'⟩
  · simp only [StateMachine.restore, hopened, Bool.false_eq_true, if_false, Proc.bind_run] at hrun
    rcases (recoverSnapShot_ends gz hfair.noFail.dbWritesOk stream hserving.toPointsTo
      hfresh).cases with ⟨⟨recovered, s'⟩, fs₁, hrecovered, hend⟩ | ⟨fs₁, hdied | hdied, -⟩
    · rcases hend with ⟨-, ⟨e, he⟩, hs, hcur⟩ | ⟨header, records, hpublishes, -⟩
      · simp only at he hs
        subst he hs
        rw [hrecovered] at hrun
        cases hrun
        exact .inr ⟨⟨e, rfl⟩, rfl, hcur, hserving.handle⟩
      · exact absurd ⟨header, records, hpublishes.1⟩ haccepts
    · rw [hdied] at hrun
      cases hrun
    · rw [hdied] at hrun
      cases hrun

/-! ### The invariant -/

/-- A saved snapshot carries the index of the last entry it reflects, and what a reader
    accepts of it is that index and the content. -/
structure SavedSnapshot.Sound (json : Json) (gz : Gzip) (snap : SavedSnapshot) : Prop where
  fsmIndex : snap.fsmIndex = snap.history.lastIndex
  accepted : ∀ header records, Accepts gz snap.data header records →
    header.lastIndex = snap.fsmIndex ∧ applyBatch records ∅ = snap.history.content json

structure TakenSnapshot.Sound (json : Json) (taken : TakenSnapshot) : Prop where
  fsmIndex : taken.fsmIndex = taken.history.lastIndex
  lastIndex : taken.captured.lastIndex = taken.fsmIndex
  snapshot : taken.captured.snapshot = taken.history.content json

structure TrackedMachine.Ok (json : Json) (cwd : Loc) (m : TrackedMachine) : Prop where
  opened : m.machine.store.closed = false
  serving : ∃ name, Serving cwd m.machine.store m.fs name (m.history.content json)
  fsmIndex : m.machine.fsmIndex = m.history.lastIndex
  restoredAt : ∀ index, m.restoredAt = some index → m.machine.fsmIndex = index
  taken : ∀ taken ∈ m.taken, taken.Sound json

namespace TrackedMachine.Ok

theorem described (h : m.Ok json cwd) : m.Described json := by
  obtain ⟨name, hserving⟩ := h.serving
  exact ⟨hserving.lookup, h.fsmIndex, h.restoredAt⟩

theorem apply (h : m.Ok json cwd) {index : UInt64} {data : Bytes}
    (hstep : m.apply json cwd index data = some m') : m'.Ok json cwd := by
  obtain ⟨name, hserving⟩ := h.serving
  obtain ⟨resp, fs', hrun, hserving'⟩ := apply_fair index data h.opened hserving
  rw [TrackedMachine.apply, hrun] at hstep
  obtain rfl := Option.some.inj hstep
  refine ⟨h.opened, ⟨name, ?_⟩, (History.lastIndex_concat ..).symm, by simp, h.taken⟩
  rw [History.content_concat]
  exact hserving'

theorem snapshot (h : m.Ok json cwd) {now : Int64} (hstep : m.snapshot now = some m') :
    m'.Ok json cwd := by
  obtain ⟨name, hserving⟩ := h.serving
  have hcapture : m.machine.snapshot m.fs now =
      .ok ⟨m.history.content json, m.machine.fsmIndex, now⟩ := by
    simp only [StateMachine.snapshot, h.opened, Bool.false_eq_true, if_false, hserving.lookup]
  rw [TrackedMachine.snapshot, hcapture] at hstep
  obtain rfl := Option.some.inj hstep
  refine ⟨h.opened, h.serving, h.fsmIndex, h.restoredAt, ?_⟩
  intro taken htaken
  rcases List.mem_append.mp htaken with hold | hnew
  · exact h.taken taken hold
  · rw [List.mem_singleton.mp hnew]
    exact ⟨h.fsmIndex, rfl, rfl⟩

theorem persist (h : m.Ok json cwd) (hgz : gz.Lawful) {taken : TakenSnapshot}
    (faults : SaveFaults) (created now : Int64) (htaken : taken ∈ m.taken)
    (hnode : m.machine.nodeId.length ≤ 65535)
    (hkeys : ∀ key ∈ taken.captured.snapshot, key.length ≤ maxAlloc) :
    (m.persist gz taken faults created now).1.Ok json cwd ∧
      ∀ snap ∈ (m.persist gz taken faults created now).2, snap.Sound json gz := by
  obtain ⟨hindex, hlast, hcontent⟩ := h.taken taken htaken
  unfold TrackedMachine.persist StateMachine.persist
  cases hsave : saveSnapShot gz faults m.machine.nodeId taken.captured.lastIndex created
      taken.captured.snapshot .fresh with
  | mk result sink =>
    cases result with
    | error e => exact ⟨⟨h.opened, h.serving, h.fsmIndex, h.restoredAt, h.taken⟩, by simp⟩
    | ok result =>
      refine ⟨⟨h.opened, h.serving, h.fsmIndex, h.restoredAt, h.taken⟩, ?_⟩
      intro snap hsnap
      rw [List.mem_singleton.mp hsnap]
      refine ⟨hindex, ?_⟩
      intro header records haccepts
      obtain ⟨hheader, hrecords⟩ := saveSnapShot_accepts hgz hnode hkeys hsave haccepts
      exact ⟨hheader.trans hlast, hrecords.trans hcontent⟩

/-- The guard on the header's index does no harm where both indices are zero. -/
theorem restore (h : m.Ok json cwd) {snap : SavedSnapshot} {stamp : Stamp}
    {startTime now : Int64} (hsnap : snap.Sound json gz)
    (hfresh : m.fs[targetOf (.fair cwd) m.machine.store stamp]? = none)
    (hzero : snap.fsmIndex ≠ 0 ∨ m.machine.fsmIndex = 0)
    (hstep : m.restore gz cwd snap stamp startTime now = some m') : m'.Ok json cwd := by
  obtain ⟨name, hserving⟩ := h.serving
  unfold TrackedMachine.restore at hstep
  split at hstep
  · rename_i r fs hrun
    obtain rfl := Option.some.inj hstep
    rcases restore_fair h.opened hserving hfresh hrun with
      ⟨-, header, records, s', haccepts, rfl, hclosed, hserving'⟩ | ⟨⟨e, he⟩, -⟩
    · obtain ⟨hheader, hrecords⟩ := hsnap.accepted header records haccepts
      have hadopted : ({ m.machine with store := s' }.adopt header startTime now).fsmIndex =
          snap.fsmIndex := by
        rw [← hheader] at hzero ⊢
        exact StateMachine.adopt_fsmIndex hzero
      refine ⟨?_, ⟨stampName stamp, ?_⟩, hadopted.trans hsnap.fsmIndex, ?_, h.taken⟩
      · rw [StateMachine.adopt_store]
        exact hclosed
      · rw [StateMachine.adopt_store, ← hrecords]
        exact hserving'
      · intro index hindex
        rw [← Option.some.inj hindex]
        exact hadopted
    · simp at he
  · rename_i e r fs hrun
    obtain rfl := Option.some.inj hstep
    rcases restore_fair h.opened hserving hfresh hrun with ⟨hok, -⟩ | ⟨-, rfl, hserving'⟩
    · simp at hok
    · exact ⟨h.opened, ⟨name, hserving'⟩, h.fsmIndex, h.restoredAt, h.taken⟩
  · simp at hstep

end TrackedMachine.Ok

end FsmIndex

/-! ### Runs -/

section Fleets

variable {ι : Type} {json : Json} {gz : Gzip} {cwd : ι → Loc} {s s' : Fleet ι}
  {action : FleetAction ι}

structure Fleet.Ok (json : Json) (gz : Gzip) (cwd : ι → Loc) (s : Fleet ι) : Prop where
  machines : ∀ i, (s.machines i).Ok json (cwd i)
  saved : ∀ snap ∈ s.saved, snap.Sound json gz

theorem NewHost.fsmIndex {raftAddr nodeId dir : Bytes} {cwd : Loc} {fs : FS KV}
    {r : StateMachine} (h : NewHost raftAddr nodeId cwd dir ⟨fs, some r⟩) : r.fsmIndex = 0 := by
  obtain ⟨fs₀, attempts, stamp, env, r', -, -, -, -, hrun, hr⟩ := h
  obtain rfl := Option.some.inj hr
  unfold newStateMachine at hrun
  rw [Proc.bind_run] at hrun
  split at hrun
  · rename_i result fs₁ hstore
    cases result with
    | error e => cases hrun
    | ok store =>
      cases hrun
      rfl
  · cases hrun
  · cases hrun

theorem Fleet.Fresh.ok (h : s.Fresh cwd) : s.Ok json gz cwd := by
  obtain ⟨hsaved, hmachines⟩ := h
  refine ⟨?_, by simp [hsaved]⟩
  intro i
  obtain ⟨raftAddr, nodeId, dir, r, fs, hnew, hm⟩ := hmachines i
  obtain ⟨name, hcur, hmachine⟩ := hnew.holds
  obtain ⟨rfl, hclosed, hhandle⟩ := hmachine r rfl
  rw [hm]
  exact ⟨hclosed, ⟨name, hcur, hhandle⟩, hnew.fsmIndex, by simp, by simp⟩

variable [DecidableEq ι]

theorem Fleet.Ok.set (h : s.Ok json gz cwd) {i : ι} {m : TrackedMachine}
    (hm : m.Ok json (cwd i)) : (s.set i m).Ok json gz cwd := by
  refine ⟨?_, h.saved⟩
  intro j
  change (Function.update s.machines i m j).Ok json (cwd j)
  by_cases hij : j = i
  · subst hij
    rw [Function.update_self]
    exact hm
  · rw [Function.update_of_ne hij]
    exact h.machines j

theorem Fleet.Ok.step (hgz : gz.Lawful) (h : s.Ok json gz cwd)
    (hpracticable : s.practicable cwd action = true) (hkeeps : s.keepsIndex action = true)
    (hstep : s.step json gz cwd action = some s') : s'.Ok json gz cwd := by
  cases action with
  | apply i index data =>
    obtain ⟨m, hm, rfl⟩ := Option.map_eq_some_iff.mp hstep
    exact h.set ((h.machines i).apply hm)
  | snapshot i now =>
    obtain ⟨m, hm, rfl⟩ := Option.map_eq_some_iff.mp hstep
    exact h.set ((h.machines i).snapshot hm)
  | persist i n faults created now =>
    obtain ⟨taken, htaken, rfl⟩ := Option.map_eq_some_iff.mp hstep
    have hkeys : ∀ key ∈ taken.captured.snapshot, key.length ≤ maxAlloc := by
      rw [forall_key_iff]
      simpa only [Fleet.practicable, htaken, Option.all_some, List.all_eq_true,
        decide_eq_true_eq] using hpracticable
    obtain ⟨hmachine, hsaved⟩ := (h.machines i).persist hgz faults created now
      (List.mem_of_getElem? htaken) (of_decide_eq_true hkeeps) hkeys
    refine ⟨(h.set hmachine).machines, ?_⟩
    intro snap hsnap
    rcases List.mem_append.mp hsnap with hold | hnew
    · exact h.saved snap hold
    · exact hsaved snap hnew
  | restore i n stamp startTime now =>
    obtain ⟨snap, hsnap, hrestore⟩ := Option.bind_eq_some_iff.mp hstep
    obtain ⟨m, hm, rfl⟩ := Option.map_eq_some_iff.mp hrestore
    have hzero : snap.fsmIndex ≠ 0 ∨ (s.machines i).machine.fsmIndex = 0 := by
      simpa [Fleet.keepsIndex, hsnap] using hkeeps
    exact h.set ((h.machines i).restore (h.saved snap (List.mem_of_getElem? hsnap))
      (Option.isNone_iff_eq_none.mp hpracticable) hzero hm)

/-- In every run in which snapshots are persisted under node IDs that fit the header, and
    no snapshot taken at index zero is restored into a machine that has got further: after
    every operation the store of each machine holds the entries in its history, `fsmIndex`
    is the index of the last of them, and after a successful `Restore` it is what
    `GetFsmIndex` said on the source when the snapshot was taken. -/
theorem fsmIndex_describes_store (hgz : gz.Lawful)
    (hreached : Reached (Fleet.step json gz cwd)
      (fun s a => s.practicable cwd a = true ∧ s.keepsIndex a = true) (Fleet.Fresh cwd) s) (i : ι) :
    (s.machines i).Described json := by
  have hok : s.Ok json gz cwd :=
    hreached.invariant (fun _ hinit => hinit.ok) fun _ _ _ h hallowed hstep =>
      h.step hgz hallowed.1 hallowed.2 hstep
  exact (hok.machines i).described

end Fleets

/-! ### Two machines -/

/-- Two machines after their first start. -/
def twoMachines : Fleet Bool :=
  ⟨fun _ => ⟨⟨[], [110], 0, nodeStore, 0, [], .zero⟩, nodeDisk, [], [], none⟩, []⟩

theorem twoMachines_fresh : twoMachines.Fresh fun _ => [] :=
  ⟨rfl, fun _ => ⟨[], [110], nodeDir, _, _, newHost_firstHost, rfl⟩⟩

/-- One machine applies an entry and takes a snapshot; the other one, which has got to
    index nine, restores it. -/
def behindToAhead : List (FleetAction Bool) :=
  [.apply false 4 soloEntry, .snapshot false 0, .persist false 0 .none 1700 0,
    .apply true 9 [], .restore true 0 restoreStamp 0 0]

theorem fsmIndex_describes_store_behindToAhead :
    ∃ s, run (Fleet.step goJson sampleGzip fun _ => [])
        (fun s a => s.practicable (fun _ => []) a = true ∧ s.keepsIndex a = true)
        behindToAhead twoMachines = some s ∧
      (s.machines true).machine.fsmIndex = 4 ∧ (s.machines true).Described goJson := by
  have hindex : (run (Fleet.step goJson sampleGzip fun _ => [])
      (fun s a => s.practicable (fun _ => []) a = true ∧ s.keepsIndex a = true)
      behindToAhead twoMachines).map (fun s => (s.machines true).machine.fsmIndex) = some 4 := by
    decide +kernel
  obtain ⟨s, hrun, hfour⟩ := Option.map_eq_some_iff.mp hindex
  exact ⟨s, hrun, hfour, fsmIndex_describes_store sampleGzip_lawful
    (reached_run (.start twoMachines_fresh) hrun) true⟩

/-- A snapshot taken before the first entry is restored into a machine that has applied
    one: the store is empty again, the index still says one. -/
theorem fsmIndex_stale_after_restore :
    ∃ s, Reached (Fleet.step goJson sampleGzip fun _ => [])
        (fun s a => s.practicable (fun _ => []) a = true) (Fleet.Fresh fun _ => []) s ∧
      (s.machines true).history = [] ∧ (s.machines true).restoredAt = some 0 ∧
      (s.machines true).machine.fsmIndex = 1 ∧
      (s.machines true).fs[(s.machines true).machine.store.db]? = some (.dir (.database ∅)) ∧
      ¬ (s.machines true).Described goJson := by
  have hstale : (run (Fleet.step goJson sampleGzip fun _ => [])
      (fun s a => s.practicable (fun _ => []) a = true)
      [.snapshot false 0, .persist false 0 .none 1700 0, .apply true 1 soloEntry,
        .restore true 0 restoreStamp 0 0] twoMachines).any (fun s =>
          (s.machines true).history = [] ∧ (s.machines true).restoredAt = some 0 ∧
            (s.machines true).machine.fsmIndex = 1 ∧
            (s.machines true).fs[(s.machines true).machine.store.db]? =
              some (.dir (.database ∅))) = true := by
    decide +kernel
  obtain ⟨s, hrun, hfacts⟩ := (Option.any_eq_true ..).mp hstale
  obtain ⟨hhistory, hrestored, hone, hempty⟩ := of_decide_eq_true hfacts
  refine ⟨s, reached_run (.start twoMachines_fresh) hrun, hhistory, hrestored, hone, hempty, ?_⟩
  intro hdescribed
  have hzero := hdescribed.restoredAt 0 hrestored
  rw [hone] at hzero
  exact absurd hzero (by decide)

end RaftExample
