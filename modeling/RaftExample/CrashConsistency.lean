import RaftExample.FirstStart
import RaftExample.SnapshotRoundTrip
import RaftExample.StateMachine

/-!
# Crash consistency of the current database

A host is a disk and, while the process runs, a state machine on it.  It applies log
entries, restores snapshots, is killed at any operation of the package, and starts
again.  Through all of this the pointer file designates a database with the content
from before the interrupted step or from after it, and a start opens that database
and leaves no other.
-/

namespace RaftExample

/-! ### What the pointer file designates -/

/-- The directory an undisturbed `getCurrentDBDirName` finds. -/
def currentDir (cwd : Loc) (dir : Bytes) (fs : FS KV) : Option Loc :=
  match (getCurrentDBDirName .startup dir (.fair cwd) fs).1 with
  | .value (.ok path) => some (resolve cwd path)
  | _ => none

/-- The content of the database in that directory. -/
def designated (cwd : Loc) (dir : Bytes) (fs : FS KV) : Option KV :=
  match currentDir cwd dir fs with
  | none => none
  | some loc =>
    match fs[loc]? with
    | some (.dir (.database content)) => some content
    | _ => none

section Designated

variable {cwd cwd' : Loc} {dir : Bytes} {fs : FS KV} {name : Name} {node : Option (Node KV)}

theorem PointsTo.currentDir (h : PointsTo cwd dir fs name node) :
    currentDir cwd dir fs = some (resolve cwd dir ++ [name]) := by
  have hfair : (Env.fair cwd : Env Site).AllOk := Env.fair_allOk cwd
  have hread : (getCurrentDBDirName .startup dir).Ends (.fair cwd) fs _ _ :=
    getCurrentDBDirName_ends .startup (join_name_ne_nil dir name) h.pointer
  rcases hread.cases with ⟨_, _, hrun, -, ⟨-, rfl⟩ | ⟨hfail, -⟩⟩ | ⟨_, -, -, hcrash⟩
  · rw [RaftExample.currentDir, hrun]
    simp only [resolve_join]
  · exact absurd hfail (hfair.noFail _)
  · exact absurd hcrash (hfair.noCrash _)

theorem PointsTo.designated {content : KV} (h : Current cwd dir fs name content) :
    designated cwd dir fs = some content := by
  rw [RaftExample.designated, h.currentDir]
  simp only [h.entry]

/-- The working directory matters only as far as it decides what the base path means. -/
theorem PointsTo.of_cwd (h : PointsTo cwd dir fs name node)
    (hcwd : resolve cwd' dir = resolve cwd dir) : PointsTo cwd' dir fs name node := by
  obtain ⟨hbase, hpointer, hentry, hupdating, hproper⟩ := h
  rw [← hcwd] at hbase hpointer hentry hupdating
  exact ⟨hbase, hpointer, hentry, hupdating, hproper⟩

end Designated

/-! ### Applying an entry -/

/-- The content a restore of this stream installs. -/
def restoredContent (gz : Gzip) (stream : Bytes) (content : KV) : KV :=
  match readSnapshotHeader stream with
  | .error _ => content
  | .ok (_, rest) =>
    match parseRecords gz rest with
    | (records, .stop _) => applyBatch records ∅
    | _ => content

/-- The content a step that died may leave: the one from before it or the one from after
    it, and the latter unless the process was killed. -/
def OldOrNew (env : Env Site) (before after content : KV) : Prop :=
  (content = before ∨ content = after) ∧ (env.NoCrash → content = after)

section Effects

variable {json : Json} {gz : Gzip} {env : Env Site} {s : Store} {r : StateMachine} {fs : FS KV}
  {name : Name} {content : KV} {stream : Bytes}

theorem OldOrNew.new (before after : KV) : OldOrNew env before after after :=
  ⟨.inr rfl, fun _ => rfl⟩

theorem OldOrNew.old (before after : KV) (h : env.NoCrash → before = after) :
    OldOrNew env before after before :=
  ⟨.inl rfl, h⟩

theorem restoredContent_of_accepts {header : SnapshotHeader} {records : List (Bytes × Bytes)}
    (h : Accepts gz stream header records) :
    restoredContent gz stream content = applyBatch records ∅ := by
  obtain ⟨rest, reason, hheader, hparse⟩ := h
  simp only [restoredContent, hheader, hparse]

theorem restoredContent_of_not_accepts
    (h : ¬ ∃ header records, Accepts gz stream header records) :
    restoredContent gz stream content = content := by
  unfold restoredContent
  split
  · rfl
  · rename_i header rest hheader
    split
    · rename_i records reason hparse
      exact absurd ⟨header, records, rest, reason, hheader, hparse⟩ h
    · rfl

theorem insert_ends (henv : env.NoFail) (data : Bytes)
    (hserving : Serving env.cwd s fs name content) :
    (insert json s data).Ends env fs
      (fun _ fs' => Current env.cwd s.baseDir fs' name
        (match json.unmarshalPayload data with
          | none => content
          | some payload => insertContent payload content))
      (fun fs' => ¬ env.NoCrash ∧ Current env.cwd s.baseDir fs' name content) := by
  have hname := (hserving.dir_entry_ne hserving.entry).1
  unfold insert
  cases json.unmarshalPayload data with
  | none => exact Proc.Ends.pure hserving.toPointsTo
  | some payload =>
    apply Proc.Ends.bind
    refine Proc.Ends.commit hserving.lookup (fun _ => ?_) (fun h => absurd h (henv _))
      (fun h => ⟨fun hno => hno _ h, hserving.toPointsTo⟩)
    apply Proc.Ends.pure
    rw [hserving.handle]
    exact hserving.with_entry hname (.set fs (by simp) _) (FS.lookup_set_self ..)

/-- An entry is applied as a whole or not at all. -/
theorem applyCommand_ends (henv : env.NoFail) (data : Bytes)
    (hserving : Serving env.cwd s fs name content) :
    (applyCommand json s data).Ends env fs
      (fun _ fs' => Current env.cwd s.baseDir fs' name (appliedContent json data content))
      (fun fs' => ¬ env.NoCrash ∧ Current env.cwd s.baseDir fs' name content) := by
  unfold applyCommand appliedContent
  cases json.unmarshalCommand data with
  | none => exact Proc.Ends.pure hserving.toPointsTo
  | some command =>
    simp only
    by_cases hquery : command.type = cmdQuery
    · rw [if_pos hquery, if_neg (by simp [hquery, cmdQuery, cmdInsert])]
      exact Proc.Ends.look hserving.toPointsTo
    · rw [if_neg hquery]
      by_cases hinsert : command.type = cmdInsert
      · rw [if_pos hinsert, if_pos hinsert]
        apply Proc.Ends.bind
        apply (insert_ends henv command.payload hserving).weaken
        · intro _ fs' hcur
          exact Proc.Ends.pure hcur
        · intro fs' h
          exact h
      · rw [if_neg hinsert, if_neg hinsert]
        exact Proc.Ends.pure hserving.toPointsTo

theorem apply_ends (henv : env.NoFail) (index : UInt64) (data : Bytes)
    (hclosed : r.store.closed = false) (hserving : Serving env.cwd r.store fs name content) :
    (r.apply json index data).Ends env fs
      (fun result fs' => result.2 = { r with fsmIndex := index } ∧
        Current env.cwd r.store.baseDir fs' name (appliedContent json data content))
      (fun fs' => ¬ env.NoCrash ∧ Current env.cwd r.store.baseDir fs' name content) := by
  unfold StateMachine.apply
  rw [if_neg (by simp [hclosed])]
  apply Proc.Ends.bind
  apply (applyCommand_ends henv data hserving).weaken
  · intro _ fs' hcur
    exact Proc.Ends.pure ⟨rfl, hcur⟩
  · intro fs' h
    exact h

/-- `Apply` on a machine where nothing goes wrong. -/
theorem apply_fair {cwd : Loc} (index : UInt64) (data : Bytes) (hclosed : r.store.closed = false)
    (hserving : Serving cwd r.store fs name content) :
    ∃ resp fs', r.apply json index data (.fair cwd) fs =
        (.value (resp, { r with fsmIndex := index }), fs') ∧
      Serving cwd r.store fs' name (appliedContent json data content) := by
  have hfair : (Env.fair cwd : Env Site).AllOk := Env.fair_allOk cwd
  rcases (apply_ends hfair.noFail index data hclosed hserving).cases with
    ⟨⟨resp, r'⟩, fs', hrun, rfl, hcur⟩ | ⟨fs', -, hcrash, -⟩
  · exact ⟨resp, fs', hrun, hcur, hserving.handle⟩
  · exact absurd hfair.noCrash hcrash

/-- A restore of which no operation fails, killed or not: the old content, or the
    content of the stream. -/
theorem restore_ends (henv : env.NoFail) {stamp : Stamp} {startTime now : Int64}
    (hclosed : r.store.closed = false) (hserving : Serving env.cwd r.store fs name content)
    (hfresh : fs[targetOf env r.store stamp]? = none) :
    (r.restore gz stamp startTime now stream).Ends env fs
      (fun result fs' => result.2.store.closed = false ∧
        result.2.store.baseDir = r.store.baseDir ∧
        ∃ name', Serving env.cwd result.2.store fs' name' (restoredContent gz stream content))
      (fun fs' => ∃ name' content', Current env.cwd r.store.baseDir fs' name' content' ∧
        OldOrNew env content (restoredContent gz stream content) content') := by
  have hok : env.NoCrash → ∀ site, env.fate site = .ok := by
    intro hno site
    cases hfate : env.fate site with
    | ok => rfl
    | fail => exact absurd hfate (henv site)
    | crash => exact absurd hfate (hno site)
  unfold StateMachine.restore
  rw [if_neg (by simp [hclosed])]
  apply Proc.Ends.bind
  apply (recoverSnapShot_ends gz henv.dbWritesOk stream hserving.toPointsTo hfresh).weaken
  · rintro ⟨result, s'⟩ fs' hrestored
    rcases hrestored with ⟨hrefused, ⟨e, rfl⟩, rfl, hcur⟩ | ⟨header, records, hpub, hend⟩
    · rcases hrefused with hnone | ⟨site, -, hfail⟩
      · rw [restoredContent_of_not_accepts hnone]
        exact Proc.Ends.pure ⟨hclosed, rfl, name, hcur, hserving.handle⟩
      · exact absurd hfail (henv site)
    · rw [restoredContent_of_accepts hpub.1]
      rcases hend with ⟨-, -, hfail, -⟩ | ⟨rfl, -, hcur, hresult⟩
      · exact absurd hfail (henv _)
      · rcases hresult with ⟨rfl, -⟩ | ⟨⟨e, rfl⟩, -⟩
        · apply Proc.Ends.pure
          simp only [StateMachine.adopt_store]
          exact ⟨hclosed, trivial, _, hcur, rfl⟩
        · exact Proc.Ends.pure ⟨hclosed, rfl, _, hcur, rfl⟩
  · rintro fs' (⟨hcur, hdied⟩ | ⟨hcrash, header, records, haccepts, hfail | hcur⟩)
    · refine ⟨name, content, hcur, .old _ _ fun hno => ?_⟩
      refine (restoredContent_of_not_accepts ?_).symm
      rintro ⟨header, records, haccepts⟩
      rcases hdied hno with hover | ⟨-, site, -, hfate⟩
      · exact haccepts.not_overflows hover
      · exact hfate (hok hno site)
    · exact absurd hfail (henv _)
    · rw [restoredContent_of_accepts haccepts]
      exact ⟨_, _, hcur, .new ..⟩

end Effects

/-! ### Hosts -/

/-- A disk, and the state machine while the process runs. -/
structure Host where
  fs : FS KV
  machine : Option StateMachine

/-- What a host goes through.  A `kill` hits the process between two operations; inside
    one it is a matter of the environment. -/
inductive Op where
  | apply (index : UInt64) (data : Bytes)
  | restore (stamp : Stamp) (startTime now : Int64) (stream : Bytes)
  | kill
  | start (stamp : Stamp)

/-- A process that panics or is killed leaves its disk. -/
def Host.after {α : Type} (machineOf : α → Option StateMachine) : Outcome α × FS KV → Host
  | (.value a, fs) => ⟨fs, machineOf a⟩
  | (_, fs) => ⟨fs, none⟩

/-- One step of a host.  There is one process at a time: what it cannot do does not
    happen. -/
def Op.run (json : Json) (gz : Gzip) (raftAddr nodeId dir : Bytes) (op : Op) (env : Env Site)
    (host : Host) : Host :=
  match op, host.machine with
  | .apply index data, some r =>
      .after (fun result => some result.2) (r.apply json index data env host.fs)
  | .restore stamp startTime now stream, some r =>
      .after (fun result => some result.2) (r.restore gz stamp startTime now stream env host.fs)
  | .kill, _ => ⟨host.fs, none⟩
  | .start stamp, none =>
      .after Except.toOption (newStateMachine raftAddr nodeId dir stamp env host.fs)
  | _, _ => host

/-- The name a restore generates is not in use. -/
def Op.Fresh (cwd : Loc) (dir : Bytes) (fs : FS KV) : Op → Prop
  | .restore stamp _ _ _ => fs[resolve cwd dir ++ [stampName stamp]]? = none
  | _ => True

/-- What a step is for: the content when it is over. -/
def Op.effect (json : Json) (gz : Gzip) (host : Host) (content : KV) : Op → KV
  | .apply _ data => if host.machine.isSome then appliedContent json data content else content
  | .restore _ _ _ stream =>
      if host.machine.isSome then restoredContent gz stream content else content
  | _ => content

/-- The pointer designates a database with this content, and a running process has it
    open. -/
def Host.Holds (cwd : Loc) (dir : Bytes) (host : Host) (content : KV) : Prop :=
  ∃ name, Current cwd dir host.fs name content ∧
    ∀ r, host.machine = some r → r.store.baseDir = dir ∧ r.store.closed = false ∧
      r.store.db = resolve cwd dir ++ [name]

/-- The host as a step leaves it: a process that survived has done its work. -/
def Host.Settled (env : Env Site) (dir : Bytes) (before after : KV) (host : Host) : Prop :=
  ∃ content, host.Holds env.cwd dir content ∧ OldOrNew env before after content ∧
    (host.machine.isSome = true → content = after)

section Hosts

variable {json : Json} {gz : Gzip} {raftAddr nodeId dir : Bytes} {cwd : Loc} {env : Env Site}
  {fs : FS KV} {host : Host} {content : KV} {op : Op}

theorem Host.after_cases {α : Type} {m : Disk α} {post : α → FS KV → Prop}
    {crash : FS KV → Prop} (machineOf : α → Option StateMachine) (h : m.Ends env fs post crash) :
    (∃ a fs', Host.after machineOf (m env fs) = ⟨fs', machineOf a⟩ ∧ post a fs') ∨
      ∃ fs', Host.after machineOf (m env fs) = ⟨fs', none⟩ ∧ crash fs' := by
  rcases h.cases with ⟨a, fs', hrun, hend⟩ | ⟨fs', hrun | hrun, hend⟩
  · exact .inl ⟨a, fs', by rw [hrun]; rfl, hend⟩
  · exact .inr ⟨fs', by rw [hrun]; rfl, hend⟩
  · exact .inr ⟨fs', by rw [hrun]; rfl, hend⟩

theorem Host.after_ends {α : Type} {m : Disk α} {machineOf : α → Option StateMachine}
    {post : α → FS KV → Prop} {crash : FS KV → Prop} {holds : Host → Prop}
    (h : m.Ends env fs post crash) (hpost : ∀ a fs', post a fs' → holds ⟨fs', machineOf a⟩)
    (hcrash : ∀ fs', crash fs' → holds ⟨fs', none⟩) : holds (.after machineOf (m env fs)) := by
  rcases Host.after_cases machineOf h with ⟨a, fs', hrun, hend⟩ | ⟨fs', hrun, hend⟩
  · rw [hrun]
    exact hpost a fs' hend
  · rw [hrun]
    exact hcrash fs' hend

theorem Host.Holds.designated (h : host.Holds cwd dir content) :
    designated cwd dir host.fs = some content :=
  h.choose_spec.1.designated

theorem Host.Holds.lookup {r : StateMachine} (h : host.Holds cwd dir content)
    (hr : host.machine = some r) :
    r.store.closed = false ∧ host.fs[r.store.db]? = some (.dir (.database content)) := by
  obtain ⟨name, hcur, hmachine⟩ := h
  obtain ⟨-, hclosed, hhandle⟩ := hmachine r hr
  rw [hhandle]
  exact ⟨hclosed, hcur.entry⟩

theorem Host.Holds.with_machine {r r' : StateMachine} (h : host.Holds cwd dir content)
    (hr : host.machine = some r) (hstore : r'.store = r.store) :
    Host.Holds cwd dir ⟨host.fs, some r'⟩ content := by
  obtain ⟨name, hcur, hmachine⟩ := h
  refine ⟨name, hcur, ?_⟩
  intro r'' hr''
  obtain rfl := Option.some.inj hr''
  rw [hstore]
  exact hmachine r hr

/-- With the process gone, the disk decides. -/
theorem Host.holds_down {name : Name} (hcur : Current cwd dir fs name content) :
    Host.Holds cwd dir ⟨fs, none⟩ content :=
  ⟨name, hcur, fun _ h => by simp at h⟩

theorem Host.holds_up {r : StateMachine} {name : Name} (hclosed : r.store.closed = false)
    (hserving : Serving cwd r.store fs name content) :
    Host.Holds cwd r.store.baseDir ⟨fs, some r⟩ content := by
  refine ⟨name, hserving.toPointsTo, ?_⟩
  intro r' hr'
  obtain rfl := Option.some.inj hr'
  exact ⟨rfl, hclosed, hserving.handle⟩

theorem Host.settled_down {name : Name} {before after : KV} (hcur : Current env.cwd dir fs name content)
    (hcontent : OldOrNew env before after content) :
    Host.Settled env dir before after ⟨fs, none⟩ :=
  ⟨content, Host.holds_down hcur, hcontent, fun h => by simp at h⟩

theorem Host.Holds.settled {before : KV} (h : host.Holds env.cwd dir content) :
    Host.Settled env dir before content host :=
  ⟨content, h, .new .., fun _ => rfl⟩

/-- A process that is killed in `Apply` was killed before the commit. -/
theorem apply_after {r : StateMachine} {name : Name} (henv : env.NoFail) (index : UInt64)
    (data : Bytes) (hclosed : r.store.closed = false)
    (hserving : Serving env.cwd r.store fs name content) :
    (∃ fs' r', Host.after (fun result => some result.2) (r.apply json index data env fs) =
        ⟨fs', some r'⟩ ∧
      Host.Holds env.cwd r.store.baseDir ⟨fs', some r'⟩ (appliedContent json data content)) ∨
    (∃ fs', Host.after (fun result => some result.2) (r.apply json index data env fs) =
        ⟨fs', none⟩ ∧ ¬ env.NoCrash ∧ Host.Holds env.cwd r.store.baseDir ⟨fs', none⟩ content) := by
  rcases Host.after_cases (fun result => some result.2)
      (apply_ends henv index data hclosed hserving) with
    ⟨⟨response, r'⟩, fs', hrun, rfl, hcur⟩ | ⟨fs', hrun, hcrash, hcur⟩
  · exact .inl ⟨fs', _, hrun,
      Host.holds_up (r := { r with fsmIndex := index }) hclosed ⟨hcur, hserving.handle⟩⟩
  · exact .inr ⟨fs', hrun, hcrash, Host.holds_down hcur⟩

theorem apply_settled {r : StateMachine} {name : Name} (henv : env.NoFail) (index : UInt64)
    (data : Bytes) (hclosed : r.store.closed = false)
    (hserving : Serving env.cwd r.store fs name content) :
    Host.Settled env r.store.baseDir content (appliedContent json data content)
      (.after (fun result => some result.2) (r.apply json index data env fs)) := by
  rcases apply_after henv index data hclosed hserving with
    ⟨fs', r', hrun, hholds⟩ | ⟨fs', hrun, hcrash, hholds⟩
  · rw [hrun]
    exact hholds.settled
  · rw [hrun]
    exact ⟨content, hholds, .old _ _ fun hno => absurd hno hcrash, fun h => by simp at h⟩

theorem restore_settled {r : StateMachine} {name : Name} (henv : env.NoFail) {stamp : Stamp}
    (startTime now : Int64) (stream : Bytes) (hclosed : r.store.closed = false)
    (hserving : Serving env.cwd r.store fs name content)
    (hfresh : fs[targetOf env r.store stamp]? = none) :
    Host.Settled env r.store.baseDir content (restoredContent gz stream content)
      (.after (fun result => some result.2)
        (r.restore gz stamp startTime now stream env fs)) := by
  apply Host.after_ends (restore_ends henv hclosed hserving hfresh)
  · rintro ⟨result, r'⟩ fs' ⟨hclosed', hdir, name', hserving'⟩
    rw [← hdir]
    exact (Host.holds_up hclosed' hserving').settled
  · rintro fs' ⟨name', content', hcur, hcontent⟩
    exact Host.settled_down hcur hcontent

/-- A state machine starts as its store does. -/
theorem newStateMachine_ends {stamp : Stamp} {post : Except Err Store → FS KV → Prop}
    {crash : FS KV → Prop} (h : (newStore dir stamp).Ends env fs post crash) :
    (newStateMachine raftAddr nodeId dir stamp).Ends env fs
      (fun result fs' => post (result.map StateMachine.store) fs') crash := by
  unfold newStateMachine
  apply Proc.Ends.bind
  apply h.weaken
  · intro result fs' hpost
    cases result with
    | error e => exact Proc.Ends.pure hpost
    | ok s => exact Proc.Ends.pure hpost
  · intro fs' hcrash
    exact hcrash

theorem newStateMachine_settled {name : Name} (henv : env.NoFail) (stamp : Stamp)
    (hcur : Current env.cwd dir fs name content) :
    Host.Settled env dir content content
      (.after Except.toOption (newStateMachine raftAddr nodeId dir stamp env fs)) := by
  apply Host.after_ends (newStateMachine_ends (newStore_pointed_ends henv stamp hcur rfl))
  · rintro result fs' ⟨s, hresult, hdir, hclosed, hserving, -⟩
    cases result with
    | error e => simp [Except.map] at hresult
    | ok r =>
      obtain rfl : r.store = s := by simpa [Except.map] using hresult
      rw [← hdir]
      exact (Host.holds_up hclosed hserving).settled
  · rintro fs' ⟨-, hcur'⟩
    exact Host.settled_down hcur' (.new ..)

/-- One step of a host none of whose operations fails, killed anywhere. -/
theorem Host.Holds.step (h : host.Holds env.cwd dir content) (henv : env.NoFail)
    (hfresh : op.Fresh env.cwd dir host.fs) :
    Host.Settled env dir content (op.effect json gz host content)
      (op.run json gz raftAddr nodeId dir env host) := by
  obtain ⟨fs, machine⟩ := host
  have hidle : Host.Settled env dir content content ⟨fs, machine⟩ := h.settled
  obtain ⟨name, hcur, hmachine⟩ := h
  cases op with
  | kill => exact Host.settled_down hcur (.new ..)
  | apply index data =>
    cases machine with
    | none => exact hidle
    | some r =>
      obtain ⟨rfl, hclosed, hhandle⟩ := hmachine r rfl
      exact apply_settled henv index data hclosed ⟨hcur, hhandle⟩
  | restore stamp startTime now stream =>
    cases machine with
    | none => exact hidle
    | some r =>
      obtain ⟨rfl, hclosed, hhandle⟩ := hmachine r rfl
      exact restore_settled henv startTime now stream hclosed ⟨hcur, hhandle⟩ hfresh
  | start stamp =>
    cases machine with
    | some r => exact hidle
    | none => exact newStateMachine_settled henv stamp hcur

/-! ### Runs -/

theorem Host.Holds.of_cwd {cwd' : Loc} (h : host.Holds cwd dir content)
    (hcwd : resolve cwd' dir = resolve cwd dir) : host.Holds cwd' dir content := by
  obtain ⟨name, hcur, hmachine⟩ := h
  refine ⟨name, hcur.of_cwd hcwd, ?_⟩
  rw [hcwd]
  exact hmachine

/-- A host whose first start has just returned, after any number that were killed. -/
def NewHost (raftAddr nodeId : Bytes) (cwd : Loc) (dir : Bytes) (host : Host) : Prop :=
  ∃ (fs : FS KV) (attempts : List (Stamp × Env Site)) (stamp : Stamp) (env : Env Site)
    (r : StateMachine), Blank cwd dir fs ∧
    (∀ attempt ∈ attempts, attempt.2.NoFail ∧ attempt.2.cwd = cwd) ∧ env.NoFail ∧ env.cwd = cwd ∧
    newStateMachine raftAddr nodeId dir stamp env (afterAttempts dir attempts fs) =
      (.value (.ok r), host.fs) ∧ host.machine = some r

theorem NewHost.holds (h : NewHost raftAddr nodeId cwd dir host) : host.Holds cwd dir ∅ := by
  obtain ⟨fs', machine⟩ := host
  obtain ⟨fs, attempts, stamp, env, r, hblank, hattempts, henv, rfl, hrun, rfl⟩ := h
  rcases afterAttempts_unstarted attempts hattempts fs hblank.unstarted with
    ⟨-, name, hpoints⟩ | ⟨-, hstate | ⟨name, node, hpoints, hopened⟩⟩
  · have hresult := (newStateMachine_ends (newStore_orphaned_ends henv stamp hpoints)).value hrun
    simp [Except.map] at hresult
  · obtain ⟨-, -, s, hresult, rfl, hclosed, hserving⟩ :=
      (newStateMachine_ends (newStore_first_ends henv stamp hstate)).value hrun
    obtain rfl : r.store = s := by simpa [Except.map] using hresult
    exact Host.holds_up hclosed hserving
  · obtain ⟨s, hresult, rfl, hclosed, hserving, -⟩ :=
      (newStateMachine_ends (newStore_pointed_ends henv stamp hpoints hopened)).value hrun
    obtain rfl : r.store = s := by simpa [Except.map] using hresult
    exact Host.holds_up hclosed hserving

end Hosts

/-- The hosts reached from a new one without any operation failing.  Every step may be
    killed at any operation; a later process may run in another working directory, as
    long as the base path means the same there. -/
inductive Reaches (json : Json) (gz : Gzip) (raftAddr nodeId : Bytes) (cwd : Loc) (dir : Bytes) :
    Host → Prop
  | first {host : Host} (hnew : NewHost raftAddr nodeId cwd dir host) :
      Reaches json gz raftAddr nodeId cwd dir host
  | step {host : Host} {op : Op} {env : Env Site}
      (hreach : Reaches json gz raftAddr nodeId cwd dir host) (henv : env.NoFail)
      (hcwd : resolve env.cwd dir = resolve cwd dir) (hfresh : op.Fresh cwd dir host.fs) :
      Reaches json gz raftAddr nodeId cwd dir (op.run json gz raftAddr nodeId dir env host)

/-- An undisturbed start from this disk opens the database the pointer designates, with
    this content, and no other database directory is left beside it. -/
def StartsOn (cwd : Loc) (dir : Bytes) (fs : FS KV) (content : KV) : Prop :=
  ∀ stamp, ∃ s fs', newStore dir stamp (.fair cwd) fs = (.value (.ok s), fs') ∧
    s.closed = false ∧ currentDir cwd dir fs' = some s.db ∧
    fs'[s.db]? = some (.dir (.database content)) ∧
    ∀ name state, fs'[resolve cwd dir ++ [name]]? = some (.dir state) →
      resolve cwd dir ++ [name] = s.db

section Runs

variable {json : Json} {gz : Gzip} {raftAddr nodeId dir : Bytes} {cwd : Loc} {host : Host}
  {content : KV}

theorem Host.Holds.startsOn (h : host.Holds cwd dir content) :
    StartsOn cwd dir host.fs content := by
  intro stamp
  obtain ⟨name, hcur, -⟩ := h
  obtain ⟨s, fs', hrun, rfl, hclosed, hserving, honly⟩ := newStore_restart_fair cwd stamp hcur
  refine ⟨s, fs', hrun, hclosed, ?_, hserving.lookup, ?_⟩
  · rw [hserving.handle]
    exact hserving.currentDir
  · intro entry state hentry
    rw [hserving.handle, honly entry state hentry]

theorem Op.Fresh.of_cwd {cwd' : Loc} {fs : FS KV} {op : Op} (h : op.Fresh cwd dir fs)
    (hcwd : resolve cwd' dir = resolve cwd dir) : op.Fresh cwd' dir fs := by
  cases op with
  | restore stamp startTime now stream =>
    rw [Op.Fresh, hcwd]
    exact h
  | _ => trivial

/-- One step, with the directory named as at the first start. -/
theorem Host.Holds.run {env : Env Site} {op : Op} (h : host.Holds cwd dir content)
    (henv : env.NoFail) (hcwd : resolve env.cwd dir = resolve cwd dir)
    (hfresh : op.Fresh cwd dir host.fs) :
    ∃ content', (op.run json gz raftAddr nodeId dir env host).Holds cwd dir content' ∧
      OldOrNew env content (op.effect json gz host content) content' ∧
      ((op.run json gz raftAddr nodeId dir env host).machine.isSome = true →
        content' = op.effect json gz host content) := by
  obtain ⟨content', hholds, hcontent⟩ := (h.of_cwd hcwd).step henv (hfresh.of_cwd hcwd)
  exact ⟨content', hholds.of_cwd hcwd.symm, hcontent⟩

/-- `Apply` in particular: done if the process survived, not begun otherwise. -/
theorem Host.Holds.run_apply {env : Env Site} (h : host.Holds cwd dir content)
    (hup : host.machine.isSome = true) (henv : env.NoFail)
    (hcwd : resolve env.cwd dir = resolve cwd dir) (index : UInt64) (data : Bytes) :
    (∃ fs' r', (Op.apply index data).run json gz raftAddr nodeId dir env host = ⟨fs', some r'⟩ ∧
      Host.Holds cwd dir ⟨fs', some r'⟩ (appliedContent json data content)) ∨
    (∃ fs', (Op.apply index data).run json gz raftAddr nodeId dir env host = ⟨fs', none⟩ ∧
      Host.Holds cwd dir ⟨fs', none⟩ content) := by
  obtain ⟨fs, machine⟩ := host
  obtain ⟨r, rfl⟩ := Option.isSome_iff_exists.mp hup
  obtain ⟨name, hcur, hmachine⟩ := h.of_cwd hcwd
  obtain ⟨rfl, hclosed, hhandle⟩ := hmachine r rfl
  rcases apply_after henv index data hclosed ⟨hcur, hhandle⟩ with
    ⟨fs', r', hrun, hholds⟩ | ⟨fs', hrun, -, hholds⟩
  · exact .inl ⟨fs', r', hrun, hholds.of_cwd hcwd.symm⟩
  · exact .inr ⟨fs', hrun, hholds.of_cwd hcwd.symm⟩

/-- Every reached host holds some content: the invariant of the whole run. -/
theorem Reaches.holds (h : Reaches json gz raftAddr nodeId cwd dir host) :
    ∃ content, host.Holds cwd dir content := by
  induction h with
  | first hnew => exact ⟨∅, hnew.holds⟩
  | step _ henv hcwd hfresh ih =>
    obtain ⟨content, hholds⟩ := ih
    obtain ⟨content', hholds', -⟩ := hholds.run henv hcwd hfresh
    exact ⟨content', hholds'⟩

/-- In every reached host the pointer designates a database, and a running process has
    it open.  Whatever is done next, and wherever it is killed, the pointer designates
    the content from before it or the content it has when it is not killed.  A start
    opens the designated content and leaves no other database. -/
theorem current_pointer_crash_consistent (hreach : Reaches json gz raftAddr nodeId cwd dir host) :
    ∃ content, designated cwd dir host.fs = some content ∧
      (∀ r, host.machine = some r → host.fs[r.store.db]? = some (.dir (.database content))) ∧
      (∀ (op : Op) (env : Env Site), env.NoFail → resolve env.cwd dir = resolve cwd dir →
        op.Fresh cwd dir host.fs →
        ∃ after, designated cwd dir
            (op.run json gz raftAddr nodeId dir (.fair env.cwd) host).fs = some after ∧
          (designated cwd dir (op.run json gz raftAddr nodeId dir env host).fs = some content ∨
            designated cwd dir (op.run json gz raftAddr nodeId dir env host).fs = some after)) ∧
      ∀ cwd', resolve cwd' dir = resolve cwd dir → StartsOn cwd' dir host.fs content := by
  obtain ⟨content, hholds⟩ := hreach.holds
  refine ⟨content, hholds.designated, fun r hr => (hholds.lookup hr).2, ?_,
    fun cwd' hcwd' => (hholds.of_cwd hcwd').startsOn⟩
  · intro op env henv hcwd hfresh
    have hfair : (Env.fair env.cwd : Env Site).AllOk := Env.fair_allOk env.cwd
    obtain ⟨after, hafter, ⟨-, hnew⟩, -⟩ := hholds.run hfair.noFail hcwd hfresh
    obtain ⟨content', hholds', ⟨hcontent, -⟩, -⟩ := hholds.run henv hcwd hfresh
    refine ⟨after, hafter.designated, ?_⟩
    rw [hholds'.designated, hnew hfair.noCrash]
    exact hcontent.imp (congrArg some) (congrArg some)

end Runs

/-- A host after its first start. -/
def firstHost : Host :=
  ⟨nodeDisk, some ⟨[], [110], 0, nodeStore, 0, [], .zero⟩⟩

theorem newHost_firstHost : NewHost [] [110] [] nodeDir firstHost := by
  have hrun : (newStateMachine [] [110] nodeDir nodeStamp (.fair []) ∅).1 =
      .value (.ok ⟨[], [110], 0, nodeStore, 0, [], .zero⟩) := by decide +kernel
  have hdisk : (newStateMachine [] [110] nodeDir nodeStamp (.fair []) ∅).2 = nodeDisk := by
    decide +kernel
  have hfair : (Env.fair [] : Env Site).AllOk := Env.fair_allOk []
  exact ⟨∅, [], nodeStamp, .fair [], _, blank_empty, by simp, hfair.noFail, rfl,
    Prod.ext hrun hdisk, rfl⟩

/-- A restore is killed right after the rename. -/
theorem pointer_after_killed_restore :
    ∃ content, designated [] nodeDir
        ((Op.restore restoreStamp 0 0 oneRecord).run goJson sampleGzip [] [110] nodeDir
          (killAt .syncReplaced) firstHost).fs = some content ∧
      StartsOn [] nodeDir ((Op.restore restoreStamp 0 0 oneRecord).run goJson sampleGzip []
        [110] nodeDir (killAt .syncReplaced) firstHost).fs content := by
  have hfresh : (Op.restore restoreStamp 0 0 oneRecord).Fresh [] nodeDir firstHost.fs := by
    change nodeDisk[resolve [] nodeDir ++ [stampName restoreStamp]]? = none
    decide +kernel
  obtain ⟨content, hdesignated, -, -, hstarts⟩ := current_pointer_crash_consistent
    (Reaches.step (.first newHost_firstHost) (killAt_noFail .syncReplaced) rfl hfresh)
  exact ⟨content, hdesignated, hstarts [] rfl⟩

end RaftExample
