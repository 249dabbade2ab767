import RaftExample.CrashConsistency
import RaftExample.Interleaving

/-!
# A node keeps to its own directory

Several nodes may share a data directory: each has its databases in `user_data` and raft's
files in `meta_data` under its node ID.  The store of a node removes whole trees, on a
start and after a restore, by paths it reads from the disk.  Whatever fails and wherever
the process is killed, nothing outside the node's `user_data` is touched.
-/

namespace RaftExample

/-! ### Inside a base directory -/

/-- Neither in the tree under the base directory nor above it. -/
def Outside (base loc : Loc) : Prop := ¬ base <+: loc ∧ ¬ loc <+: base

/-- A pointer file that can be read names an entry of the base directory. -/
def PointerInside (cwd : Loc) (dir : Bytes) (fs : FS KV) : Prop :=
  ∀ data path, fs[resolve cwd dir ++ [currentDBFilename]]? = some (.file data) →
    decodePointer data = .ok path → ∃ name : Name, path = join dir name.bytes

/-- What the node has done to the disk so far: nothing outside, and its pointer file is
    good or useless. -/
structure Inside (cwd : Loc) (dir : Bytes) (fs₀ fs : FS KV) : Prop where
  keeps : FS.Keeps (Outside (resolve cwd dir)) fs₀ fs
  pointer : PointerInside cwd dir fs

theorem not_outside_of_isPrefixOf {base loc other : Loc} (hbase : base <+: loc) (h : loc <+: other) :
    ¬ Outside base other := fun hout => hout.1 (hbase.trans h)

/-- Directories are made, never files. -/
theorem FS.file_of_mkdirAll {γ : Type} (fs : FS γ) {loc other : Loc} {data : Bytes}
    (h : (fs.mkdirAll loc)[other]? = some (.file data)) : fs[other]? = some (.file data) := by
  unfold FS.mkdirAll at h
  revert h
  induction loc.inits.drop 1 generalizing fs with
  | nil => exact id
  | cons path paths ih =>
    intro h
    rw [List.foldl_cons] at h
    have hstep := ih _ h
    split at hstep
    · exact hstep
    · rw [FS.lookup_set] at hstep
      split at hstep
      · simp at hstep
      · exact hstep

theorem FS.file_of_unlinkContents {γ : Type} (fs : FS γ) {loc other : Loc} {data : Bytes}
    (h : (fs.unlinkContents loc)[other]? = some (.file data)) : fs[other]? = some (.file data) := by
  have hkept : (fs.filter fun other _ => !below loc other : FS γ)[other]? = some (.file data) →
      fs[other]? = some (.file data) := by
    intro hfile
    rw [Std.ExtTreeMap.getElem?_filter', Option.filter_eq_some_iff] at hfile
    exact hfile.1
  unfold FS.unlinkContents at h
  split at h
  · rw [FS.lookup_set] at h
    split at h
    · simp at h
    · exact hkept h
  · exact hkept h

namespace Inside

variable {cwd : Loc} {dir : Bytes} {fs₀ fs fs' : FS KV} {loc : Loc}

/-- A change inside the base directory that makes no pointer. -/
theorem change (h : Inside cwd dir fs₀ fs) (hkeeps : FS.Keeps (Outside (resolve cwd dir)) fs fs')
    (hpointer : ∀ data, fs'[resolve cwd dir ++ [currentDBFilename]]? = some (.file data) →
      fs[resolve cwd dir ++ [currentDBFilename]]? = some (.file data)) :
    Inside cwd dir fs₀ fs' where
  keeps := h.keeps.trans hkeeps
  pointer data path hdata hpath := h.pointer data path (hpointer data hdata) hpath

theorem setDir (h : Inside cwd dir fs₀ fs) (hloc : resolve cwd dir <+: loc) (state : DirState KV) :
    Inside cwd dir fs₀ (fs.set loc (.dir state)) := by
  apply h.change (.set fs (not_outside_of_isPrefixOf hloc (List.prefix_refl _)) _)
  intro data hdata
  rw [FS.lookup_set] at hdata
  split at hdata
  · simp at hdata
  · exact hdata

theorem mkdirAll (h : Inside cwd dir fs₀ fs)
    (hloc : resolve cwd dir <+: loc ∨ loc <+: resolve cwd dir) :
    Inside cwd dir fs₀ (fs.mkdirAll loc) := by
  apply h.change
  · intro other hother
    apply FS.lookup_mkdirAll_of_not_prefix
    intro habove
    rcases hloc with hbelow | hbelow
    · rcases List.prefix_or_prefix_of_prefix hbelow habove with hout | hout
      · exact hother.1 hout
      · exact hother.2 hout
    · exact hother.2 (habove.trans hbelow)
  · intro data hdata
    exact fs.file_of_mkdirAll hdata

theorem unlinkContents (h : Inside cwd dir fs₀ fs) (hloc : resolve cwd dir <+: loc) :
    Inside cwd dir fs₀ (fs.unlinkContents loc) := by
  apply h.change (.unlinkContents fs fun _ => not_outside_of_isPrefixOf hloc)
  intro data hdata
  exact fs.file_of_unlinkContents hdata

theorem unlink (h : Inside cwd dir fs₀ fs) (hloc : resolve cwd dir <+: loc) :
    Inside cwd dir fs₀ (fs.unlink loc) := by
  apply h.change (.unlink fs fun _ => not_outside_of_isPrefixOf hloc)
  intro data hdata
  rw [FS.lookup_unlink] at hdata
  split at hdata
  · simp at hdata
  · exact hdata

theorem onlyUpdating (h : Inside cwd dir fs₀ fs) (honly : OnlyUpdating cwd dir fs fs') :
    Inside cwd dir fs₀ fs' := by
  have hcurrent : resolve cwd dir ++ [currentDBFilename] ≠
      resolve cwd dir ++ [updatingDBFilename] := by simpa using updating_ne_current.symm
  apply h.change
  · apply honly.1.mono
    rintro other hother rfl
    exact hother.1 (List.prefix_append ..)
  · intro data hdata
    rwa [honly.1 _ hcurrent] at hdata

/-- Renaming a pointer into place. -/
theorem renamed (h : Inside cwd dir fs₀ fs) (name : Name) :
    Inside cwd dir fs₀ (renamedPointer cwd dir (pointerContent (join dir name.bytes)) fs) where
  keeps := by
    apply h.keeps.trans
    intro other hother
    apply lookup_renamedPointer
    · rintro rfl
      exact hother.1 (List.prefix_append ..)
    · rintro rfl
      exact hother.1 (List.prefix_append ..)
  pointer := by
    intro data path hdata hpath
    rw [renamedPointer, FS.lookup_set_self] at hdata
    obtain rfl : pointerContent (join dir name.bytes) = data := by simpa using hdata
    rw [decodePointer_pointerContent (join_name_ne_nil dir name)] at hpath
    exact ⟨name, (Except.ok.inj hpath).symm⟩

end Inside

/-! ### The functions of the package -/

section Functions

variable {env : Env Site} {dir : Bytes} {fs₀ : FS KV}

/-- An entry of the base directory is removed. -/
theorem removeEntry_preserves (contents entry : Site) (name : Name) :
    (Proc.removeAll contents entry (join dir name.bytes)).Preserves env (Inside env.cwd dir fs₀)
      fun _ => True := by
  have hloc : resolve env.cwd dir <+: resolve env.cwd (join dir name.bytes) := by
    rw [resolve_join]
    exact List.prefix_append ..
  exact .removeAll (fun _ h => h.unlinkContents hloc) fun _ h => h.unlink hloc

/-- What the pointer file is read as. -/
theorem getCurrentDBDirName_preserves (reader : PointerReader) :
    (getCurrentDBDirName reader dir).Preserves env (Inside env.cwd dir fs₀)
      fun result => ∀ path, result = .ok path → ∃ name : Name, path = join dir name.bytes := by
  have hread : (Proc.readFile (.readPointer reader) (join dir currentDBFilename.bytes)).Preserves
      env (Inside env.cwd dir fs₀) fun result => ∀ data path, result = .ok data →
        decodePointer data = .ok path → ∃ name : Name, path = join dir name.bytes := by
    refine Proc.Preserves.perform (fun fs hfs => ?_) (by simp)
    cases hnode : fs[resolve env.cwd (join dir currentDBFilename.bytes)]? with
    | none => exact ⟨hfs, by simp⟩
    | some node =>
      cases node with
      | dir state => exact ⟨hfs, by simp⟩
      | file data =>
        rw [resolve_join] at hnode
        refine ⟨hfs, ?_⟩
        rintro data' path hdata
        obtain rfl := Except.ok.inj hdata
        exact hfs.pointer data path hnode
  refine hread.bind fun result hresult => ?_
  cases result with
  | error e => exact .pure (by simp)
  | ok data => exact .pure fun path => hresult data path rfl

theorem saveCurrentDBDirName_inside (dbdir : Bytes) {fs : FS KV} (h : Inside env.cwd dir fs₀ fs) :
    (saveCurrentDBDirName dir dbdir).Ends env fs
      (fun result fs' => Inside env.cwd dir fs₀ fs' ∧ (result = .ok () →
        fs'.isDir (resolve env.cwd dir) = true ∧
        fs'[resolve env.cwd dir ++ [updatingDBFilename]]? = some (.file (pointerContent dbdir))))
      (Inside env.cwd dir fs₀) := by
  by_cases hready : fs.isDir (resolve env.cwd dir ++ [updatingDBFilename]) = false ∧
      fs.isDir (resolve env.cwd dir) = true
  · apply (saveCurrentDBDirName_ends hready.2 hready.1).weaken
    · rintro result fs' ⟨honly, hresult⟩
      refine ⟨h.onlyUpdating honly, ?_⟩
      rintro rfl
      rcases hresult with ⟨-, -, hcontent⟩ | ⟨⟨e, he⟩, -⟩
      · refine ⟨?_, hcontent⟩
        rw [honly.1.isDir (by simp)]
        exact hready.2
      · simp at he
    · rintro fs' ⟨honly, -⟩
      exact h.onlyUpdating honly
  -- there is no place for the temporary file
  · unfold saveCurrentDBDirName
    apply Proc.Ends.bind
    refine Proc.Ends.perform (fun _ => ?_) (fun _ => Proc.Ends.pure ⟨h, by simp⟩) fun _ => h
    simp only [resolve_join, List.dropLast_concat]
    cases hupdating : fs.isDir (resolve env.cwd dir ++ [updatingDBFilename]) with
    | true => exact Proc.Ends.pure ⟨h, by simp⟩
    | false =>
      cases hbase : fs.isDir (resolve env.cwd dir) with
      | true => exact absurd ⟨hupdating, hbase⟩ hready
      | false => exact Proc.Ends.pure ⟨h, by simp⟩

/-- The two steps that publish a directory of the node. -/
theorem publish_inside {α : Type} (name : Name) {save : Err → Disk α} {done : Disk α}
    {fail : Err → Disk α} {post : α → Prop}
    (hsave : ∀ e, (save e).Preserves env (Inside env.cwd dir fs₀) post)
    (hfail : ∀ e, (fail e).Preserves env (Inside env.cwd dir fs₀) post)
    (hdone : done.Preserves env (Inside env.cwd dir fs₀) post) :
    (do
      match ← saveCurrentDBDirName dir (join dir name.bytes) with
      | .error e => save e
      | .ok () =>
        match ← replaceCurrentDBFile dir with
        | .error e => fail e
        | .ok () => done : Disk α).Preserves env (Inside env.cwd dir fs₀) post := by
  intro fs h
  apply Proc.Ends.bind
  apply (saveCurrentDBDirName_inside (join dir name.bytes) h).weaken
  · rintro result fs₁ ⟨h₁, hresult⟩
    cases result with
    | error e => exact hsave e fs₁ h₁
    | ok u =>
      obtain ⟨hbase, hfile⟩ := hresult rfl
      apply Proc.Ends.bind
      apply (replaceCurrentDBFile_ends hbase hfile).weaken
      · rintro result fs₂ (⟨-, rfl, rfl⟩ | ⟨-, rfl, ⟨-, rfl⟩ | ⟨-, rfl⟩⟩)
        · exact hfail _ _ h₁
        · exact hdone _ (h₁.renamed name)
        · exact hfail _ _ (h₁.renamed name)
      · rintro fs₂ (⟨-, rfl⟩ | ⟨-, -, rfl⟩)
        · exact h₁
        · exact h₁.renamed name
  · intro fs₁ h₁
    exact h₁

/-- A path that was read from the pointer file, or made for it. -/
def EntryPath (dir : Bytes) (result : Except Err Bytes) : Prop :=
  ∀ path, result = .ok path → ∃ name : Name, path = join dir name.bytes

theorem publishFreshDir_preserves (stamp : Stamp) :
    (publishFreshDir dir stamp).Preserves env (Inside env.cwd dir fs₀) (EntryPath dir) := by
  refine publish_inside (stampName stamp) (fun e => .pure ?_) (fun e => .pure ?_) (.pure ?_)
  · simp [EntryPath]
  · simp [EntryPath]
  · intro path hpath
    exact ⟨stampName stamp, (Except.ok.inj hpath).symm⟩

theorem removeStrays_preserves (dbdir : Bytes) (files : List (Name × Bool)) :
    (removeStrays dir dbdir files).Preserves env (Inside env.cwd dir fs₀) fun _ => True := by
  induction files with
  | nil => exact .pure trivial
  | cons file files ih =>
    obtain ⟨name, isDirectory⟩ := file
    unfold removeStrays
    split
    · exact ih
    · refine (removeEntry_preserves _ _ name).andThen fun result => ?_
      cases result with
      | error e => exact .pure trivial
      | ok u => exact ih

theorem cleanupNodeDataDir_preserves :
    (cleanupNodeDataDir dir).Preserves env (Inside env.cwd dir fs₀) fun _ => True := by
  unfold cleanupNodeDataDir
  refine (removeEntry_preserves _ _ updatingDBFilename).andThen fun _ => ?_
  refine (getCurrentDBDirName_preserves .cleanup).bind fun result _ => ?_
  cases result with
  | error e => exact .pure trivial
  | ok dbdir =>
    have hlist : (Proc.readDir .listBase dir : Disk _).Preserves env (Inside env.cwd dir fs₀)
        fun _ => True := by
      refine .observe fun fs => ?_
      simp only
      split <;> rfl
    refine hlist.andThen fun files => ?_
    cases files with
    | error e => exact .pure trivial
    | ok files => exact removeStrays_preserves dbdir files

theorem reuseCurrentDir_preserves :
    (reuseCurrentDir dir).Preserves env (Inside env.cwd dir fs₀) (EntryPath dir) := by
  unfold reuseCurrentDir
  refine cleanupNodeDataDir_preserves.andThen fun result => ?_
  cases result with
  | error e => exact .pure (by simp [EntryPath])
  | ok u =>
    refine (getCurrentDBDirName_preserves .startup).bind fun result hresult => ?_
    cases result with
    | error e => exact .pure (by simp [EntryPath])
    | ok dbdir =>
      refine (Proc.Preserves.observe fun fs => rfl).andThen fun found => ?_
      split
      · exact .pure (by simp [EntryPath])
      · exact .pure hresult

theorem getPebbleDBDir_preserves (stamp : Stamp) :
    (getPebbleDBDir dir stamp).Preserves env (Inside env.cwd dir fs₀) (EntryPath dir) := by
  have hnew : (isNewRun dir).Preserves env (Inside env.cwd dir fs₀) fun _ => True := by
    refine (Proc.Preserves.observe fun fs => rfl).andThen fun found => ?_
    split
    · exact .pure trivial
    · exact .pure trivial
  refine hnew.andThen fun fresh => ?_
  split
  · exact publishFreshDir_preserves stamp
  · exact reuseCurrentDir_preserves

theorem openEntry_preserves (name : Name) :
    (Proc.openDatabase .makeDbDir .initDb (join dir name.bytes) : Disk _).Preserves env
      (Inside env.cwd dir fs₀)
      fun result => ∀ db, result = .ok db → db = resolve env.cwd dir ++ [name] := by
  have hloc : resolve env.cwd dir <+: resolve env.cwd dir ++ [name] := List.prefix_append ..
  unfold Proc.openDatabase
  refine (Proc.Preserves.mkdirAll fun fs h => ?_).andThen fun made => ?_
  · rw [resolve_join]
    exact h.mkdirAll (.inl hloc)
  · cases made with
    | error e => exact .pure (by simp)
    | ok u =>
      refine .perform (fun fs h => ?_) (by simp)
      simp only [resolve_join]
      split
      · exact ⟨h.setDir hloc _, fun db hdb => (Except.ok.inj hdb).symm⟩
      · exact ⟨h, fun db hdb => (Except.ok.inj hdb).symm⟩
      · exact ⟨h, by simp⟩

/-- The store of the node, with its database in the base directory. -/
structure Store.Within (cwd : Loc) (dir : Bytes) (s : Store) : Prop where
  base : s.baseDir = dir
  handle : resolve cwd dir <+: s.db

theorem newStore_preserves (stamp : Stamp) :
    (newStore dir stamp).Preserves env (Inside env.cwd dir fs₀)
      fun result => ∀ s, result = .ok s → s.Within env.cwd dir := by
  unfold newStore
  refine (Proc.Preserves.mkdirAll fun fs h => h.mkdirAll (.inl (List.prefix_refl _))).andThen
    fun made => ?_
  cases made with
  | error e => exact .pure (by simp)
  | ok u =>
    refine (getPebbleDBDir_preserves stamp).bind fun result hresult => ?_
    cases result with
    | error e => exact .pure (by simp)
    | ok dbdir =>
      obtain ⟨name, rfl⟩ := hresult dbdir rfl
      refine (openEntry_preserves name).bind fun opened hopened => ?_
      cases opened with
      | error e => exact .pure (by simp)
      | ok db =>
        refine .pure fun s hs => ?_
        obtain rfl := Except.ok.inj hs
        refine ⟨rfl, ?_⟩
        rw [hopened db rfl]
        exact List.prefix_append ..

/-- A batch goes to a database in the base directory. -/
theorem commit_preserves (site : Site) {handle : Loc} (hhandle : resolve env.cwd dir <+: handle)
    (batch : KV → KV) :
    (Proc.commit site handle batch : Disk _).Preserves env (Inside env.cwd dir fs₀)
      fun _ => True := by
  refine .perform (fun fs h => ⟨?_, trivial⟩) trivial
  split
  · exact h.setDir hhandle _
  · exact h

theorem recoverLoop_preserves (gz : Gzip) {newdb : Loc} (hnew : resolve env.cwd dir <+: newdb)
    (fuel : Nat) (st : LoadState) (stream : Bytes) :
    (recoverLoop gz newdb fuel st stream).Preserves env (Inside env.cwd dir fs₀) fun _ => True := by
  induction fuel generalizing st stream with
  | zero => exact .panic
  | succ fuel ih =>
    unfold recoverLoop
    split
    · exact .pure trivial
    · exact .pure trivial
    · exact .panic
    · have hput : ∀ (st : LoadState) (key value : Bytes), (putRecord st key value).Preserves env
          (Inside env.cwd dir fs₀) fun _ => True := by
        intro st key value
        refine Proc.Preserves.settle.andThen fun result => ?_
        cases result with
        | error e => exact .pure trivial
        | ok u => exact .pure trivial
      refine (hput _ _ _).andThen fun st => ?_
      split
      · refine Proc.Preserves.andThen ?_ fun st => ih st _
        exact (commit_preserves _ hnew _).andThen fun _ => .pure trivial
      · exact ih st _

theorem loadRecords_preserves (gz : Gzip) {newdb : Loc} (hnew : resolve env.cwd dir <+: newdb)
    (stream : Bytes) :
    (loadRecords gz newdb stream).Preserves env (Inside env.cwd dir fs₀) fun _ => True := by
  unfold loadRecords
  refine (recoverLoop_preserves gz hnew _ _ _).andThen fun result => ?_
  cases result with
  | error e => exact .pure trivial
  | ok st =>
    have hflush : (do
        let _ ← Proc.settle .flushNew
        return .ok () : Disk (Except Err Unit)).Preserves env (Inside env.cwd dir fs₀)
          fun _ => True := Proc.Preserves.settle.andThen fun _ => .pure trivial
    dsimp only
    split
    · refine Proc.Preserves.andThen ?_ fun _ => hflush
      exact (commit_preserves _ hnew _).andThen fun _ => .pure trivial
    · exact hflush

theorem cleanupNewDB_preserves (name : Name) :
    (cleanupNewDB (join dir name.bytes)).Preserves env (Inside env.cwd dir fs₀) fun _ => True :=
  Proc.Preserves.settle.andThen fun _ =>
    (removeEntry_preserves _ _ name).andThen fun _ => .pure trivial

/-- `recoverSnapShot` after it gave up on the new database. -/
theorem giveUp_preserves {s : Store} (h : s.Within env.cwd dir) (name : Name) (e : Err) :
    (do
      cleanupNewDB (join dir name.bytes)
      return (.error e, s) : Disk (Except Err SnapshotHeader × Store)).Preserves env
        (Inside env.cwd dir fs₀) fun result => result.2.Within env.cwd dir :=
  (cleanupNewDB_preserves name).andThen fun _ => .pure h

theorem dropOldDB_preserves {s : Store} (h : s.Within env.cwd dir) (header : SnapshotHeader)
    (name : Name) :
    (dropOldDB s header (join dir name.bytes)).Preserves env (Inside env.cwd dir fs₀)
      fun result => result.2.Within env.cwd dir := by
  refine Proc.Preserves.settle.andThen fun _ => ?_
  refine (removeEntry_preserves _ _ name).andThen fun result => ?_
  cases result with
  | error e => exact .pure h
  | ok u =>
    refine (Proc.Preserves.observe fun fs => rfl).andThen fun synced => ?_
    cases synced with
    | error e => exact .pure h
    | ok u => exact .pure h

theorem recoverSnapShot_preserves (gz : Gzip) {s : Store} (h : s.Within env.cwd dir) (stamp : Stamp)
    (stream : Bytes) :
    (recoverSnapShot gz s stamp stream).Preserves env (Inside env.cwd dir fs₀)
      fun result => result.2.Within env.cwd dir := by
  obtain ⟨baseDir, db, closed⟩ := s
  obtain rfl : baseDir = dir := h.base
  unfold recoverSnapShot
  split
  · exact .pure h
  · rename_i header rest _
    refine (getCurrentDBDirName_preserves .restore).bind fun result hresult => ?_
    cases result with
    | error e => exact .pure h
    | ok oldDirName =>
      obtain ⟨old, rfl⟩ := hresult oldDirName rfl
      refine (openEntry_preserves (stampName stamp)).bind fun opened hopened => ?_
      cases opened with
      | error e => exact .pure h
      | ok newdb =>
        have hnew : resolve env.cwd baseDir <+: newdb := by
          rw [hopened newdb rfl]
          exact List.prefix_append ..
        refine (loadRecords_preserves gz hnew rest).andThen fun loaded => ?_
        cases loaded with
        | error e => exact giveUp_preserves h (stampName stamp) e
        | ok u =>
          refine publish_inside (stampName stamp) (giveUp_preserves h (stampName stamp))
            (giveUp_preserves h (stampName stamp)) ?_
          exact dropOldDB_preserves ⟨rfl, hnew⟩ header old

theorem apply_preserves (json : Json) {r : StateMachine} (h : r.store.Within env.cwd dir)
    (index : UInt64) (data : Bytes) :
    (r.apply json index data).Preserves env (Inside env.cwd dir fs₀)
      fun result => result.2.store.Within env.cwd dir := by
  have hinsert : ∀ data, (insert json r.store data).Preserves env (Inside env.cwd dir fs₀)
      fun _ => True := by
    intro data
    unfold insert
    split
    · exact .pure trivial
    · refine (commit_preserves _ h.handle _).andThen fun result => ?_
      cases result with
      | error e => exact .pure trivial
      | ok u => exact .pure trivial
  have hcommand : (applyCommand json r.store data).Preserves env (Inside env.cwd dir fs₀)
      fun _ => True := by
    unfold applyCommand
    split
    · exact .pure trivial
    · split
      · exact .look fun _ _ => trivial
      · split
        · exact (hinsert _).andThen fun _ => .pure trivial
        · exact .pure trivial
  unfold StateMachine.apply
  split
  · exact .pure h
  · exact hcommand.andThen fun _ => .pure h

theorem restore_preserves (gz : Gzip) {r : StateMachine} (h : r.store.Within env.cwd dir)
    (stamp : Stamp) (startTime now : Int64) (reader : Bytes) :
    (r.restore gz stamp startTime now reader).Preserves env (Inside env.cwd dir fs₀)
      fun result => result.2.store.Within env.cwd dir := by
  unfold StateMachine.restore
  split
  · exact .pure h
  · refine (recoverSnapShot_preserves gz h stamp reader).bind fun result hresult => ?_
    obtain ⟨result, store⟩ := result
    cases result with
    | error e => exact .pure hresult
    | ok header => exact .pure (by simpa using hresult)

theorem newStateMachine_preserves (raftAddr nodeId : Bytes) (stamp : Stamp) :
    (newStateMachine raftAddr nodeId dir stamp).Preserves env (Inside env.cwd dir fs₀)
      fun result => ∀ r, result = .ok r → r.store.Within env.cwd dir := by
  unfold newStateMachine
  refine (newStore_preserves stamp).bind fun result hresult => ?_
  cases result with
  | error e => exact .pure (by simp)
  | ok store =>
    refine .pure fun r hr => ?_
    obtain rfl := Except.ok.inj hr
    exact hresult store rfl

end Functions

/-! ### Hosts -/

/-- The node of a host has kept to its base directory. -/
structure Host.Within (cwd : Loc) (dir : Bytes) (fs₀ : FS KV) (host : Host) : Prop where
  disk : Inside cwd dir fs₀ host.fs
  store : ∀ r, host.machine = some r → r.store.Within cwd dir

section Hosts

variable {cwd : Loc} {dir : Bytes} {fs₀ : FS KV} {host : Host}

theorem Host.Within.of_cwd {cwd' : Loc} (h : host.Within cwd dir fs₀)
    (hcwd : resolve cwd' dir = resolve cwd dir) : host.Within cwd' dir fs₀ := by
  obtain ⟨⟨hkeeps, hpointer⟩, hstore⟩ := h
  refine ⟨⟨?_, ?_⟩, fun r hr => ⟨(hstore r hr).base, ?_⟩⟩
  · rw [hcwd]
    exact hkeeps
  · rw [PointerInside, hcwd]
    exact hpointer
  · rw [hcwd]
    exact (hstore r hr).handle

theorem Host.within_after {α : Type} {env : Env Site} {fs : FS KV} {m : Disk α} {post : α → Prop}
    {machineOf : α → Option StateMachine} (hm : m.Preserves env (Inside env.cwd dir fs₀) post)
    (hfs : Inside env.cwd dir fs₀ fs)
    (hpost : ∀ a, post a → ∀ r, machineOf a = some r → r.store.Within env.cwd dir) :
    (Host.after machineOf (m env fs)).Within env.cwd dir fs₀ := by
  apply Host.after_ends (hm fs hfs)
  · intro a fs' hend
    exact ⟨hend.1, hpost a hend.2⟩
  · intro fs' hend
    exact ⟨hend, by simp⟩

/-- One step, whatever fails and wherever the process is killed. -/
theorem Host.Within.run (h : host.Within cwd dir fs₀) (json : Json) (gz : Gzip)
    (raftAddr nodeId : Bytes) (op : Op) {env : Env Site}
    (hcwd : resolve env.cwd dir = resolve cwd dir) :
    (op.run json gz raftAddr nodeId dir env host).Within cwd dir fs₀ := by
  refine Host.Within.of_cwd ?_ hcwd.symm
  obtain ⟨fs, machine⟩ := host
  have hhere := h.of_cwd hcwd
  have hdisk := hhere.disk
  have hstore := hhere.store
  cases op with
  | kill => exact ⟨hdisk, by simp [Op.run]⟩
  | apply index data =>
    cases machine with
    | none => exact hhere
    | some r =>
      refine Host.within_after (apply_preserves json (hstore r rfl) index data) hdisk ?_
      rintro result hresult r' hr'
      obtain rfl := Option.some.inj hr'
      exact hresult
  | restore stamp startTime now stream =>
    cases machine with
    | none => exact hhere
    | some r =>
      refine Host.within_after (restore_preserves gz (hstore r rfl) stamp startTime now stream)
        hdisk ?_
      rintro result hresult r' hr'
      obtain rfl := Option.some.inj hr'
      exact hresult
  | start stamp =>
    cases machine with
    | some r => exact hhere
    | none =>
      refine Host.within_after (newStateMachine_preserves raftAddr nodeId stamp) hdisk ?_
      rintro result hresult r hr
      cases result with
      | error e => simp [Except.toOption] at hr
      | ok r' => exact hresult r (by simpa [Except.toOption] using hr)

end Hosts

/-! ### Nodes that share a data directory -/

/-- `user_data` -/
def userDataName : Name := ⟨[117, 115, 101, 114, 95, 100, 97, 116, 97], by decide⟩

/-- `meta_data` -/
def metaDataName : Name := ⟨[109, 101, 116, 97, 95, 100, 97, 116, 97], by decide⟩

/-- Where `NewEngineWithConfig` puts the databases of a node, -/
def userDataDir (raftDir : Bytes) (nodeID : Name) : Bytes :=
  join (join raftDir nodeID.bytes) userDataName.bytes

/-- and where it puts raft's files. -/
def metaDataDir (raftDir : Bytes) (nodeID : Name) : Bytes :=
  join (join raftDir nodeID.bytes) metaDataName.bytes

/-- One disk, and the state machines of the nodes that are up. -/
structure SharedDisk (ι : Type) where
  fs : FS KV
  machine : ι → Option StateMachine

/-- A node does something. -/
structure NodeOp (ι : Type) where
  node : ι
  op : Op
  env : Env Site

theorem resolve_userDataDir (cwd : Loc) (raftDir : Bytes) (nodeID : Name) :
    resolve cwd (userDataDir raftDir nodeID) = resolve cwd raftDir ++ [nodeID, userDataName] := by
  rw [userDataDir, resolve_join, resolve_join, List.append_assoc, List.singleton_append]

theorem resolve_metaDataDir (cwd : Loc) (raftDir : Bytes) (nodeID : Name) :
    resolve cwd (metaDataDir raftDir nodeID) = resolve cwd raftDir ++ [nodeID, metaDataName] := by
  rw [metaDataDir, resolve_join, resolve_join, List.append_assoc, List.singleton_append]

/-- Two locations that part ways are outside each other's trees. -/
theorem outside_of_parting {base loc : Loc} {a b : Name} (tail : Loc) (hab : a ≠ b)
    (h : base ++ [b] <+: loc) : Outside (base ++ a :: tail) loc := by
  have hpart : ¬ base ++ [b] <+: base ++ a :: tail := by
    rw [List.prefix_append_right_inj, List.cons_prefix_cons]
    exact fun hsame => hab hsame.1.symm
  have hpart' : ¬ base ++ a :: tail <+: base ++ [b] := by
    rw [List.prefix_append_right_inj, List.cons_prefix_cons]
    exact fun hsame => hab hsame.1
  constructor
  · intro hbelow
    exact (List.prefix_or_prefix_of_prefix h hbelow).elim hpart hpart'
  · intro habove
    exact hpart (h.trans habove)

section Shared

open Interleaving

variable {ι : Type} [DecidableEq ι] (json : Json) (gz : Gzip) (raftDir : Bytes) (ids : ι → Name)
  (raftAddr : ι → Bytes)

def SharedDisk.run (action : NodeOp ι) (s : SharedDisk ι) : SharedDisk ι :=
  let host := action.op.run json gz (raftAddr action.node) (ids action.node).bytes
    (userDataDir raftDir (ids action.node)) action.env ⟨s.fs, s.machine action.node⟩
  ⟨host.fs, Function.update s.machine action.node host.machine⟩

/-- No node is up, and a pointer file on the disk was written by its node. -/
def SharedDisk.Initial (cwd : Loc) (s : SharedDisk ι) : Prop :=
  (∀ i, s.machine i = none) ∧ ∀ i, PointerInside cwd (userDataDir raftDir (ids i)) s.fs

/-- The states of the runs of all nodes.  Any operation may fail and any process may be
    killed in it; the data directory means the same to every process. -/
def SharedReached (cwd : Loc) : SharedDisk ι → Prop :=
  Reached (fun action s => some (SharedDisk.run json gz raftDir ids raftAddr action s))
    (fun _ action => resolve action.env.cwd raftDir = resolve cwd raftDir)
    (SharedDisk.Initial raftDir ids cwd)

/-- Every node has its store, and finds it again, in its own directory. -/
def SharedDisk.Apart (cwd : Loc) (s : SharedDisk ι) : Prop :=
  ∀ i, PointerInside cwd (userDataDir raftDir (ids i)) s.fs ∧
    ∀ r, s.machine i = some r → r.store.Within cwd (userDataDir raftDir (ids i))

variable {raftDir} {ids} {cwd : Loc} {s : SharedDisk ι}

/-- What an action leaves of the disk, and of the node that took it. -/
theorem SharedDisk.Apart.within (h : s.Apart raftDir ids cwd) {action : NodeOp ι}
    (hcwd : resolve action.env.cwd raftDir = resolve cwd raftDir) :
    Host.Within cwd (userDataDir raftDir (ids action.node)) s.fs
      ⟨(s.run json gz raftDir ids raftAddr action).fs,
        (s.run json gz raftDir ids raftAddr action).machine action.node⟩ := by
  have hbefore : Host.Within cwd (userDataDir raftDir (ids action.node)) s.fs
      ⟨s.fs, s.machine action.node⟩ :=
    ⟨⟨FS.Keeps.refl _, (h action.node).1⟩, (h action.node).2⟩
  have hdir : resolve action.env.cwd (userDataDir raftDir (ids action.node)) =
      resolve cwd (userDataDir raftDir (ids action.node)) := by
    rw [resolve_userDataDir, resolve_userDataDir, hcwd]
  have hafter := hbefore.run json gz (raftAddr action.node) (ids action.node).bytes action.op hdir
  simpa [SharedDisk.run] using hafter

theorem SharedDisk.Apart.lookup_of_outside (h : s.Apart raftDir ids cwd) {action : NodeOp ι}
    (hcwd : resolve action.env.cwd raftDir = resolve cwd raftDir) {loc : Loc}
    (hloc : Outside (resolve cwd raftDir ++ [ids action.node, userDataName]) loc) :
    (s.run json gz raftDir ids raftAddr action).fs[loc]? = s.fs[loc]? := by
  refine (h.within json gz raftAddr hcwd).disk.keeps loc ?_
  rw [resolve_userDataDir]
  exact hloc

variable {json} {gz} {raftAddr}

/-- The files of another node. -/
theorem SharedDisk.Apart.lookup_other (h : s.Apart raftDir ids cwd)
    (hids : Function.Injective ids) {action : NodeOp ι}
    (hcwd : resolve action.env.cwd raftDir = resolve cwd raftDir) {j : ι} (hj : j ≠ action.node)
    {loc : Loc} (hloc : resolve cwd raftDir ++ [ids j] <+: loc) :
    (s.run json gz raftDir ids raftAddr action).fs[loc]? = s.fs[loc]? :=
  h.lookup_of_outside json gz raftAddr hcwd
    (outside_of_parting _ (fun hsame => hj (hids hsame).symm) hloc)

/-- The handle of another node. -/
theorem SharedDisk.Apart.lookup_db (h : s.Apart raftDir ids cwd)
    (hids : Function.Injective ids) {action : NodeOp ι}
    (hcwd : resolve action.env.cwd raftDir = resolve cwd raftDir) {j : ι} (hj : j ≠ action.node)
    {r : StateMachine} (hr : s.machine j = some r) :
    (s.run json gz raftDir ids raftAddr action).fs[r.store.db]? = s.fs[r.store.db]? := by
  apply h.lookup_other hids hcwd hj
  have hhandle := ((h j).2 r hr).handle
  rw [resolve_userDataDir] at hhandle
  exact List.IsPrefix.trans ⟨[userDataName], by simp⟩ hhandle

theorem SharedDisk.Apart.run (h : s.Apart raftDir ids cwd) (hids : Function.Injective ids)
    {action : NodeOp ι} (hcwd : resolve action.env.cwd raftDir = resolve cwd raftDir) :
    (s.run json gz raftDir ids raftAddr action).Apart raftDir ids cwd := by
  intro i
  by_cases hi : i = action.node
  · subst hi
    have hwithin := h.within json gz raftAddr hcwd
    exact ⟨hwithin.disk.pointer, hwithin.store⟩
  · obtain ⟨hpointer, hstore⟩ := h i
    constructor
    · intro data path hdata hpath
      rw [h.lookup_other hids hcwd hi ⟨[userDataName, currentDBFilename], by
        simp [resolve_userDataDir]⟩] at hdata
      exact hpointer data path hdata hpath
    · intro r hr
      apply hstore r
      exact (Function.update_of_ne hi _ _).symm.trans hr

theorem SharedReached.apart (hids : Function.Injective ids)
    (h : SharedReached json gz raftDir ids raftAddr cwd s) : s.Apart raftDir ids cwd := by
  apply Reached.invariant h
  · rintro s ⟨hdown, hpointer⟩ i
    exact ⟨hpointer i, by simp [hdown i]⟩
  · rintro s action s' hs hcwd hstep
    obtain rfl := Option.some.inj hstep
    exact hs.run hids hcwd

/-- Nodes with distinct IDs share a data directory, and go through any run.  Whatever one
    of them does next, however it fails and wherever it is killed in it, raft's files stay
    as they are, also its own; so does everything of the other nodes, and a node that is up
    answers every read as before. -/
theorem nodes_keep_apart (hids : Function.Injective ids)
    (hs : SharedReached json gz raftDir ids raftAddr cwd s) (action : NodeOp ι)
    (hcwd : resolve action.env.cwd raftDir = resolve cwd raftDir) :
    (∀ j loc, resolve cwd (metaDataDir raftDir (ids j)) <+: loc →
      (s.run json gz raftDir ids raftAddr action).fs[loc]? = s.fs[loc]?) ∧
    ∀ j, j ≠ action.node →
      (∀ loc, resolve cwd (join raftDir (ids j).bytes) <+: loc →
        (s.run json gz raftDir ids raftAddr action).fs[loc]? = s.fs[loc]?) ∧
      (s.run json gz raftDir ids raftAddr action).machine j = s.machine j ∧
      ∀ r, s.machine j = some r → ∀ key,
        r.readLocal (s.run json gz raftDir ids raftAddr action).fs key = r.readLocal s.fs key := by
  have hapart := hs.apart hids
  refine ⟨?_, fun j hj => ⟨?_, ?_, ?_⟩⟩
  · intro j loc hloc
    rw [resolve_metaDataDir] at hloc
    by_cases hj : j = action.node
    · subst hj
      have hparting : Outside (resolve cwd raftDir ++ [ids action.node] ++ [userDataName]) loc :=
        outside_of_parting [] (by decide : userDataName ≠ metaDataName) (by simpa using hloc)
      exact hapart.lookup_of_outside json gz raftAddr hcwd (by simpa using hparting)
    · exact hapart.lookup_other hids hcwd hj (List.IsPrefix.trans ⟨[metaDataName], by simp⟩ hloc)
  · intro loc hloc
    rw [resolve_join] at hloc
    exact hapart.lookup_other hids hcwd hj hloc
  · exact Function.update_of_ne hj _ _
  · intro r hr key
    unfold StateMachine.readLocal query getBytes
    rw [hapart.lookup_db hids hcwd hj hr]

end Shared

/-- The nodes `1` and `2` of a data directory, -/
def pairIds (second : Bool) : Name := if second then ⟨[50], by decide⟩ else ⟨[49], by decide⟩

def pairRun (action : NodeOp Bool) (s : SharedDisk Bool) : SharedDisk Bool :=
  s.run goJson sampleGzip nodeDir pairIds (fun _ => []) action

/-- both started on an empty disk. -/
def pairUp : SharedDisk Bool :=
  pairRun ⟨true, .start nodeStamp, .fair []⟩
    (pairRun ⟨false, .start nodeStamp, .fair []⟩ ⟨∅, fun _ => none⟩)

theorem pairUp_reached :
    SharedReached goJson sampleGzip nodeDir pairIds (fun _ => []) [] pairUp := by
  have hempty : SharedDisk.Initial nodeDir pairIds [] ⟨∅, fun _ => none⟩ :=
    ⟨fun _ => rfl, fun i data path hdata => by simp at hdata⟩
  have hfirst : SharedReached goJson sampleGzip nodeDir pairIds (fun _ => []) []
      (pairRun ⟨false, .start nodeStamp, .fair []⟩ ⟨∅, fun _ => none⟩) :=
    .step (.start hempty) rfl rfl
  exact .step (a := ⟨true, .start nodeStamp, .fair []⟩) hfirst rfl rfl

/-- The first node is killed in a restore. -/
theorem nodes_keep_apart_killed_restore :
    ∃ r, pairUp.machine true = some r ∧ ∀ key,
      r.readLocal (pairRun ⟨false, .restore restoreStamp 0 0 oneRecord, killAt .syncReplaced⟩
        pairUp).fs key = r.readLocal pairUp.fs key := by
  have hup : (pairUp.machine true).isSome = true := by decide +kernel
  obtain ⟨r, hr⟩ := Option.isSome_iff_exists.mp hup
  have hids : Function.Injective pairIds := fun i j => by revert i j; decide
  have hapart := (nodes_keep_apart hids pairUp_reached
    ⟨false, .restore restoreStamp 0 0 oneRecord, killAt .syncReplaced⟩ rfl).2 true (by decide)
  exact ⟨r, hr, hapart.2.2 r hr⟩

end RaftExample
