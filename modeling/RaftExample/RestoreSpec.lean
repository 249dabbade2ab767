import RaftExample.LoadSpec

/-!
# What a restore leaves behind

`recoverSnapShot_fills` follows `recoverSnapShot` through every fate of its disk
operations.  Up to the rename of the pointer file the node is where it was; from
there on the pointer names the new database, whose content is that of the records
that arrived in it.  If the writes into the new database do not fail, these are all
the records read (`recoverSnapShot_ends`).
-/

namespace RaftExample

/-- The store's handle is on the database its pointer file names. -/
structure Serving (cwd : Loc) (s : Store) (fs : FS KV) (name : Name) (content : KV) : Prop
    extends PointsTo cwd s.baseDir fs name (some (.dir (.database content))) where
  handle : s.db = resolve cwd s.baseDir ++ [name]

instance (cwd : Loc) (s : Store) (fs : FS KV) (name : Name) (content : KV) :
    Decidable (Serving cwd s fs name content) :=
  decidable_of_iff
    (Current cwd s.baseDir fs name content ∧ s.db = resolve cwd s.baseDir ++ [name])
    ⟨fun ⟨hcurrent, hhandle⟩ => ⟨hcurrent, hhandle⟩, fun h => ⟨h.toPointsTo, h.handle⟩⟩

/-- What a handle reads, when it is on a database. -/
theorem Serving.lookup {cwd : Loc} {s : Store} {fs : FS KV} {name : Name} {content : KV}
    (h : Serving cwd s fs name content) : fs[s.db]? = some (.dir (.database content)) := by
  rw [h.handle, h.entry]

/-! ### Giving up -/

/-- Deleting the database under construction touches nothing else. -/
theorem cleanupNewDB_ends {env : Env Site} {fs : FS KV} {dbdir : Bytes} :
    (cleanupNewDB dbdir).Ends env fs
      (fun _ fs' => FS.Keeps (fun loc => ¬ resolve env.cwd dbdir <+: loc) fs fs' ∧
        ((∀ phase, env.fate (.removeNew phase) = .ok) → fs'[resolve env.cwd dbdir]? = none))
      (fun fs' => FS.Keeps (fun loc => ¬ resolve env.cwd dbdir <+: loc) fs fs' ∧
        ¬ env.NoCrash) := by
  unfold cleanupNewDB
  refine Proc.Ends.settle_then (Proc.Ends.bind (Proc.Ends.removeAll_prunes.weaken ?_ ?_))
    fun hcrash => ⟨.refl fs, fun hno => hno _ hcrash⟩
  · rintro result fs' ⟨⟨hkeeps, -⟩, ⟨-, -, -, hgone⟩ | ⟨-, hfail⟩⟩
    · exact Proc.Ends.pure ⟨hkeeps, fun _ => hgone⟩
    · refine Proc.Ends.pure ⟨hkeeps, fun hok => ?_⟩
      simp [hok] at hfail
  · rintro fs' ⟨⟨hkeeps, -⟩, hcrash⟩
    exact ⟨hkeeps, fun hno => hcrash.elim (hno _) (hno _)⟩

/-! ### Publishing it -/

def publishSites : List Site := saveSites ++ [.renameUpdating]

def finishSites : List Site := [.removeOld .contents, .removeOld .entry, .syncParent]

/-- The pointer names a directory that is gone, while the open database is still the
    one it named before. -/
structure Dangling (cwd : Loc) (dir : Bytes) (fs : FS KV) (name gone : Name) (live : KV) :
    Prop where
  pointer : fs[resolve cwd dir ++ [currentDBFilename]]? =
    some (.file (pointerContent (join dir gone.bytes)))
  missing : fs[resolve cwd dir ++ [gone]]? = none
  database : fs[resolve cwd dir ++ [name]]? = some (.dir (.database live))

section Install

variable {env : Env Site} {s : Store} {stamp : Stamp} {name : Name} {live content : KV}

/-- Where the new database goes. -/
def targetOf (env : Env Site) (s : Store) (stamp : Stamp) : Loc :=
  resolve env.cwd s.baseDir ++ [stampName stamp]

/-- Before the rename: the store and the node's base directory are as they were. -/
def Unpublished (env : Env Site) (s : Store) (name : Name) (live : KV)
    (result : Except Err SnapshotHeader × Store) (fs' : FS KV) : Prop :=
  (∃ e, result.1 = .error e) ∧ result.2 = s ∧ Current env.cwd s.baseDir fs' name live

/-- After the rename, when its flush failed: the new database is deleted although the
    pointer names it. -/
def Dropped (env : Env Site) (s : Store) (stamp : Stamp) (name : Name) (live : KV)
    (result : Except Err SnapshotHeader × Store) (fs' : FS KV) : Prop :=
  (∃ e, result.1 = .error e) ∧ result.2 = s ∧ env.fate .syncReplaced = .fail ∧
    ((∀ phase, env.fate (.removeNew phase) = .ok) →
      Dangling env.cwd s.baseDir fs' name (stampName stamp) live)

/-- After the swap: the new database is open and the pointer names it, whether the
    rest succeeds or not. -/
def Installed (env : Env Site) (s : Store) (stamp : Stamp) (content : KV)
    (header : SnapshotHeader) (result : Except Err SnapshotHeader × Store) (fs' : FS KV) : Prop :=
  result.2 = { s with db := targetOf env s stamp } ∧ env.fate .syncReplaced = .ok ∧
    Current env.cwd s.baseDir fs' (stampName stamp) content ∧
    (result.1 = .ok header ∧ (∀ site ∈ finishSites, env.fate site = .ok) ∨
      (∃ e, result.1 = .error e) ∧ ∃ site ∈ finishSites, env.fate site ≠ .ok)

/-- Removing the old directory cannot take the new one with it. -/
theorem dropOldDB_ends {header : SnapshotHeader} {fs : FS KV}
    (hcur : Current env.cwd s.baseDir fs (stampName stamp) content)
    (hold : ∃ state, fs[resolve env.cwd s.baseDir ++ [name]]? = some (.dir state))
    (hname : name ≠ stampName stamp) (hsync : env.fate .syncReplaced = .ok) :
    (dropOldDB { s with db := targetOf env s stamp } header (join s.baseDir name.bytes)).Ends env fs
      (Installed env s stamp content header)
      (fun fs' => ¬ env.NoCrash ∧ Current env.cwd s.baseDir fs' (stampName stamp) content) := by
  obtain ⟨state, hold⟩ := hold
  obtain ⟨hpointer, hupdating⟩ := hcur.dir_entry_ne hold
  unfold dropOldDB
  refine Proc.Ends.settle_then (Proc.Ends.bind (Proc.Ends.removeAll_prunes.weaken ?_ ?_))
    fun hclose => ⟨fun hno => hno _ hclose, hcur⟩
  · rintro result fs₁ ⟨⟨hkeeps, -⟩, hresult⟩
    rw [resolve_join] at hkeeps
    have hcur₁ := hcur.of_keeps_entry hkeeps hpointer hupdating hname
    rcases hresult with ⟨rfl, hcontents, hentry, -⟩ | ⟨⟨e, rfl⟩, hfail⟩
    · refine Proc.Ends.bind (Proc.Ends.syncDir ?_ (fun hparent => ?_) (fun hparent => ?_)
        fun hparent => ?_)
      · rw [resolve_dirOf_join]; exact hcur₁.base_isDir
      · exact Proc.Ends.pure ⟨rfl, hsync, hcur₁,
          .inl ⟨rfl, by simp [finishSites, hcontents, hentry, hparent]⟩⟩
      · exact Proc.Ends.pure ⟨rfl, hsync, hcur₁,
          .inr ⟨⟨_, rfl⟩, .syncParent, by simp [finishSites], by simp [hparent]⟩⟩
      · exact ⟨fun hno => hno _ hparent, hcur₁⟩
    · refine Proc.Ends.pure ⟨rfl, hsync, hcur₁, .inr ⟨⟨_, rfl⟩, ?_⟩⟩
      rcases hfail with hfail | hfail
      · exact ⟨.removeOld .contents, by simp [finishSites], by simp [hfail]⟩
      · exact ⟨.removeOld .entry, by simp [finishSites], by simp [hfail]⟩
  · rintro fs₁ ⟨⟨hkeeps, -⟩, hcrash⟩
    rw [resolve_join] at hkeeps
    exact ⟨fun hno => hcrash.elim (hno _) (hno _),
      hcur.of_keeps_entry hkeeps hpointer hupdating hname⟩

theorem resolve_getNewRandomDBDirName (cwd : Loc) (dir : Bytes) (stamp : Stamp) :
    resolve cwd (getNewRandomDBDirName dir stamp) = resolve cwd dir ++ [stampName stamp] :=
  resolve_join cwd dir (stampName stamp)

/-- Renaming a pointer to an existing database into place makes that the current one. -/
theorem PointsTo.renamed {cwd : Loc} {dir : Bytes} {fs : FS KV} {node : Option (Node KV)}
    (h : PointsTo cwd dir fs name node)
    (hnew : fs[resolve cwd dir ++ [stampName stamp]]? = some (.dir (.database content))) :
    Current cwd dir (renamedPointer cwd dir
      (pointerContent (getNewRandomDBDirName dir stamp)) fs) (stampName stamp) content := by
  obtain ⟨hcurrent, hupdating⟩ := stampName_ne stamp
  have hpoints := pointsTo_renamedPointer h.base hcurrent hupdating
  rwa [hnew] at hpoints

/-- Giving up before the rename. -/
theorem giveUp_ends {fs : FS KV} (e : Err) (hcur : Current env.cwd s.baseDir fs name live)
    (hname : name ≠ stampName stamp) :
    (do cleanupNewDB (getNewRandomDBDirName s.baseDir stamp); return (.error e, s) :
      Disk (Except Err SnapshotHeader × Store)).Ends env fs
      (Unpublished env s name live)
      (fun fs' => ¬ env.NoCrash ∧ Current env.cwd s.baseDir fs' name live) := by
  obtain ⟨hpointer, hupdating⟩ := stampName_ne stamp
  refine Proc.Ends.bind (cleanupNewDB_ends.weaken ?_ ?_)
  · rintro _ fs' ⟨hkeeps, -⟩
    rw [resolve_getNewRandomDBDirName] at hkeeps
    exact Proc.Ends.pure
      ⟨⟨e, rfl⟩, rfl, hcur.of_keeps_entry hkeeps hpointer hupdating hname.symm⟩
  · rintro fs' ⟨hkeeps, hcrash⟩
    rw [resolve_getNewRandomDBDirName] at hkeeps
    exact ⟨hcrash, hcur.of_keeps_entry hkeeps hpointer hupdating hname.symm⟩

/-- Giving up after the rename: the deletion leaves the pointer without its directory. -/
theorem giveUpRenamed_ends {fs : FS KV} (e : Err) (hsync : env.fate .syncReplaced = .fail)
    (hcur : Current env.cwd s.baseDir fs (stampName stamp) content)
    (hold : fs[resolve env.cwd s.baseDir ++ [name]]? = some (.dir (.database live)))
    (hname : name ≠ stampName stamp) :
    (do cleanupNewDB (getNewRandomDBDirName s.baseDir stamp); return (.error e, s) :
      Disk (Except Err SnapshotHeader × Store)).Ends env fs
      (Dropped env s stamp name live) (fun _ => ¬ env.NoCrash) := by
  obtain ⟨hpointer, -⟩ := stampName_ne stamp
  refine Proc.Ends.bind (cleanupNewDB_ends.weaken ?_ fun _ h => h.2)
  rintro _ fs' ⟨hkeeps, hgone⟩
  rw [resolve_getNewRandomDBDirName] at hkeeps hgone
  refine Proc.Ends.pure ⟨⟨e, rfl⟩, rfl, hsync, fun hok => ⟨?_, hgone hok, ?_⟩⟩
  · rw [hkeeps _ fun habove => hpointer (concat_prefix_concat habove)]
    exact hcur.pointer
  · rw [hkeeps _ fun habove => hname (concat_prefix_concat habove).symm]
    exact hold

theorem installDB_ends {header : SnapshotHeader} {fs : FS KV}
    (hcur : Current env.cwd s.baseDir fs name live) (hname : name ≠ stampName stamp)
    (hnew : fs[targetOf env s stamp]? = some (.dir (.database content))) :
    (installDB s header (getNewRandomDBDirName s.baseDir stamp) (targetOf env s stamp)
        (join s.baseDir name.bytes)).Ends env fs
      (fun result fs' =>
        ((∃ site ∈ publishSites, env.fate site = .fail) ∧ Unpublished env s name live result fs') ∨
        ((∀ site ∈ publishSites, env.fate site = .ok) ∧
          (Dropped env s stamp name live result fs' ∨
            Installed env s stamp content header result fs')))
      (fun fs' =>
        ((∃ site ∈ publishSites, env.fate site ≠ .ok) ∧
          Current env.cwd s.baseDir fs' name live) ∨
        (¬ env.NoCrash ∧ (env.fate .syncReplaced = .fail ∨
          Current env.cwd s.baseDir fs' (stampName stamp) content))) := by
  obtain ⟨hpointer, hupdating⟩ := stampName_ne stamp
  obtain ⟨hnamePointer, hnameUpdating⟩ := hcur.dir_entry_ne hcur.entry
  unfold installDB
  refine Proc.Ends.bind ((saveCurrentDBDirName_ends hcur.base_isDir hcur.updating).weaken ?_ ?_)
  · rintro result fs₁ ⟨honly, hresult⟩
    have hcur₁ : Current env.cwd s.baseDir fs₁ name live := hcur.of_onlyUpdating honly
    have hnew₁ : fs₁[targetOf env s stamp]? = some (.dir (.database content)) := by
      rw [honly.1 _ (by simpa [targetOf] using hupdating), hnew]
    rcases hresult with ⟨rfl, hsave, hwritten⟩ | ⟨⟨e, rfl⟩, site, hsite, hfate⟩
    · apply Proc.Ends.bind
      apply (replaceCurrentDBFile_ends hcur₁.base_isDir hwritten).weaken
      · rintro result fs₂ (⟨hrename, rfl, rfl⟩ | ⟨hrename, rfl, hsync⟩)
        · have hsite : Site.renameUpdating ∈ publishSites := by simp [publishSites]
          exact (giveUp_ends _ hcur₁ hname).weaken (fun _ _ h => .inl ⟨⟨_, hsite, hrename⟩, h⟩)
            (fun _ h => .inl ⟨⟨_, hsite, by simp [hrename]⟩, h.2⟩)
        · have hall : ∀ site ∈ publishSites, env.fate site = .ok := by
            intro site hsite
            rcases List.mem_append.mp hsite with hsite | hsite
            · exact hsave site hsite
            · rw [List.mem_singleton.mp hsite]
              exact hrename
          have hcur₂ := hcur₁.renamed hnew₁
          have hold₂ : (renamedPointer env.cwd s.baseDir
              (pointerContent (getNewRandomDBDirName s.baseDir stamp)) fs₁)[
                resolve env.cwd s.baseDir ++ [name]]? = some (.dir (.database live)) := by
            rw [lookup_renamedPointer (by simpa using hnamePointer)
              (by simpa using hnameUpdating), hcur₁.entry]
          rcases hsync with ⟨hsync, rfl⟩ | ⟨hsync, rfl⟩
          · exact (dropOldDB_ends hcur₂ ⟨_, hold₂⟩ hname hsync).weaken
              (fun _ _ h => .inr ⟨hall, .inr h⟩) (fun _ h => .inr ⟨h.1, .inr h.2⟩)
          · exact (giveUpRenamed_ends _ hsync hcur₂ hold₂ hname).weaken
              (fun _ _ h => .inr ⟨hall, .inl h⟩) (fun _ h => .inr ⟨h, .inl hsync⟩)
      · rintro fs₂ (⟨hrename, rfl⟩ | ⟨-, hsync, rfl⟩)
        · exact .inl ⟨⟨.renameUpdating, by simp [publishSites], by simp [hrename]⟩, hcur₁⟩
        · exact .inr ⟨fun hno => hno _ hsync, .inr (hcur₁.renamed hnew₁)⟩
    · have hsite' : site ∈ publishSites := by simp [publishSites, hsite]
      exact (giveUp_ends e hcur₁ hname).weaken (fun _ _ h => .inl ⟨⟨site, hsite', hfate⟩, h⟩)
        (fun _ h => .inl ⟨⟨site, hsite', by simp [hfate]⟩, h.2⟩)
  · rintro fs₁ ⟨honly, site, hsite, hfate⟩
    exact .inl ⟨⟨site, by simp [publishSites, hsite], hfate⟩, hcur.of_onlyUpdating honly⟩

/-! ### The whole restore -/

/-- The stream is read to a `break`: its header, and the records before it. -/
def Accepts (gz : Gzip) (stream : Bytes) (header : SnapshotHeader)
    (records : List (Bytes × Bytes)) : Prop :=
  ∃ rest reason, readSnapshotHeader stream = .ok (header, rest) ∧
    parseRecords gz rest = (records, .stop reason)

/-- The stream runs into an allocation that panics. -/
def Overflows (gz : Gzip) (stream : Bytes) : Prop :=
  ∃ header rest, readSnapshotHeader stream = .ok (header, rest) ∧
    (parseRecords gz rest).2 = .panic

def restoreSites : List Site := .readPointer .restore :: openSites ++ publishSites

/-- The restore gets as far as renaming the pointer file. -/
def Publishes (gz : Gzip) (env : Env Site) (stream : Bytes) (header : SnapshotHeader)
    (records : List (Bytes × Bytes)) : Prop :=
  Accepts gz stream header records ∧ ∀ site ∈ restoreSites, env.fate site = .ok

theorem Accepts.unique {gz : Gzip} {stream : Bytes} {header header' : SnapshotHeader}
    {records records' : List (Bytes × Bytes)} (h : Accepts gz stream header records)
    (h' : Accepts gz stream header' records') : header = header' ∧ records = records' := by
  obtain ⟨rest, reason, hheader, hparse⟩ := h
  obtain ⟨rest', reason', hheader', hparse'⟩ := h'
  rw [hheader] at hheader'
  injection hheader' with hpair
  injection hpair with hheader hrest
  subst hrest
  rw [hparse] at hparse'
  injection hparse' with hrecords
  exact ⟨hheader, hrecords⟩

theorem Accepts.not_overflows {gz : Gzip} {stream : Bytes} {header : SnapshotHeader}
    {records : List (Bytes × Bytes)} (h : Accepts gz stream header records) :
    ¬ Overflows gz stream := by
  obtain ⟨rest, reason, hheader, hparse⟩ := h
  rintro ⟨header', rest', hheader', hpanic⟩
  rw [hheader] at hheader'
  injection hheader' with hpair
  injection hpair with _ hrest
  subst hrest
  rw [hparse] at hpanic
  simp at hpanic

theorem PointsTo.of_keeps_target {node : Option (Node KV)} {cwd : Loc} {dir : Bytes} {fs fs' : FS KV}
    (hcur : PointsTo cwd dir fs name node)
    (hkeeps : FS.Keeps (· ≠ resolve cwd dir ++ [stampName stamp]) fs fs')
    (hname : name ≠ stampName stamp) : PointsTo cwd dir fs' name node := by
  obtain ⟨hpointer, hupdating⟩ := stampName_ne stamp
  refine hcur.of_keeps_entry (hkeeps.mono fun loc hloc heq => hloc ?_) hpointer hupdating
    hname.symm
  rw [heq]

/-- What can keep a restore from renaming the pointer file without killing it. -/
def Refused (gz : Gzip) (env : Env Site) (stream : Bytes) : Prop :=
  (¬ ∃ header records, Accepts gz stream header records) ∨
    ∃ site ∈ restoreSites, env.fate site = .fail

theorem Refused.not_publishes {gz : Gzip} {stream : Bytes} (h : Refused gz env stream) :
    ¬ ∃ header records, Publishes gz env stream header records := by
  rintro ⟨header, records, haccepts, hall⟩
  rcases h with hnone | ⟨site, hsite, hfail⟩
  · exact hnone ⟨header, records, haccepts⟩
  · rw [hall site hsite] at hfail
    simp at hfail

/-- How a restore that returns can have ended; `content` is what the records of the stream
    make of the new database. -/
def Restored (gz : Gzip) (env : Env Site) (s : Store) (stamp : Stamp) (name : Name) (live : KV)
    (stream : Bytes) (content : List (Bytes × Bytes) → KV)
    (result : Except Err SnapshotHeader × Store) (fs' : FS KV) : Prop :=
  (Refused gz env stream ∧ Unpublished env s name live result fs') ∨
  ∃ header records, Publishes gz env stream header records ∧
    (Dropped env s stamp name live result fs' ∨
      Installed env s stamp (content records) header result fs')

/-- What a restore that does not return leaves on disk. -/
def RestoreDied (gz : Gzip) (env : Env Site) (s : Store) (stamp : Stamp) (name : Name)
    (live : KV) (stream : Bytes) (content : List (Bytes × Bytes) → KV) (fs' : FS KV) : Prop :=
  (Current env.cwd s.baseDir fs' name live ∧ (env.NoCrash → Overflows gz stream ∨
    (∃ header records, Accepts gz stream header records) ∧
      ∃ site ∈ restoreSites, env.fate site ≠ .ok)) ∨
  (¬ env.NoCrash ∧ ∃ header records, Accepts gz stream header records ∧
    (env.fate .syncReplaced = .fail ∨
      Current env.cwd s.baseDir fs' (stampName stamp) (content records)))

/-- When writes into the new database may fail: the records of the stream that arrived. -/
def arrived (env : Env Site) (records : List (Bytes × Bytes)) : KV :=
  applyBatch (survivors env 0 records) ∅

theorem Env.DbWritesOk.arrived (hdb : env.DbWritesOk) :
    arrived env = fun records => applyBatch records ∅ := by
  funext records
  rw [RaftExample.arrived, hdb.survivors]

/-- From the new database on. -/
theorem fillDB_ends (gz : Gzip) {stream rest : Bytes} {fs : FS KV}
    {header : SnapshotHeader} (hheader : readSnapshotHeader stream = .ok (header, rest))
    (hcur : Current env.cwd s.baseDir fs name live) (hname : name ≠ stampName stamp)
    (hnew : fs[targetOf env s stamp]? = some (.dir (.database ∅)))
    (hread : env.fate (.readPointer .restore) = .ok)
    (hopened : ∀ site ∈ openSites, env.fate site = .ok) :
    (fillDB gz s header (getNewRandomDBDirName s.baseDir stamp) (targetOf env s stamp)
        (join s.baseDir name.bytes) rest).Ends env fs
      (Restored gz env s stamp name live stream (arrived env))
      (RestoreDied gz env s stamp name live stream (arrived env)) := by
  have hrest : ∀ {header' records}, Accepts gz stream header' records →
      ∃ reason, parseRecords gz rest = (records, .stop reason) := by
    rintro header' records ⟨rest', reason, hok, hparse⟩
    rw [hheader] at hok
    injection hok with hpair
    injection hpair with _ hrest
    exact ⟨reason, hrest ▸ hparse⟩
  unfold fillDB
  apply Proc.Ends.bind
  apply (loadRecords_ends rest hnew).weaken
  · rintro result fs₁ ⟨hkeeps, hloaded⟩
    have hcur₁ := hcur.of_keeps_target hkeeps hname
    cases result with
    | error e =>
      have hnone : ¬ ∃ header records, Accepts gz stream header records := by
        rintro ⟨_, records, haccepts⟩
        obtain ⟨reason, hparse⟩ := hrest haccepts
        rw [hparse] at hloaded
        simp at hloaded
      apply (giveUp_ends e hcur₁ hname).weaken
      · intro _ _ h
        exact .inl ⟨.inl hnone, h⟩
      · intro _ h
        exact .inl ⟨h.2, fun hno => absurd hno h.1⟩
    | ok _ =>
      obtain ⟨⟨reason, hreason⟩, hcontent⟩ := hloaded
      have haccepts : Accepts gz stream header (parseRecords gz rest).1 :=
        ⟨rest, reason, hheader, Prod.ext rfl hreason⟩
      apply (installDB_ends hcur₁ hname hcontent).weaken
      · rintro result fs₂ (⟨⟨site, hsite, hfail⟩, hun⟩ | ⟨hall, hend⟩)
        · exact .inl ⟨.inr ⟨site, by simp [restoreSites, hsite], hfail⟩, hun⟩
        · refine .inr ⟨header, _, ⟨haccepts, ?_⟩, hend⟩
          intro site hsite
          rcases List.mem_cons.mp hsite with rfl | hsite
          · exact hread
          · exact (List.mem_append.mp hsite).elim (hopened site) (hall site)
      · rintro fs₂ (⟨⟨site, hsite, hfate⟩, hcur₂⟩ | ⟨hcrash, hend⟩)
        · exact .inl ⟨hcur₂, fun _ => .inr ⟨⟨_, _, haccepts⟩, site,
            by simp [restoreSites, hsite], hfate⟩⟩
        · exact .inr ⟨hcrash, header, _, haccepts, hend⟩
  · rintro fs₁ ⟨hkeeps, hpanic⟩
    exact .inl ⟨hcur.of_keeps_target hkeeps hname,
      fun hno => .inl ⟨header, rest, hheader, hpanic hno⟩⟩

theorem recoverSnapShot_fills (gz : Gzip) (stream : Bytes) {fs : FS KV}
    (hcur : Current env.cwd s.baseDir fs name live)
    (hfresh : fs[targetOf env s stamp]? = none) :
    (recoverSnapShot gz s stamp stream).Ends env fs
      (Restored gz env s stamp name live stream (arrived env))
      (RestoreDied gz env s stamp name live stream (arrived env)) := by
  have hname : name ≠ stampName stamp := by
    rintro rfl
    rw [targetOf, hcur.entry] at hfresh
    simp at hfresh
  unfold recoverSnapShot
  cases hheader : readSnapshotHeader stream with
  | error e =>
    refine Proc.Ends.pure (.inl ⟨.inl ?_, ⟨_, rfl⟩, rfl, hcur⟩)
    rintro ⟨header, records, rest, reason, hok, -⟩
    rw [hheader] at hok
    simp at hok
  | ok pair =>
    obtain ⟨header, rest⟩ := pair
    apply Proc.Ends.bind
    apply (getCurrentDBDirName_ends .restore (join_name_ne_nil _ _) hcur.pointer).weaken
    · rintro result fs₁ ⟨rfl, ⟨hread, rfl⟩ | ⟨hread, rfl⟩⟩
      · apply Proc.Ends.bind
        apply (openDatabase_fresh_ends (resolve_getNewRandomDBDirName ..) hcur.base hfresh).weaken
        · rintro result fs₁ ⟨hkeeps, ⟨hopened, rfl, hnew⟩ | ⟨⟨site, hsite, hfail⟩, rfl⟩⟩
          · exact fillDB_ends gz hheader (hcur.of_keeps_target hkeeps hname) hname hnew hread
              hopened
          · exact Proc.Ends.pure (.inl ⟨.inr ⟨site, by simp [restoreSites, hsite], hfail⟩,
              ⟨_, rfl⟩, rfl, hcur.of_keeps_target hkeeps hname⟩)
        · rintro fs₁ (⟨hcrash, rfl⟩ | ⟨-, hcrash, rfl⟩)
          · exact .inl ⟨hcur, fun hno => absurd hcrash (hno _)⟩
          · exact .inl ⟨hcur.of_keeps_target (.set _ (by simp) _) hname,
              fun hno => absurd hcrash (hno _)⟩
      · exact Proc.Ends.pure (.inl ⟨.inr ⟨.readPointer .restore, by simp [restoreSites], hread⟩,
          ⟨_, rfl⟩, rfl, hcur⟩)
    · rintro fs₁ ⟨rfl, hcrash⟩
      exact .inl ⟨hcur, fun hno => absurd hcrash (hno _)⟩

/-- With all of its writes the new database holds the records of the stream. -/
theorem recoverSnapShot_ends (gz : Gzip) (hdb : env.DbWritesOk) (stream : Bytes) {fs : FS KV}
    (hcur : Current env.cwd s.baseDir fs name live)
    (hfresh : fs[targetOf env s stamp]? = none) :
    (recoverSnapShot gz s stamp stream).Ends env fs
      (Restored gz env s stamp name live stream fun records => applyBatch records ∅)
      (RestoreDied gz env s stamp name live stream fun records => applyBatch records ∅) := by
  rw [← hdb.arrived]
  exact recoverSnapShot_fills gz stream hcur hfresh

end Install

end RaftExample
