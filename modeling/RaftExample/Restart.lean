import RaftExample.RestoreSpec

/-!
# Restarting a node

`newStore` on a base directory whose pointer is healthy: the cleanup removes the
temporary file and every directory the pointer does not name, and the database that
is opened is the one it names.  Nothing here fails, but the process may be killed at
any operation, and then the pointer is as healthy as it was.
-/

namespace RaftExample

section Restart

variable {env : Env Site} {dir : Bytes} {name : Name} {node : Option (Node KV)} {content : KV}

/-- The directories in the base directory are the current one and some of `files`. -/
def StraysIn (cwd : Loc) (dir : Bytes) (name : Name) (files : List (Name × Bool)) (fs : FS KV) :
    Prop :=
  ∀ entry state, fs[resolve cwd dir ++ [entry]]? = some (.dir state) →
    entry = name ∨ (entry, true) ∈ files

/-- The only directory in the base directory is the current one. -/
def OnlyCurrent (cwd : Loc) (dir : Bytes) (name : Name) (fs : FS KV) : Prop :=
  ∀ entry state, fs[resolve cwd dir ++ [entry]]? = some (.dir state) → entry = name

/-- A listed directory that is neither the pointer nor the temporary file. -/
def Removable (files : List (Name × Bool)) : Prop :=
  ∀ entry, (entry, true) ∈ files → entry ≠ currentDBFilename ∧ entry ≠ updatingDBFilename

/-- The entry is listed as a directory, and its path is not the given one. -/
def IsStray (dir dbdir : Bytes) (files : List (Name × Bool)) (entry : Name) : Prop :=
  (entry, true) ∈ files ∧ join dir entry.bytes ≠ dbdir

/-- The location is in no stray. -/
def OutsideStrays (cwd : Loc) (dir dbdir : Bytes) (files : List (Name × Bool)) (loc : Loc) :
    Prop :=
  ∀ entry, IsStray dir dbdir files entry → ¬ resolve cwd dir ++ [entry] <+: loc

theorem OutsideStrays.tail {cwd : Loc} {dbdir : Bytes} {file : Name × Bool}
    {files : List (Name × Bool)} {loc : Loc}
    (h : OutsideStrays cwd dir dbdir (file :: files) loc) :
    OutsideStrays cwd dir dbdir files loc :=
  fun entry hstray => h entry ⟨List.mem_cons_of_mem _ hstray.1, hstray.2⟩

theorem OutsideStrays.entry {cwd : Loc} {dbdir : Bytes} {files : List (Name × Bool)}
    {entry : Name} (h : ¬ IsStray dir dbdir files entry) :
    OutsideStrays cwd dir dbdir files (resolve cwd dir ++ [entry]) := by
  intro other hstray habove
  rw [concat_prefix_concat habove] at hstray
  exact h hstray

/-- The loop of the cleanup touches the strays only, and unless it is killed it removes
    them all. -/
theorem removeStrays_prunes (henv : env.NoFail) (dbdir : Bytes) (files : List (Name × Bool))
    {fs : FS KV} :
    (removeStrays dir dbdir files).Ends env fs
      (fun result fs' => result = .ok () ∧
        FS.Keeps (OutsideStrays env.cwd dir dbdir files) fs fs' ∧
        ∀ entry, IsStray dir dbdir files entry → fs'[resolve env.cwd dir ++ [entry]]? = none)
      (fun fs' => ¬ env.NoCrash ∧ FS.Keeps (OutsideStrays env.cwd dir dbdir files) fs fs') := by
  induction files generalizing fs with
  | nil =>
      apply Proc.Ends.pure
      refine ⟨rfl, .refl fs, ?_⟩
      rintro entry ⟨hmem, -⟩
      simp at hmem
  | cons file files ih =>
      obtain ⟨name, isDirectory⟩ := file
      rw [removeStrays]
      by_cases hskip : isDirectory = false ∨ join dir name.bytes = dbdir
      · rw [if_pos hskip]
        apply ih.weaken
        · rintro result fs' ⟨hresult, hkeeps, hgone⟩
          refine ⟨hresult, hkeeps.mono fun _ hloc => hloc.tail, ?_⟩
          rintro entry ⟨hmem, hjoin⟩
          rcases List.mem_cons.mp hmem with hpair | hmem
          · injection hpair with hentry hflag
            subst hentry hflag
            simp [hjoin] at hskip
          · exact hgone entry ⟨hmem, hjoin⟩
        · rintro fs' ⟨hcrash, hkeeps⟩
          exact ⟨hcrash, hkeeps.mono fun _ hloc => hloc.tail⟩
      · rw [if_neg hskip]
        obtain ⟨hdirectory, hjoin⟩ := not_or.mp hskip
        have htrue : isDirectory = true := by simpa using hdirectory
        subst htrue
        have hstray : IsStray dir dbdir ((name, true) :: files) name :=
          ⟨List.mem_cons_self, hjoin⟩
        apply Proc.Ends.bind
        apply Proc.Ends.removeAll_prunes.weaken
        · rintro result fs₁ ⟨⟨hfirst, -⟩, ⟨rfl, -, -, hremoved⟩ | ⟨-, hfail⟩⟩
          · rw [resolve_join] at hfirst hremoved
            have hkept : FS.Keeps (OutsideStrays env.cwd dir dbdir ((name, true) :: files)) fs fs₁ :=
              hfirst.mono fun loc hloc => hloc name hstray
            apply ih.weaken
            · rintro result' fs' ⟨hresult, hrest, hgone⟩
              refine ⟨hresult, hkept.trans (hrest.mono fun _ hloc => hloc.tail), ?_⟩
              rintro entry ⟨hmem, hne⟩
              by_cases hagain : IsStray dir dbdir files entry
              · exact hgone entry hagain
              · -- the one this turn removed; the later turns leave its place alone
                rcases List.mem_cons.mp hmem with hpair | hmem
                · injection hpair with hentry
                  subst hentry
                  rw [hrest _ (.entry hagain)]
                  exact hremoved
                · exact absurd ⟨hmem, hne⟩ hagain
            · rintro fs' ⟨hcrash, hrest⟩
              exact ⟨hcrash, hkept.trans (hrest.mono fun _ hloc => hloc.tail)⟩
          · exact absurd hfail (not_or.mpr ⟨henv _, henv _⟩)
        · rintro fs₁ ⟨⟨hfirst, -⟩, hcrash⟩
          rw [resolve_join] at hfirst
          exact ⟨fun hno => hcrash.elim (hno _) (hno _),
            hfirst.mono fun loc hloc => hloc name hstray⟩

/-- Removing strays leaves the pointer and what it names alone. -/
theorem PointsTo.of_keeps_strays {files : List (Name × Bool)} {fs fs' : FS KV}
    (hcur : PointsTo env.cwd dir fs name node) (hremovable : Removable files)
    (hkeeps : FS.Keeps (OutsideStrays env.cwd dir (join dir name.bytes) files) fs fs') :
    PointsTo env.cwd dir fs' name node := by
  apply hcur.of_keeps hkeeps
  · intro loc hloc entry _
    exact not_concat_prefix_of_prefix hloc
  · exact .entry fun hstray => (hremovable _ hstray.1).1 rfl
  · exact .entry fun hstray => hstray.2 rfl
  · rw [hkeeps.isDir (.entry fun hstray => (hremovable _ hstray.1).2 rfl)]
    exact hcur.updating

theorem removeStrays_ends (henv : env.NoFail) (files : List (Name × Bool)) {fs : FS KV}
    (hcur : PointsTo env.cwd dir fs name node) (hremovable : Removable files)
    (hstrays : StraysIn env.cwd dir name files fs) :
    (removeStrays dir (join dir name.bytes) files).Ends env fs
      (fun result fs' => result = .ok () ∧ PointsTo env.cwd dir fs' name node ∧
        OnlyCurrent env.cwd dir name fs')
      (fun fs' => ¬ env.NoCrash ∧ PointsTo env.cwd dir fs' name node) := by
  apply (removeStrays_prunes henv (join dir name.bytes) files).weaken
  · rintro result fs' ⟨hresult, hkeeps, hgone⟩
    refine ⟨hresult, hcur.of_keeps_strays hremovable hkeeps, ?_⟩
    intro entry state hentry
    by_cases hstray : IsStray dir (join dir name.bytes) files entry
    · rw [hgone entry hstray] at hentry
      simp at hentry
    · rw [hkeeps _ (.entry hstray)] at hentry
      rcases hstrays entry state hentry with heq | hmem
      · exact heq
      · by_contra hne
        exact hstray ⟨hmem, fun hjoin => hne (join_injective dir hjoin)⟩
  · rintro fs' ⟨hcrash, hkeeps⟩
    exact ⟨hcrash, hcur.of_keeps_strays hremovable hkeeps⟩

/-- The cleanup up to its loop: it reads the pointer and lists the base directory when the
    temporary file is gone. -/
theorem cleanupNodeDataDir_lists (henv : env.NoFail) {dbdir : Bytes} {fs : FS KV}
    {post : Except Err Unit → FS KV → Prop} {crash : FS KV → Prop} (hne : dbdir ≠ [])
    (hbase : fs.isDir (resolve env.cwd dir) = true)
    (hpointer : fs[resolve env.cwd dir ++ [currentDBFilename]]? =
      some (.file (pointerContent dbdir)))
    (hloop : ∀ fs₁, FS.Prunes (resolve env.cwd dir ++ [updatingDBFilename]) fs fs₁ →
      (removeStrays dir dbdir (fs₁.entries (resolve env.cwd dir))).Ends env fs₁ post crash)
    (hcrash : ∀ fs₁, FS.Prunes (resolve env.cwd dir ++ [updatingDBFilename]) fs fs₁ →
      ¬ env.NoCrash → crash fs₁) :
    (cleanupNodeDataDir dir).Ends env fs post crash := by
  unfold cleanupNodeDataDir
  apply Proc.Ends.bind
  apply Proc.Ends.removeAll_prunes.weaken
  · rintro _ fs₁ ⟨hprunes, -⟩
    rw [resolve_join] at hprunes
    have hpointer₁ := hpointer
    rw [← hprunes.1 _ fun habove => updating_ne_current (concat_prefix_concat habove)] at hpointer₁
    have hoff : ¬ (resolve env.cwd dir ++ [updatingDBFilename]) <+: resolve env.cwd dir :=
      not_concat_prefix_of_prefix (List.prefix_refl _)
    have hbase₁ := hbase
    rw [← hprunes.1.isDir hoff] at hbase₁
    apply Proc.Ends.bind
    apply (getCurrentDBDirName_ends .cleanup hne hpointer₁).weaken
    · rintro result fs₂ ⟨rfl, ⟨-, rfl⟩ | ⟨hfail, -⟩⟩
      · apply Proc.Ends.bind
        exact Proc.Ends.readDir hbase₁ (fun _ => hloop fs₂ hprunes) (fun h => absurd h (henv _))
          (fun h => hcrash fs₂ hprunes fun hno => hno _ h)
      · exact absurd hfail (henv _)
    · rintro fs₂ ⟨rfl, hkilled⟩
      exact hcrash fs₂ hprunes fun hno => hno _ hkilled
  · rintro fs₁ ⟨hprunes, hkilled⟩
    rw [resolve_join] at hprunes
    exact hcrash fs₁ hprunes fun hno => hkilled.elim (hno _) (hno _)

theorem cleanupNodeDataDir_ends (henv : env.NoFail) {fs : FS KV}
    (hcur : PointsTo env.cwd dir fs name node) :
    (cleanupNodeDataDir dir).Ends env fs
      (fun result fs' => result = .ok () ∧ PointsTo env.cwd dir fs' name node ∧
        OnlyCurrent env.cwd dir name fs')
      (fun fs' => ¬ env.NoCrash ∧ PointsTo env.cwd dir fs' name node) := by
  apply cleanupNodeDataDir_lists henv (join_name_ne_nil dir name) hcur.base_isDir hcur.pointer
  · intro fs₁ hprunes
    have hcur₁ := hcur.of_prunes_updating hprunes
    apply removeStrays_ends henv _ hcur₁
    · intro entry hentry
      obtain ⟨found, hnode, hflag⟩ := (FS.mem_entries ..).mp hentry
      cases found with
      | file data => simp at hflag
      | dir state => exact hcur₁.dir_entry_ne hnode
    · intro entry state hentry
      exact .inr ((FS.mem_entries ..).mpr ⟨_, hentry, rfl⟩)
  · intro fs₁ hprunes hkilled
    exact ⟨hkilled, hcur.of_prunes_updating hprunes⟩

/-- The restart branch insists that something stands where the pointer points. -/
theorem reuseCurrentDir_ends (henv : env.NoFail) {fs : FS KV}
    (hcur : PointsTo env.cwd dir fs name node) :
    (reuseCurrentDir dir).Ends env fs
      (fun result fs' =>
        result = (if node.isSome then .ok (join dir name.bytes) else .error .dbDirDeleted) ∧
        PointsTo env.cwd dir fs' name node ∧ OnlyCurrent env.cwd dir name fs')
      (fun fs' => ¬ env.NoCrash ∧ PointsTo env.cwd dir fs' name node) := by
  unfold reuseCurrentDir
  apply Proc.Ends.bind
  apply (cleanupNodeDataDir_ends henv hcur).weaken
  · rintro _ fs₁ ⟨rfl, hcur₁, honly⟩
    apply Proc.Ends.bind
    apply (getCurrentDBDirName_ends .startup (join_name_ne_nil dir name) hcur₁.pointer).weaken
    · rintro result fs₂ ⟨rfl, ⟨-, rfl⟩ | ⟨hfail, -⟩⟩
      · apply Proc.Ends.bind
        have hlookup : fs₂[resolve env.cwd (join dir name.bytes)]? = node := by
          rw [resolve_join, hcur₁.entry]
        cases node with
        | none =>
            have hmissing : fs₂.isDir (resolve env.cwd (join dir name.bytes)) = false := by
              rw [resolve_join]
              exact FS.isDir_concat_eq_false (by simp [hcur₁.entry])
            refine Proc.Ends.stat_missing hlookup hmissing (fun _ => ?_)
              (fun h => absurd h (henv _)) (fun h => ⟨fun hno => hno _ h, hcur₁⟩)
            exact Proc.Ends.pure ⟨rfl, hcur₁, honly⟩
        | some found =>
            refine Proc.Ends.stat (by rw [hlookup]; rfl) (fun _ => ?_)
              (fun h => absurd h (henv _)) (fun h => ⟨fun hno => hno _ h, hcur₁⟩)
            exact Proc.Ends.pure ⟨rfl, hcur₁, honly⟩
      · exact absurd hfail (henv _)
    · rintro fs₂ ⟨rfl, hcrash⟩
      exact ⟨fun hno => hno _ hcrash, hcur₁⟩
  · intro fs₁ h
    exact h

/-- With a pointer in place a start takes the restart branch. -/
theorem getPebbleDBDir_pointed_ends (henv : env.NoFail) (stamp : Stamp) {fs : FS KV}
    (hcur : PointsTo env.cwd dir fs name node) :
    (getPebbleDBDir dir stamp).Ends env fs
      (fun result fs' =>
        result = (if node.isSome then .ok (join dir name.bytes) else .error .dbDirDeleted) ∧
        PointsTo env.cwd dir fs' name node ∧ OnlyCurrent env.cwd dir name fs')
      (fun fs' => ¬ env.NoCrash ∧ PointsTo env.cwd dir fs' name node) := by
  unfold getPebbleDBDir isNewRun
  apply Proc.Ends.bind
  apply Proc.Ends.bind
  refine Proc.Ends.stat ?_ (fun _ => ?_) (fun h => absurd h (henv _))
    (fun h => ⟨fun hno => hno _ h, hcur⟩)
  · rw [resolve_join, hcur.pointer]
    rfl
  · apply Proc.Ends.pure
    exact reuseCurrentDir_ends henv hcur

/-- What opening the directory the pointer names makes of it. -/
def openedContent : Option (Node KV) → Option KV
  | some (.dir .plain) => some ∅
  | some (.dir (.database content)) => some content
  | _ => none

theorem openedContent_eq_some {node : Option (Node KV)} (h : openedContent node = some content) :
    (node = some (.dir .plain) ∧ content = ∅) ∨ node = some (.dir (.database content)) := by
  unfold openedContent at h
  split at h
  · exact .inl ⟨rfl, (Option.some.inj h).symm⟩
  · exact .inr (by rw [Option.some.inj h])
  · simp at h

theorem PointsTo.not_blocked {cwd : Loc} {fs : FS KV} (h : PointsTo cwd dir fs name node) :
    fs.blocked (resolve cwd dir) = false :=
  FS.blocked_eq_false fs fun ancestor hancestor => .inl (h.base ancestor hancestor)

/-- Opening the directory the pointer names, when it is a database or still empty. -/
theorem openDatabase_pointed_ends (henv : env.NoFail) {fs : FS KV}
    (hcur : PointsTo env.cwd dir fs name node) (honly : OnlyCurrent env.cwd dir name fs)
    (hopened : openedContent node = some content) :
    (Proc.openDatabase .makeDbDir .initDb (join dir name.bytes) : Disk _).Ends env fs
      (fun result fs' => result = .ok (resolve env.cwd dir ++ [name]) ∧
        Current env.cwd dir fs' name content ∧ OnlyCurrent env.cwd dir name fs')
      (fun fs' => ¬ env.NoCrash ∧ PointsTo env.cwd dir fs' name node) := by
  have hdir : fs.isDir (resolve env.cwd dir ++ [name]) = true := by
    apply FS.isDir_iff.mpr
    right
    rw [hcur.entry]
    rcases openedContent_eq_some hopened with ⟨rfl, -⟩ | rfl
    · exact ⟨_, rfl⟩
    · exact ⟨_, rfl⟩
  have hancestors : ∀ ancestor, ancestor <+: resolve env.cwd dir ++ [name] →
      fs.isDir ancestor = true := by
    intro ancestor hancestor
    rcases List.prefix_concat_iff.mp hancestor with rfl | hbase
    · exact hdir
    · exact hcur.base ancestor hbase
  have hfree : fs.blocked (resolve env.cwd (join dir name.bytes)) = false := by
    rw [resolve_join]
    exact FS.blocked_eq_false fs fun ancestor h => .inl (hancestors ancestor h)
  unfold Proc.openDatabase
  apply Proc.Ends.bind
  refine Proc.Ends.mkdirAll hfree (fun _ => ?_) (fun h => absurd h (henv _))
    (fun h => ⟨fun hno => hno _ h, hcur⟩)
  rw [resolve_join, FS.mkdirAll_of_isDir fs hancestors]
  refine Proc.Ends.perform (fun _ => ?_) (fun h => absurd h (henv _))
    (fun h => ⟨fun hno => hno _ h, hcur⟩)
  rw [resolve_join]
  rcases openedContent_eq_some hopened with ⟨hplain, rfl⟩ | hdatabase
  · -- the directory was made, but the database in it was not
    rw [hplain] at hcur
    have hname := (hcur.dir_entry_ne hcur.entry).1
    simp only [hcur.entry]
    refine ⟨trivial, hcur.with_entry hname (.set fs (by simp) _) (FS.lookup_set_self ..), ?_⟩
    intro entry state hentry
    by_cases heq : entry = name
    · exact heq
    · rw [FS.lookup_set_ne _ (by simpa using Ne.symm heq)] at hentry
      exact honly entry state hentry
  · rw [hdatabase] at hcur
    simp only [hcur.entry]
    exact ⟨trivial, hcur, honly⟩

/-- A start on a directory the pointer of which names a database, or a directory that
    is to become one, opens it and leaves no other; being killed on the way does no
    harm. -/
theorem newStore_pointed_ends (henv : env.NoFail) (stamp : Stamp) {fs : FS KV}
    (hcur : PointsTo env.cwd dir fs name node) (hopened : openedContent node = some content) :
    (newStore dir stamp).Ends env fs
      (fun result fs' => ∃ s, result = .ok s ∧ s.baseDir = dir ∧ s.closed = false ∧
        Serving env.cwd s fs' name content ∧ OnlyCurrent env.cwd dir name fs')
      (fun fs' => ¬ env.NoCrash ∧ PointsTo env.cwd dir fs' name node) := by
  have hsome : node.isSome = true := by
    rcases openedContent_eq_some hopened with ⟨rfl, -⟩ | rfl
    · rfl
    · rfl
  unfold newStore
  apply Proc.Ends.bind
  refine Proc.Ends.mkdirAll hcur.not_blocked (fun _ => ?_) (fun h => absurd h (henv _))
    (fun h => ⟨fun hno => hno _ h, hcur⟩)
  rw [FS.mkdirAll_of_isDir fs hcur.base]
  apply Proc.Ends.bind
  apply (getPebbleDBDir_pointed_ends henv stamp hcur).weaken
  · rintro _ fs₁ ⟨rfl, hcur₁, honly⟩
    rw [if_pos hsome]
    apply Proc.Ends.bind
    apply (openDatabase_pointed_ends henv hcur₁ honly hopened).weaken
    · rintro _ fs₂ ⟨rfl, hcur₂, honly₂⟩
      exact Proc.Ends.pure ⟨_, rfl, rfl, rfl, ⟨hcur₂, rfl⟩, honly₂⟩
    · intro fs₂ h
      exact h
  · intro fs₁ h
    exact h

/-- A start on a directory the pointer of which names nothing. -/
theorem newStore_orphaned_ends (henv : env.NoFail) (stamp : Stamp) {fs : FS KV}
    (hcur : PointsTo env.cwd dir fs name none) :
    (newStore dir stamp).Ends env fs
      (fun result fs' => result = .error .dbDirDeleted ∧ PointsTo env.cwd dir fs' name none)
      (fun fs' => ¬ env.NoCrash ∧ PointsTo env.cwd dir fs' name none) := by
  unfold newStore
  apply Proc.Ends.bind
  refine Proc.Ends.mkdirAll hcur.not_blocked (fun _ => ?_) (fun h => absurd h (henv _))
    (fun h => ⟨fun hno => hno _ h, hcur⟩)
  rw [FS.mkdirAll_of_isDir fs hcur.base]
  apply Proc.Ends.bind
  apply (getPebbleDBDir_pointed_ends henv stamp hcur).weaken
  · rintro _ fs₁ ⟨rfl, hcur₁, -⟩
    exact Proc.Ends.pure ⟨rfl, hcur₁⟩
  · intro fs₁ h
    exact h

/-- A restart that is not disturbed. -/
theorem newStore_restart_fair (cwd : Loc) (stamp : Stamp) {fs : FS KV}
    (hcur : Current cwd dir fs name content) :
    ∃ s fs', newStore dir stamp (.fair cwd) fs = (.value (.ok s), fs') ∧ s.baseDir = dir ∧
      s.closed = false ∧ Serving cwd s fs' name content ∧ OnlyCurrent cwd dir name fs' := by
  have hfair : (Env.fair cwd : Env Site).AllOk := Env.fair_allOk cwd
  rcases (newStore_pointed_ends hfair.noFail stamp hcur rfl).cases with
    ⟨_, fs', hrun, s, rfl, hdir, hclosed, hserving, honly⟩ | ⟨_, -, hcrash, -⟩
  · exact ⟨s, fs', hrun, hdir, hclosed, hserving, honly⟩
  · exact absurd hfair.noCrash hcrash

end Restart

end RaftExample
