import RaftExample.Restart

/-!
# The first start of a node

On an empty base directory `newStore` publishes a pointer to a directory that does
not exist yet and creates the directory afterwards.  A process killed in between
leaves a pointer to nothing, and the branch every later start takes refuses such a
pointer.  Killed at any other moment, any number of times, the node starts.
-/

namespace RaftExample

/-- Nothing exists below the base directory, and it can be created. -/
structure Blank (cwd : Loc) (dir : Bytes) (fs : FS KV) : Prop where
  free : fs.blocked (resolve cwd dir) = false
  empty : ∀ loc, resolve cwd dir <+: loc → loc ≠ resolve cwd dir → fs[loc]? = none

/-- No pointer was published; at most the temporary file is there. -/
structure Unstarted (cwd : Loc) (dir : Bytes) (fs : FS KV) : Prop where
  free : fs.blocked (resolve cwd dir) = false
  empty : ∀ loc, resolve cwd dir <+: loc → loc ≠ resolve cwd dir →
    loc ≠ resolve cwd dir ++ [updatingDBFilename] → fs[loc]? = none
  updating : fs.isDir (resolve cwd dir ++ [updatingDBFilename]) = false

section FirstStart

variable {env : Env Site} {cwd : Loc} {dir : Bytes} {fs fs' : FS KV}

theorem Blank.unstarted (h : Blank cwd dir fs) : Unstarted cwd dir fs where
  free := h.free
  empty := fun loc hbelow hne _ => h.empty loc hbelow hne
  updating := by
    apply FS.isDir_concat_eq_false
    intro state
    rw [h.empty _ (List.prefix_append ..) (by simp)]
    simp

theorem Unstarted.entry (h : Unstarted cwd dir fs) {name : Name}
    (hname : name ≠ updatingDBFilename) : fs[resolve cwd dir ++ [name]]? = none :=
  h.empty _ (List.prefix_append ..) (by simp) (by simpa using hname)

/-- Making the base directory changes nothing in it. -/
theorem Unstarted.mkdirAll (h : Unstarted cwd dir fs) :
    Unstarted cwd dir (fs.mkdirAll (resolve cwd dir)) where
  free := FS.blocked_eq_false _ fun _ hancestor => .inl (FS.isDir_mkdirAll fs hancestor)
  empty := by
    intro loc hbelow hne hupdating
    rw [FS.lookup_mkdirAll_of_not_prefix]
    · exact h.empty loc hbelow hne hupdating
    · intro habove
      exact hne (habove.eq_of_length (Nat.le_antisymm habove.length_le hbelow.length_le))
  updating := by
    rw [← h.updating]
    apply FS.isDir_congr
    apply FS.lookup_mkdirAll_of_not_prefix
    exact not_concat_prefix_of_prefix (List.prefix_refl _)

theorem Unstarted.of_onlyUpdating (h : Unstarted cwd dir fs)
    (hbase : ∀ ancestor, ancestor <+: resolve cwd dir → fs.isDir ancestor = true)
    (honly : OnlyUpdating cwd dir fs fs') :
    Unstarted cwd dir fs' ∧
      ∀ ancestor, ancestor <+: resolve cwd dir → fs'.isDir ancestor = true := by
  have hbase' : ∀ ancestor, ancestor <+: resolve cwd dir → fs'.isDir ancestor = true := by
    intro ancestor hancestor
    rw [honly.1.isDir]
    · exact hbase ancestor hancestor
    · rintro rfl
      have := hancestor.length_le
      simp at this
  refine ⟨⟨?_, ?_, honly.2⟩, hbase'⟩
  · exact FS.blocked_eq_false _ fun ancestor hancestor => .inl (hbase' ancestor hancestor)
  · intro loc hbelow hne hupdating
    rw [honly.1 loc hupdating]
    exact h.empty loc hbelow hne hupdating

/-- A process that is killed was killed at some operation. -/
theorem Env.NoFail.not_noCrash (henv : env.NoFail) {site : Site} (h : env.fate site ≠ .ok) :
    ¬ env.NoCrash := by
  intro hno
  cases hfate : env.fate site with
  | ok => exact h hfate
  | fail => exact henv site hfate
  | crash => exact hno site hfate

/-- Publishing a fresh name: before the rename nothing has happened, after it the
    pointer names a directory that is not there. -/
theorem publishFreshDir_ends (henv : env.NoFail) (stamp : Stamp)
    (hstate : Unstarted env.cwd dir fs)
    (hbase : ∀ ancestor, ancestor <+: resolve env.cwd dir → fs.isDir ancestor = true) :
    (publishFreshDir dir stamp).Ends env fs
      (fun result fs' => result = .ok (join dir (stampName stamp).bytes) ∧
        (∀ site ∈ publishSites, env.fate site = .ok) ∧ env.fate .syncReplaced = .ok ∧
        PointsTo env.cwd dir fs' (stampName stamp) none)
      (fun fs' => ¬ env.NoCrash ∧
        (((∃ site ∈ publishSites, env.fate site ≠ .ok) ∧ Unstarted env.cwd dir fs') ∨
          ((∀ site ∈ publishSites, env.fate site = .ok) ∧ env.fate .syncReplaced = .crash ∧
            PointsTo env.cwd dir fs' (stampName stamp) none))) := by
  obtain ⟨hcurrent, hupdating⟩ := stampName_ne stamp
  unfold publishFreshDir
  apply Proc.Ends.bind
  apply (saveCurrentDBDirName_ends (hbase _ (List.prefix_refl _)) hstate.updating).weaken
  · rintro result fs₁ ⟨honly, ⟨rfl, hsave, hwritten⟩ | ⟨-, site, -, hfail⟩⟩
    · obtain ⟨hstate₁, hbase₁⟩ := hstate.of_onlyUpdating hbase honly
      have hrenamed : PointsTo env.cwd dir (renamedPointer env.cwd dir
          (pointerContent (getNewRandomDBDirName dir stamp)) fs₁) (stampName stamp) none := by
        have hpoints := pointsTo_renamedPointer hbase₁ hcurrent hupdating
        rwa [hstate₁.entry hupdating] at hpoints
      have hall : env.fate .renameUpdating = .ok → ∀ site ∈ publishSites, env.fate site = .ok := by
        intro hrename site hsite
        rcases List.mem_append.mp hsite with hsite | hsite
        · exact hsave site hsite
        · rw [List.mem_singleton.mp hsite]
          exact hrename
      apply Proc.Ends.bind
      apply (replaceCurrentDBFile_ends (hbase₁ _ (List.prefix_refl _)) hwritten).weaken
      · rintro result fs₂ (⟨hfail, -, -⟩ | ⟨hrename, rfl, ⟨hsync, rfl⟩ | ⟨hfail, -⟩⟩)
        · exact absurd hfail (henv _)
        · exact Proc.Ends.pure ⟨rfl, hall hrename, hsync, hrenamed⟩
        · exact absurd hfail (henv _)
      · rintro fs₂ (⟨hrename, rfl⟩ | ⟨hrename, hsync, rfl⟩)
        · exact ⟨fun hno => hno _ hrename,
            .inl ⟨⟨.renameUpdating, by simp [publishSites], by simp [hrename]⟩, hstate₁⟩⟩
        · exact ⟨fun hno => hno _ hsync, .inr ⟨hall hrename, hsync, hrenamed⟩⟩
    · exact absurd hfail (henv _)
  · rintro fs₁ ⟨honly, site, hsite, hfate⟩
    exact ⟨henv.not_noCrash hfate, .inl ⟨⟨site, by simp [publishSites, hsite], hfate⟩,
      (hstate.of_onlyUpdating hbase honly).1⟩⟩

/-- The operations of a first start up to the rename of the pointer file. -/
def firstSites : List Site := .mkdirBase :: .statRunning :: publishSites

def publishesPointer (env : Env Site) : Bool :=
  firstSites.all fun site => decide (env.fate site = .ok)

/-- Killed when the pointer is in place and its directory is not. -/
def killedInGap (env : Env Site) : Bool :=
  decide (env.fate .syncReplaced = .crash) || decide (env.fate .makeDbDir = .crash)

theorem publishesPointer_eq_true (hmkdir : env.fate .mkdirBase = .ok)
    (hstat : env.fate .statRunning = .ok) (hall : ∀ site ∈ publishSites, env.fate site = .ok) :
    publishesPointer env = true := by
  rw [publishesPointer, List.all_eq_true]
  intro site hsite
  rcases List.mem_cons.mp hsite with rfl | hsite
  · simpa using hmkdir
  · rcases List.mem_cons.mp hsite with rfl | hsite
    · simpa using hstat
    · simpa using hall site hsite

theorem publishesPointer_eq_false (site : Site) (hsite : site ∈ firstSites)
    (hfate : env.fate site ≠ .ok) : publishesPointer env = false := by
  rw [publishesPointer, List.all_eq_false]
  exact ⟨site, hsite, by simpa using hfate⟩

/-- Where a killed first start leaves the disk. -/
inductive FirstStartKilled (env : Env Site) (dir : Bytes) (stamp : Stamp) (fs : FS KV) :
    Prop where
  | unpublished : publishesPointer env = false → Unstarted env.cwd dir fs →
      FirstStartKilled env dir stamp fs
  | orphaned : publishesPointer env = true → killedInGap env = true →
      PointsTo env.cwd dir fs (stampName stamp) none → FirstStartKilled env dir stamp fs
  | unfilled : publishesPointer env = true → killedInGap env = false →
      PointsTo env.cwd dir fs (stampName stamp) (some (.dir .plain)) →
      FirstStartKilled env dir stamp fs

theorem newStore_first_ends (henv : env.NoFail) (stamp : Stamp)
    (hstate : Unstarted env.cwd dir fs) :
    (newStore dir stamp).Ends env fs
      (fun result fs' => publishesPointer env = true ∧ killedInGap env = false ∧
        ∃ s, result = .ok s ∧ s.baseDir = dir ∧ s.closed = false ∧
          Serving env.cwd s fs' (stampName stamp) ∅)
      (fun fs' => ¬ env.NoCrash ∧ FirstStartKilled env dir stamp fs') := by
  obtain ⟨hcurrent, hupdating⟩ := stampName_ne stamp
  have hstate₁ := hstate.mkdirAll
  have hbase₁ : ∀ ancestor, ancestor <+: resolve env.cwd dir →
      (fs.mkdirAll (resolve env.cwd dir)).isDir ancestor = true :=
    fun ancestor hancestor => FS.isDir_mkdirAll fs hancestor
  have hpointer : (fs.mkdirAll (resolve env.cwd dir))[
      resolve env.cwd (join dir currentDBFilename.bytes)]? = none := by
    rw [resolve_join]
    exact hstate₁.entry updating_ne_current.symm
  have hnotDir : (fs.mkdirAll (resolve env.cwd dir)).isDir
      (resolve env.cwd (join dir currentDBFilename.bytes)) = false := by
    rw [resolve_join] at hpointer ⊢
    exact FS.isDir_concat_eq_false (by simp [hpointer])
  unfold newStore
  apply Proc.Ends.bind
  refine Proc.Ends.mkdirAll hstate.free (fun hmkdir => ?_) (fun h => absurd h (henv _))
    (fun h => ⟨fun hno => hno _ h, .unpublished
      (publishesPointer_eq_false .mkdirBase (by simp [firstSites]) (by simp [h])) hstate⟩)
  apply Proc.Ends.bind
  unfold getPebbleDBDir isNewRun
  apply Proc.Ends.bind
  apply Proc.Ends.bind
  refine Proc.Ends.stat_missing hpointer hnotDir (fun hstat => ?_) (fun h => absurd h (henv _))
    (fun h => ⟨fun hno => hno _ h, .unpublished
      (publishesPointer_eq_false .statRunning (by simp [firstSites]) (by simp [h])) hstate₁⟩)
  apply Proc.Ends.pure
  apply (publishFreshDir_ends henv stamp hstate₁ hbase₁).weaken
  · rintro _ fs₁ ⟨rfl, hall, hsync, hpoints⟩
    have hpublishes := publishesPointer_eq_true hmkdir hstat hall
    apply Proc.Ends.bind
    apply (openDatabase_fresh_ends (resolve_join ..) hpoints.base hpoints.entry).weaken
    · rintro _ fs₂ ⟨hkeeps, ⟨hopened, rfl, hnew⟩ | ⟨⟨site, -, hfail⟩, -⟩⟩
      · have hmake := hopened .makeDbDir (by simp [openSites])
        exact Proc.Ends.pure ⟨hpublishes, by simp [killedInGap, hsync, hmake], _, rfl, rfl, rfl,
          hpoints.with_entry hcurrent hkeeps hnew, rfl⟩
      · exact absurd hfail (henv _)
    · rintro fs₂ (⟨hmake, rfl⟩ | ⟨hmake, hinit, rfl⟩)
      · exact ⟨fun hno => hno _ hmake,
          .orphaned hpublishes (by simp [killedInGap, hmake]) hpoints⟩
      · exact ⟨fun hno => hno _ hinit,
          .unfilled hpublishes (by simp [killedInGap, hsync, hmake])
            (hpoints.with_entry hcurrent (.set _ (by simp) _) (FS.lookup_set_self ..))⟩
  · rintro fs₁ ⟨hcrash, ⟨⟨site, hsite, hfate⟩, hstate₂⟩ | ⟨hall, hsync, hpoints⟩⟩
    · exact ⟨hcrash, .unpublished
        (publishesPointer_eq_false site (by simp [firstSites, hsite]) hfate) hstate₂⟩
    · exact ⟨hcrash, .orphaned (publishesPointer_eq_true hmkdir hstat hall)
        (by simp [killedInGap, hsync]) hpoints⟩

/-! ### Starting again and again -/

/-- The pointer names a directory that opens as an empty database. -/
def Startable (cwd : Loc) (dir : Bytes) (fs : FS KV) : Prop :=
  ∃ name node, PointsTo cwd dir fs name node ∧ openedContent node = some ∅

/-- The pointer names nothing. -/
def Orphaned (cwd : Loc) (dir : Bytes) (fs : FS KV) : Prop :=
  ∃ name, PointsTo cwd dir fs name none

/-- The disk after a series of starts, each of which may be killed anywhere. -/
def afterAttempts (dir : Bytes) (attempts : List (Stamp × Env Site)) (fs : FS KV) : FS KV :=
  attempts.foldl (fun fs attempt => (newStore dir attempt.1 attempt.2 fs).2) fs

/-- What the first start that got as far as the rename did next. -/
def killedAfterPublishing (attempts : List (Stamp × Env Site)) : Bool :=
  match attempts.find? fun attempt => publishesPointer attempt.2 with
  | some attempt => killedInGap attempt.2
  | none => false

/-- An undisturbed `newStore` returns an open, empty store. -/
def StartsEmpty (cwd : Loc) (dir : Bytes) (stamp : Stamp) (fs : FS KV) : Prop :=
  ∃ s fs', newStore dir stamp (.fair cwd) fs = (.value (.ok s), fs') ∧ s.closed = false ∧
    fs'[s.db]? = some (.dir (.database ∅))

theorem Startable.newStore (henv : env.NoFail) (stamp : Stamp)
    (h : Startable env.cwd dir fs) : Startable env.cwd dir (newStore dir stamp env fs).2 := by
  obtain ⟨name, node, hpoints, hopened⟩ := h
  apply (newStore_pointed_ends henv stamp hpoints hopened).disk
  · rintro _ fs' ⟨s, -, rfl, -, hserving, -⟩
    exact ⟨name, _, hserving.toPointsTo, rfl⟩
  · rintro fs' ⟨-, hpoints'⟩
    exact ⟨name, node, hpoints', hopened⟩

theorem Orphaned.newStore (henv : env.NoFail) (stamp : Stamp)
    (h : Orphaned env.cwd dir fs) : Orphaned env.cwd dir (newStore dir stamp env fs).2 := by
  obtain ⟨name, hpoints⟩ := h
  apply (newStore_orphaned_ends henv stamp hpoints).disk
  · rintro _ fs' ⟨-, hpoints'⟩
    exact ⟨name, hpoints'⟩
  · rintro fs' ⟨-, hpoints'⟩
    exact ⟨name, hpoints'⟩

/-- Where a start leaves a base directory that had no pointer. -/
inductive FirstStarted (env : Env Site) (dir : Bytes) (fs : FS KV) : Prop where
  | unstarted : publishesPointer env = false → Unstarted env.cwd dir fs →
      FirstStarted env dir fs
  | orphaned : publishesPointer env = true → killedInGap env = true →
      Orphaned env.cwd dir fs → FirstStarted env dir fs
  | startable : publishesPointer env = true → killedInGap env = false →
      Startable env.cwd dir fs → FirstStarted env dir fs

theorem Unstarted.newStore (henv : env.NoFail) (stamp : Stamp)
    (h : Unstarted env.cwd dir fs) : FirstStarted env dir (newStore dir stamp env fs).2 := by
  apply (newStore_first_ends henv stamp h).disk
  · rintro _ fs' ⟨hpublishes, hgap, s, -, rfl, -, hserving⟩
    exact .startable hpublishes hgap ⟨_, _, hserving.toPointsTo, rfl⟩
  · rintro fs' ⟨-, hkilled⟩
    cases hkilled with
    | unpublished hpublishes hstate => exact .unstarted hpublishes hstate
    | orphaned hpublishes hgap hpoints => exact .orphaned hpublishes hgap ⟨_, hpoints⟩
    | unfilled hpublishes hgap hpoints => exact .startable hpublishes hgap ⟨_, _, hpoints, rfl⟩

/-- A condition every start keeps holds after any number of them. -/
theorem afterAttempts_induction {holds : FS KV → Prop} (attempts : List (Stamp × Env Site))
    (hattempts : ∀ attempt ∈ attempts, attempt.2.NoFail ∧ attempt.2.cwd = cwd)
    (hstep : ∀ (env : Env Site) (stamp : Stamp) (fs : FS KV), env.NoFail → env.cwd = cwd →
      holds fs → holds (newStore dir stamp env fs).2) :
    ∀ fs, holds fs → holds (afterAttempts dir attempts fs) := by
  induction attempts with
  | nil => exact fun _ h => h
  | cons attempt attempts ih =>
    intro fs h
    obtain ⟨henv, hcwd⟩ := hattempts attempt List.mem_cons_self
    apply ih (fun other hother => hattempts other (List.mem_cons_of_mem _ hother))
    exact hstep attempt.2 attempt.1 fs henv hcwd h

/-- After any number of starts the node either starts or is lost, and which of the two
    was decided by the first start that renamed the pointer file. -/
theorem afterAttempts_unstarted (attempts : List (Stamp × Env Site))
    (hattempts : ∀ attempt ∈ attempts, attempt.2.NoFail ∧ attempt.2.cwd = cwd) :
    ∀ fs, Unstarted cwd dir fs →
      (killedAfterPublishing attempts = true ∧
        Orphaned cwd dir (afterAttempts dir attempts fs)) ∨
      (killedAfterPublishing attempts = false ∧
        (Unstarted cwd dir (afterAttempts dir attempts fs) ∨
          Startable cwd dir (afterAttempts dir attempts fs))) := by
  induction attempts with
  | nil => exact fun _ h => .inr ⟨rfl, .inl h⟩
  | cons attempt attempts ih =>
    intro fs h
    obtain ⟨henv, hcwd⟩ := hattempts attempt List.mem_cons_self
    have hlater : ∀ other ∈ attempts, other.2.NoFail ∧ other.2.cwd = cwd :=
      fun other hother => hattempts other (List.mem_cons_of_mem _ hother)
    rw [← hcwd] at h
    have hafter := h.newStore henv attempt.1
    cases hafter with
    | unstarted hpublishes hstate =>
      rw [hcwd] at hstate
      rw [killedAfterPublishing, List.find?_cons_of_neg (by simp [hpublishes])]
      exact ih hlater _ hstate
    | orphaned hpublishes hgap hstate =>
      left
      rw [killedAfterPublishing, List.find?_cons_of_pos (by exact hpublishes)]
      refine ⟨hgap, ?_⟩
      rw [hcwd] at hstate
      apply afterAttempts_induction attempts hlater _ _ hstate
      rintro env stamp fs' henv' rfl hfs'
      exact hfs'.newStore henv' stamp
    | startable hpublishes hgap hstate =>
      right
      rw [killedAfterPublishing, List.find?_cons_of_pos (by exact hpublishes)]
      refine ⟨hgap, .inr ?_⟩
      rw [hcwd] at hstate
      apply afterAttempts_induction attempts hlater _ _ hstate
      rintro env stamp fs' henv' rfl hfs'
      exact hfs'.newStore henv' stamp

theorem Unstarted.startsEmpty (h : Unstarted cwd dir fs) (stamp : Stamp) :
    StartsEmpty cwd dir stamp fs := by
  have hfair : (Env.fair cwd : Env Site).AllOk := Env.fair_allOk cwd
  rcases (newStore_first_ends hfair.noFail stamp h).cases with
    ⟨_, fs', hrun, -, -, s, rfl, -, hclosed, hserving⟩ | ⟨_, -, hcrash, -⟩
  · exact ⟨s, fs', hrun, hclosed, hserving.lookup⟩
  · exact absurd hfair.noCrash hcrash

theorem Startable.startsEmpty (h : Startable cwd dir fs) (stamp : Stamp) :
    StartsEmpty cwd dir stamp fs := by
  have hfair : (Env.fair cwd : Env Site).AllOk := Env.fair_allOk cwd
  obtain ⟨name, node, hpoints, hopened⟩ := h
  rcases (newStore_pointed_ends hfair.noFail stamp hpoints hopened).cases with
    ⟨_, fs', hrun, s, rfl, -, hclosed, hserving, -⟩ | ⟨_, -, hcrash, -⟩
  · exact ⟨s, fs', hrun, hclosed, hserving.lookup⟩
  · exact absurd hfair.noCrash hcrash

theorem Orphaned.not_startsEmpty (h : Orphaned cwd dir fs) (stamp : Stamp) :
    ¬ StartsEmpty cwd dir stamp fs := by
  have hfair : (Env.fair cwd : Env Site).AllOk := Env.fair_allOk cwd
  rintro ⟨s, fs', hrun, -, -⟩
  obtain ⟨name, hpoints⟩ := h
  have hresult := ((newStore_orphaned_ends hfair.noFail stamp hpoints).value hrun).1
  simp at hresult

/-- Whatever crashes the first starts went through, the next undisturbed one returns a
    usable empty store exactly if the first start that renamed the pointer file was not
    killed before it had made the directory the pointer names. -/
theorem newStore_first_start_iff (hblank : Blank cwd dir fs)
    (attempts : List (Stamp × Env Site))
    (hattempts : ∀ attempt ∈ attempts, attempt.2.NoFail ∧ attempt.2.cwd = cwd) (stamp : Stamp) :
    StartsEmpty cwd dir stamp (afterAttempts dir attempts fs) ↔
      killedAfterPublishing attempts = false := by
  rcases afterAttempts_unstarted attempts hattempts fs hblank.unstarted with
    ⟨hkilled, horphaned⟩ | ⟨hkilled, hstate | hstate⟩
  · rw [hkilled]
    simpa using horphaned.not_startsEmpty stamp
  · exact iff_of_true (hstate.startsEmpty stamp) hkilled
  · exact iff_of_true (hstate.startsEmpty stamp) hkilled

end FirstStart

/-- The process is killed at one operation. -/
def killAt (site : Site) : Env Site := ⟨[], fun other => if other = site then .crash else .ok⟩

theorem killAt_noFail (site : Site) : (killAt site).NoFail := by
  intro other
  by_cases h : other = site
  · simp [killAt, h]
  · simp [killAt, h]

theorem blank_empty : Blank [] nodeDir ∅ where
  free := by decide +kernel
  empty := by
    intro loc _ _
    exact Std.ExtTreeMap.getElem?_empty

/-- Killed while writing the temporary file, and again while the database is set up. -/
theorem newStore_first_start_killed_twice :
    StartsEmpty [] nodeDir restoreStamp (afterAttempts nodeDir
      [(nodeStamp, killAt .writeName), (nodeStamp, killAt .initDb)] ∅) := by
  refine (newStore_first_start_iff blank_empty _ ?_ restoreStamp).mpr (by decide)
  intro attempt hattempt
  rcases List.mem_cons.mp hattempt with rfl | hattempt
  · exact ⟨killAt_noFail _, rfl⟩
  · rw [List.mem_singleton.mp hattempt]
    exact ⟨killAt_noFail _, rfl⟩

/-- Killed before the directory is made, after the pointer to it was published: the node
    never starts again. -/
theorem newStore_first_start_killed_in_gap :
    Blank [] nodeDir ∅ ∧ (killAt .makeDbDir).NoFail ∧
      (newStore nodeDir restoreStamp (.fair []) (afterAttempts nodeDir
        [(nodeStamp, killAt .makeDbDir)] ∅)).1 = .value (.error .dbDirDeleted) ∧
      ¬ StartsEmpty [] nodeDir restoreStamp (afterAttempts nodeDir
        [(nodeStamp, killAt .makeDbDir)] ∅) := by
  have hrun : (newStore nodeDir restoreStamp (.fair []) (afterAttempts nodeDir
      [(nodeStamp, killAt .makeDbDir)] ∅)).1 = .value (.error .dbDirDeleted) := by
    decide +kernel
  refine ⟨blank_empty, killAt_noFail _, hrun, ?_⟩
  rintro ⟨s, fs', hstart, -, -⟩
  rw [hstart] at hrun
  simp at hrun

end RaftExample
