import RaftExample.CurrentPointer
import RaftExample.SnapshotGrammar

/-!
# Filling a new database

The first half of a restore: a new database is opened and the records of the stream go
into it through a write batch that is committed every hundred records.  The errors of
`Put` and of `Commit` are not looked at, so which records arrive depends on which of
these calls fail, and whether loading succeeds does not.
-/

namespace RaftExample

/-- The writes into the database under construction do not fail. -/
def Env.DbWritesOk (env : Env Site) : Prop :=
  ∀ n, env.fate (.put n) ≠ .fail ∧ env.fate (.commit n) ≠ .fail

theorem Env.NoFail.dbWritesOk {env : Env Site} (h : env.NoFail) : env.DbWritesOk :=
  fun n => ⟨h (.put n), h (.commit n)⟩

theorem applyBatch_append (left right : List (Bytes × Bytes)) (content : KV) :
    applyBatch (left ++ right) content = applyBatch right (applyBatch left content) :=
  List.foldl_append

/-! ### Opening the new database -/

def openSites : List Site := [.makeDbDir, .initDb]

/-- Opening a database where nothing exists creates an empty one. -/
theorem openDatabase_fresh_ends {env : Env Site} {fs : FS KV} {path : Bytes} {base : Loc}
    {name : Name} (hpath : resolve env.cwd path = base ++ [name])
    (hbase : ∀ ancestor, ancestor <+: base → fs.isDir ancestor = true)
    (hfresh : fs[base ++ [name]]? = none) :
    (Proc.openDatabase .makeDbDir .initDb path : Disk _).Ends env fs
      (fun result fs' => FS.Keeps (· ≠ base ++ [name]) fs fs' ∧
        (((∀ site ∈ openSites, env.fate site = .ok) ∧ result = .ok (base ++ [name]) ∧
            fs'[base ++ [name]]? = some (.dir (.database ∅))) ∨
          (∃ site ∈ openSites, env.fate site = .fail) ∧ result = .error .io))
      (fun fs' => (env.fate .makeDbDir = .crash ∧ fs' = fs) ∨
        (env.fate .makeDbDir = .ok ∧ env.fate .initDb = .crash ∧
          fs' = fs.set (base ++ [name]) (.dir .plain))) := by
  have hnotDir : fs.isDir (base ++ [name]) = false :=
    FS.isDir_concat_eq_false (by simp [hfresh])
  have hfree : fs.blocked (base ++ [name]) = false := by
    apply FS.blocked_eq_false
    intro ancestor hancestor
    rcases List.prefix_concat_iff.mp hancestor with rfl | habove
    · exact .inr hfresh
    · exact .inl (hbase ancestor habove)
  have hplain : FS.Keeps (· ≠ base ++ [name]) fs (fs.set (base ++ [name]) (.dir .plain)) :=
    .set fs (by simp) _
  unfold Proc.openDatabase
  refine Proc.Ends.bind (Proc.Ends.mkdirAll (by rwa [hpath]) (fun hmake => ?_) (fun hmake => ?_)
    fun hmake => ?_)
  · rw [hpath, FS.mkdirAll_concat fs hbase hnotDir]
    refine Proc.Ends.perform (fun hinit => ?_) (fun hinit => ?_) fun hinit => ?_
    · rw [hpath]
      simp only [FS.lookup_set_self]
      exact ⟨hplain.trans (.set _ (by simp) _),
        .inl ⟨by simp [openSites, hmake, hinit], trivial, trivial⟩⟩
    · exact ⟨hplain, .inr ⟨⟨.initDb, by simp [openSites], hinit⟩, rfl⟩⟩
    · exact .inr ⟨hmake, hinit, rfl⟩
  · exact Proc.Ends.pure ⟨.refl fs, .inr ⟨⟨.makeDbDir, by simp [openSites], hmake⟩, rfl⟩⟩
  · exact .inl ⟨hmake, rfl⟩

/-! ### The records that arrive -/

/-- The record with this number reaches the database: its own `Put` and the `Commit` of
    its batch do not fail. -/
def Survives (env : Env Site) (n : Nat) : Prop :=
  env.fate (.put n) ≠ .fail ∧ env.fate (.commit (n / 100)) ≠ .fail

instance (env : Env Site) (n : Nat) : Decidable (Survives env n) :=
  inferInstanceAs (Decidable (_ ∧ _))

/-- The records that reach the database, the first one having this number. -/
def survivors (env : Env Site) : Nat → List (Bytes × Bytes) → List (Bytes × Bytes)
  | _, [] => []
  | n, record :: records =>
      if Survives env n then record :: survivors env (n + 1) records
      else survivors env (n + 1) records

theorem survivors_eq_self {env : Env Site} {n : Nat} {records : List (Bytes × Bytes)}
    (h : ∀ m, m < records.length → Survives env (n + m)) : survivors env n records = records := by
  induction records generalizing n with
  | nil => rfl
  | cons record records ih =>
    have hfirst : Survives env n := by simpa using h 0 (by simp)
    rw [survivors, if_pos hfirst, ih]
    intro m hm
    have hlater := h (m + 1) (by simpa using hm)
    rwa [show n + (m + 1) = n + 1 + m by omega] at hlater

theorem Env.DbWritesOk.survivors {env : Env Site} (h : env.DbWritesOk) (n : Nat)
    (records : List (Bytes × Bytes)) : survivors env n records = records :=
  survivors_eq_self fun m _ => ⟨(h (n + m)).1, (h ((n + m) / 100)).2⟩

/-- What of a batch its commit brings into the database. -/
def committed (env : Env Site) (commits : Nat) (wb : List (Bytes × Bytes)) :
    List (Bytes × Bytes) :=
  if env.fate (.commit commits) = .fail then [] else wb

@[simp] theorem committed_nil (env : Env Site) (commits : Nat) : committed env commits [] = [] := by
  simp [committed]

/-! ### The loop -/

/-- The loop commits after every hundredth record, so its counters are determined by the
    number of records it has read. -/
structure LoadState.InStep (st : LoadState) : Prop where
  commits : st.commits = st.puts / 100
  k : st.k = st.puts % 100
  empty : st.k = 0 → st.wb = []

/-- What the loop owes when it is entered in some state over `content`: the parse of the
    remaining stream decides the result, and the new database plus what the next commit
    will bring into it hold the records of the stream that arrive. -/
def Loaded (env : Env Site) (newdb : Loc) (st : LoadState) (content : KV)
    (parsed : List (Bytes × Bytes) × RecordRead) (fs : FS KV) (result : Except Err LoadState)
    (fs' : FS KV) : Prop :=
  FS.Keeps (· ≠ newdb) fs fs' ∧ ∃ content', fs'[newdb]? = some (.dir (.database content')) ∧
    match result with
    | .ok st' => (∃ reason, parsed.2 = .stop reason) ∧ st'.InStep ∧
        applyBatch (committed env st'.commits st'.wb) content' =
          applyBatch (committed env st.commits st.wb ++ survivors env st.puts parsed.1) content
    | .error e => parsed.2 = .bad e

/-- How the loop can die: killed, or by the panic the parse predicts. -/
def LoadDied (env : Env Site) (newdb : Loc) (last : RecordRead) (fs fs' : FS KV) : Prop :=
  FS.Keeps (· ≠ newdb) fs fs' ∧ (env.NoCrash → last = .panic)

section Loop

variable {gz : Gzip} {env : Env Site} {newdb : Loc} {st st' : LoadState} {content content' : KV}
  {key value : Bytes} {parsed : List (Bytes × Bytes) × RecordRead} {fs fs₁ fs' : FS KV}
  {result : Except Err LoadState}

/-- One turn of the loop: what the rest of the loop owes is what the whole owes, if the
    turn has moved the records it should. -/
theorem Loaded.turn (h : Loaded env newdb st' content' parsed fs₁ result fs')
    (hkeeps : FS.Keeps (· ≠ newdb) fs fs₁) (hputs : st'.puts = st.puts + 1)
    (hbatch : applyBatch (committed env st'.commits st'.wb) content' =
      applyBatch (committed env st.commits st.wb ++ survivors env st.puts [(key, value)]) content) :
    Loaded env newdb st content ((key, value) :: parsed.1, parsed.2) fs result fs' := by
  obtain ⟨hkeeps', content'', hopen, hresult⟩ := h
  refine ⟨hkeeps.trans hkeeps', content'', hopen, ?_⟩
  cases result with
  | error e => exact hresult
  | ok last =>
    obtain ⟨hstop, hstep, hwb⟩ := hresult
    refine ⟨hstop, hstep, hwb.trans ?_⟩
    have hsplit : survivors env st.puts ((key, value) :: parsed.1) =
        survivors env st.puts [(key, value)] ++ survivors env (st.puts + 1) parsed.1 := by
      by_cases hsurvives : Survives env st.puts <;> simp [survivors, hsurvives]
    rw [applyBatch_append, hbatch, hputs, ← applyBatch_append, hsplit, List.append_assoc]

/-- The batch after the `Put` of a record, as its commit will see it. -/
theorem committed_put (env : Env Site) {st : LoadState} (h : st.commits = st.puts / 100)
    {wb : List (Bytes × Bytes)}
    (hwb : wb = if env.fate (.put st.puts) = .fail then st.wb else st.wb ++ [(key, value)]) :
    committed env st.commits wb =
      committed env st.commits st.wb ++ survivors env st.puts [(key, value)] := by
  subst hwb
  by_cases hcommit : env.fate (.commit (st.puts / 100)) = .fail
  · simp [committed, survivors, Survives, h, hcommit]
  · by_cases hput : env.fate (.put st.puts) = .fail
    · simp [committed, survivors, Survives, h, hcommit, hput]
    · simp [committed, survivors, Survives, h, hcommit, hput]

theorem commitBatch_ends (hopen : fs[newdb]? = some (.dir (.database content))) :
    (commitBatch newdb st).Ends env fs
      (fun next fs' => next = { st with wb := [], k := 0, commits := st.commits + 1 } ∧
        FS.Keeps (· ≠ newdb) fs fs' ∧ fs'[newdb]? =
          some (.dir (.database (applyBatch (committed env st.commits st.wb) content))))
      (fun fs' => fs' = fs ∧ ¬ env.NoCrash) := by
  unfold commitBatch
  apply Proc.Ends.bind
  refine Proc.Ends.commit hopen (fun hok => ?_) (fun hfail => ?_)
    fun hcrash => ⟨rfl, fun hno => hno _ hcrash⟩
  · refine Proc.Ends.pure ⟨rfl, .set fs (by simp) _, ?_⟩
    simp [committed, hok]
  · refine Proc.Ends.pure ⟨rfl, .refl fs, ?_⟩
    simp [committed, hfail, hopen, applyBatch]

/-- The rest of a turn after the `Put`, whose result only decides what is in the batch. -/
theorem recoverLoop_turn {fuel : Nat} {rest : Bytes} {hasher : BitVec 32}
    (ih : ∀ (st : LoadState) (stream : Bytes) {fs : FS KV} {content : KV},
      fs[newdb]? = some (.dir (.database content)) → st.InStep →
      (recoverLoop gz newdb fuel st stream).Ends env fs
        (Loaded env newdb st content (readRecords gz fuel st.hasher stream) fs)
        (LoadDied env newdb (readRecords gz fuel st.hasher stream).2 fs))
    (hopen : fs[newdb]? = some (.dir (.database content))) (hstep : st.InStep)
    {wb : List (Bytes × Bytes)}
    (hwb : wb = if env.fate (.put st.puts) = .fail then st.wb else st.wb ++ [(key, value)]) :
    (if st.k + 1 ≥ 100 then do
        let st ← commitBatch newdb ⟨hasher, wb, st.k + 1, st.puts + 1, st.commits⟩
        recoverLoop gz newdb fuel st rest
      else recoverLoop gz newdb fuel ⟨hasher, wb, st.k + 1, st.puts + 1, st.commits⟩ rest).Ends env fs
      (Loaded env newdb st content ((key, value) :: (readRecords gz fuel hasher rest).1,
        (readRecords gz fuel hasher rest).2) fs)
      (LoadDied env newdb (readRecords gz fuel hasher rest).2 fs) := by
  have hput := committed_put env hstep.commits hwb
  have hk := hstep.k
  have hcommits := hstep.commits
  by_cases hfull : st.k + 1 ≥ 100
  · -- a full batch: what its commit brings moves into the database
    rw [if_pos hfull]
    apply Proc.Ends.bind
    apply (commitBatch_ends hopen).weaken
    · rintro next fs₁ ⟨rfl, hkeeps, hnew⟩
      have hnext : LoadState.InStep ⟨hasher, [], 0, st.puts + 1, st.commits + 1⟩ :=
        ⟨by simp only; omega, by simp only; omega, fun _ => rfl⟩
      apply (ih _ rest hnew hnext).weaken
      · intro result fs₂ h
        apply h.turn hkeeps rfl
        rw [← hput, committed_nil]
        rfl
      · intro fs₂ h
        exact ⟨hkeeps.trans h.1, h.2⟩
    · rintro fs₁ ⟨rfl, hcrash⟩
      exact ⟨.refl fs₁, fun hno => absurd hno hcrash⟩
  · rw [if_neg hfull]
    have hnext : LoadState.InStep ⟨hasher, wb, st.k + 1, st.puts + 1, st.commits⟩ :=
      ⟨by simp only; omega, by simp only; omega, by simp⟩
    apply (ih _ rest hopen hnext).weaken
    · intro result fs₂ h
      exact h.turn (.refl fs) rfl (by rw [← hput])
    · intro fs₂ h
      exact h

theorem recoverLoop_ends (fuel : Nat) (st : LoadState) (stream : Bytes) {fs : FS KV} {content : KV}
    (hopen : fs[newdb]? = some (.dir (.database content))) (hstep : st.InStep) :
    (recoverLoop gz newdb fuel st stream).Ends env fs
      (Loaded env newdb st content (readRecords gz fuel st.hasher stream) fs)
      (LoadDied env newdb (readRecords gz fuel st.hasher stream).2 fs) := by
  induction fuel generalizing st stream fs content with
  | zero => exact Proc.Ends.panic ⟨.refl fs, fun _ => rfl⟩
  | succ fuel ih =>
    rw [recoverLoop, readRecords_succ]
    cases hread : readRecord gz st.hasher stream with
    | stop reason =>
      exact Proc.Ends.pure ⟨.refl fs, content, hopen, ⟨reason, rfl⟩, hstep, by simp [survivors]⟩
    | bad e => exact Proc.Ends.pure ⟨.refl fs, content, hopen, rfl⟩
    | panic => exact Proc.Ends.panic ⟨.refl fs, fun _ => rfl⟩
    | record key value hasher rest =>
      apply Proc.Ends.bind
      apply Proc.Ends.bind
      refine Proc.Ends.settle (fun hput => Proc.Ends.pure ?_) (fun hput => Proc.Ends.pure ?_)
        fun hput => ⟨.refl fs, fun hno => absurd hput (hno _)⟩
      · exact recoverLoop_turn ih hopen hstep (by simp [hput])
      · exact recoverLoop_turn ih hopen hstep (by simp [hput])

end Loop

/-! ### The whole stream -/

/-- The parse of everything after the header. -/
def parseRecords (gz : Gzip) (stream : Bytes) : List (Bytes × Bytes) × RecordRead :=
  readRecords gz (stream.length + 1) 0#32 stream

/-- Loading succeeds exactly when the loop breaks, and then the new database holds the
    records that arrived. -/
def LoadEnded (env : Env Site) (newdb : Loc) (parsed : List (Bytes × Bytes) × RecordRead)
    (fs : FS KV) (result : Except Err Unit) (fs' : FS KV) : Prop :=
  FS.Keeps (· ≠ newdb) fs fs' ∧
    match result with
    | .ok () => (∃ reason, parsed.2 = .stop reason) ∧
        fs'[newdb]? = some (.dir (.database (applyBatch (survivors env 0 parsed.1) ∅)))
    | .error e => parsed.2 = .bad e

theorem loadRecords_ends {gz : Gzip} {env : Env Site} {newdb : Loc} (stream : Bytes) {fs : FS KV}
    (hopen : fs[newdb]? = some (.dir (.database ∅))) :
    (loadRecords gz newdb stream).Ends env fs
      (LoadEnded env newdb (parseRecords gz stream) fs)
      (LoadDied env newdb (parseRecords gz stream).2 fs) := by
  have hinit : LoadState.init.InStep := ⟨rfl, rfl, fun _ => rfl⟩
  unfold loadRecords
  apply Proc.Ends.bind
  apply (recoverLoop_ends _ .init stream hopen hinit).weaken
  · rintro result fs₁ ⟨hkeeps, content, hopen₁, hresult⟩
    cases result with
    | error e => exact Proc.Ends.pure ⟨hkeeps, hresult⟩
    | ok st =>
      obtain ⟨hstop, hstep, hwb⟩ := hresult
      have hflush : ∀ fs₂, FS.Keeps (· ≠ newdb) fs fs₂ → fs₂[newdb]? = some (.dir (.database
          (applyBatch (survivors env 0 (parseRecords gz stream).1) ∅))) →
          (do let _ ← Proc.settle .flushNew; return .ok () : Disk (Except Err Unit)).Ends env fs₂
            (LoadEnded env newdb (parseRecords gz stream) fs)
            (LoadDied env newdb (parseRecords gz stream).2 fs) := by
        intro fs₂ hkeeps₂ hcontent
        apply Proc.Ends.settle_then (Proc.Ends.pure ⟨hkeeps₂, hstop, hcontent⟩)
        intro hcrash
        exact ⟨hkeeps₂, fun hno => absurd hcrash (hno _)⟩
      have hall : applyBatch (committed env st.commits st.wb) content =
          applyBatch (survivors env 0 (parseRecords gz stream).1) ∅ := by
        simpa [LoadState.init, parseRecords] using hwb
      simp only
      split
      · -- the remainder batch
        apply Proc.Ends.bind
        apply (commitBatch_ends hopen₁).weaken
        · rintro next fs₂ ⟨-, hkeeps₂, hnew⟩
          exact hflush fs₂ (hkeeps.trans hkeeps₂) (by rw [hnew, hall])
        · rintro fs₂ ⟨rfl, hcrash⟩
          exact ⟨hkeeps, fun hno => absurd hno hcrash⟩
      · rename_i hzero
        refine Proc.Ends.bind (Proc.Ends.pure (hflush _ hkeeps ?_))
        rw [hstep.empty (Nat.eq_zero_of_not_pos hzero), committed_nil] at hall
        rw [hopen₁, ← hall]
        rfl
  · intro fs₁ h
    exact h

end RaftExample
