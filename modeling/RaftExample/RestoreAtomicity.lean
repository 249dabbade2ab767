import RaftExample.Restart
import RaftExample.SnapshotRoundTrip
import RaftExample.StateMachine

/-!
# Failed restores

`Restore` promises by its shape that an error leaves everything as it was: it works
on a database of its own and cleans up after itself.  Two of its error exits break
this.  When the flush after the rename of the pointer file fails, the cleanup
deletes the directory the pointer already names; and when the old directory cannot
be removed, or its removal not be flushed, the error is reported although the new
database is in use.  `restore_failure_atomic_iff` says that these are the only ones.
-/

namespace RaftExample

/-- Every key of the default column family reads the same. -/
def ReadsSame (left right : KV) : Prop :=
  ∀ key, left[buildColumnFamilyKey cfDefault key]?.getD [] =
    right[buildColumnFamilyKey cfDefault key]?.getD []

/-- The pointer designates a directory with the content of the open database, and a
    restart opens that content. -/
def RestartsAlike (cwd : Loc) (s : Store) (fs : FS KV) : Prop :=
  ∃ name content, Current cwd s.baseDir fs name content ∧
    fs[s.db]? = some (.dir (.database content)) ∧
    ∀ stamp, ∃ s' fs', newStore s.baseDir stamp (.fair cwd) fs = (.value (.ok s'), fs') ∧
      Serving cwd s' fs' name content

/-- What an observer of the node can tell before and after a failed restore. -/
structure Undisturbed (cwd : Loc) (r : StateMachine) (fs : FS KV) (r' : StateMachine)
    (fs' : FS KV) : Prop where
  reads : ∀ key, r'.readLocal fs' key = r.readLocal fs key
  fsmIndex : r'.fsmIndex = r.fsmIndex
  abandonCh : r'.abandonCh = r.abandonCh
  stillOpen : r'.abandonCh ∉ r'.closedChs
  metrics : r'.metrics = r.metrics
  restarts : RestartsAlike cwd r'.store fs'

section Atomicity

variable {gz : Gzip} {env : Env Site} {r : StateMachine} {stamp : Stamp}
  {startTime now : Int64} {stream : Bytes} {fs : FS KV} {name : Name} {live : KV}

/-- An error of this call to `Restore` leaves no trace. -/
def FailureIsAtomic (gz : Gzip) (env : Env Site) (r : StateMachine) (stamp : Stamp)
    (startTime now : Int64) (stream : Bytes) (fs : FS KV) : Prop :=
  ∀ e r' fs', r.restore gz stamp startTime now stream env fs = (.value (.error e, r'), fs') →
    Undisturbed env.cwd r fs r' fs'

theorem Serving.restartsAlike {cwd : Loc} {s : Store} {content : KV}
    (h : Serving cwd s fs name content) : RestartsAlike cwd s fs := by
  refine ⟨name, content, h.toPointsTo, h.lookup, ?_⟩
  intro stamp'
  obtain ⟨s', fs', hrun, -, -, hserving, -⟩ := newStore_restart_fair cwd stamp' h.toPointsTo
  exact ⟨s', fs', hrun, hserving⟩

/-- A closed store refuses, and nothing happens. -/
theorem restore_closed (hclosed : r.store.closed = true) :
    r.restore gz stamp startTime now stream env fs = (.value (.error .closed, r), fs) := by
  simp [StateMachine.restore, hclosed]

/-- `Restore` of an open store is `recoverSnapShot`, with the bookkeeping after it. -/
theorem restore_error_iff (hclosed : r.store.closed = false) {e : Err} {r' : StateMachine}
    {fs' : FS KV} :
    r.restore gz stamp startTime now stream env fs = (.value (.error e, r'), fs') ↔
      ∃ s', recoverSnapShot gz r.store stamp stream env fs = (.value (.error e, s'), fs') ∧
        r' = { r with store := s' } := by
  simp only [StateMachine.restore, hclosed, Bool.false_eq_true, if_false, Proc.bind_run]
  rcases hrun : recoverSnapShot gz r.store stamp stream env fs with ⟨outcome, fs₁⟩
  cases outcome with
  | panic => simp
  | crashed => simp
  | value result =>
      obtain ⟨result, s'⟩ := result
      cases result with
      | error e' =>
          simp only [Proc.pure_run, Prod.mk.injEq, Outcome.value.injEq, Except.error.injEq]
          constructor
          · rintro ⟨⟨rfl, rfl⟩, rfl⟩
            exact ⟨s', ⟨⟨rfl, rfl⟩, rfl⟩, rfl⟩
          · rintro ⟨s'', ⟨⟨rfl, rfl⟩, rfl⟩, rfl⟩
            exact ⟨⟨rfl, rfl⟩, rfl⟩
      | ok header => simp

/-- A failed restore of an open store leaves no trace if the store it returns serves
    content that reads like the old one. -/
theorem undisturbed_of_serving (hclosed : r.store.closed = false)
    (hlive : fs[r.store.db]? = some (.dir (.database live))) (hopen : r.abandonCh ∉ r.closedChs)
    {s' : Store} {fs' : FS KV} {name' : Name} {content : KV} (hclosed' : s'.closed = false)
    (hserving : Serving env.cwd s' fs' name' content) (hsame : ReadsSame content live) :
    Undisturbed env.cwd r fs { r with store := s' } fs' where
  reads := by
    intro key
    rw [StateMachine.readLocal_eq _ hclosed' hserving.lookup, StateMachine.readLocal_eq r hclosed hlive, hsame key]
  fsmIndex := rfl
  abandonCh := rfl
  stillOpen := hopen
  metrics := rfl
  restarts := hserving.restartsAlike

/-- A restore that gets as far as the rename returns: nothing after it panics. -/
theorem recoverSnapShot_returns (henv : env.NoCrash) (hdb : env.DbWritesOk) {s : Store}
    (hcur : Current env.cwd s.baseDir fs name live) (hfresh : fs[targetOf env s stamp]? = none)
    {header : SnapshotHeader} {records : List (Bytes × Bytes)}
    (hpub : Publishes gz env stream header records) :
    ∃ result fs', recoverSnapShot gz s stamp stream env fs = (.value result, fs') ∧
      (Dropped env s stamp name live result fs' ∨
        Installed env s stamp (applyBatch records ∅) header result fs') := by
  rcases (recoverSnapShot_ends gz hdb stream hcur hfresh).cases with
    ⟨result, fs', hrun, hend⟩ | ⟨fs', -, hend⟩
  · rcases hend with ⟨hrefused, -⟩ | ⟨header', records', hpub', hend⟩
    · exact absurd ⟨header, records, hpub⟩ hrefused.not_publishes
    · obtain ⟨rfl, rfl⟩ := hpub.1.unique hpub'.1
      exact ⟨result, fs', hrun, hend⟩
  · rcases hend with ⟨-, hdied⟩ | ⟨hcrash, -⟩
    · rcases hdied henv with hover | ⟨-, site, hsite, hfate⟩
      · exact absurd hover hpub.1.not_overflows
      · exact absurd (hpub.2 site hsite) hfate
    · exact absurd henv hcrash

theorem Dangling.not_restartsAlike {cwd : Loc} {s : Store} {gone : Name}
    (h : Dangling cwd s.baseDir fs name gone live) : ¬ RestartsAlike cwd s fs := by
  rintro ⟨name', content, hcur, -⟩
  have hpointer := hcur.pointer
  rw [h.pointer] at hpointer
  injection hpointer with hfile
  injection hfile with hcontent
  have hname : gone = name' := pointerContent_join_injective s.baseDir hcontent
  have hmissing := h.missing
  rw [hname, hcur.entry] at hmissing
  simp at hmissing

/-- Exactly when a failed restore leaves no trace.  Either it does not get as far as
    renaming the pointer file, or the flush after the rename succeeds and, should the
    removal of the old directory or its flush fail, the snapshot happens to read like
    the content it replaced. -/
theorem restore_failure_atomic_iff (henv : env.NoCrash) (hdb : env.DbWritesOk)
    (hremove : ∀ phase, env.fate (.removeNew phase) = .ok)
    (hserving : Serving env.cwd r.store fs name live)
    (hfresh : fs[targetOf env r.store stamp]? = none) (hopen : r.abandonCh ∉ r.closedChs) :
    FailureIsAtomic gz env r stamp startTime now stream fs ↔
      (r.store.closed = false → ∀ header records, Publishes gz env stream header records →
        env.fate .syncReplaced = .ok ∧
        ((∃ site ∈ finishSites, env.fate site ≠ .ok) →
          ReadsSame (applyBatch records ∅) live)) := by
  constructor
  · intro hatomic hclosed header records hpub
    obtain ⟨⟨result, s'⟩, fs', hrun, hend⟩ :=
      recoverSnapShot_returns henv hdb hserving.toPointsTo hfresh hpub
    rcases hend with ⟨⟨e, he⟩, hs, -, hdangling⟩ | ⟨hs, hsync, hcur', hresult⟩
    · -- the cleanup after the failed flush: the restart finds no directory
      simp only at he hs
      subst he hs
      have hundisturbed := hatomic e _ fs' ((restore_error_iff hclosed).mpr ⟨_, hrun, rfl⟩)
      exact absurd hundisturbed.restarts (hdangling hremove).not_restartsAlike
    · refine ⟨hsync, ?_⟩
      rintro ⟨site, hsite, hfate⟩
      rcases hresult with ⟨-, hall⟩ | ⟨⟨e, he⟩, -⟩
      · exact absurd (hall site hsite) hfate
      · simp only at he hs
        subst he hs
        have hundisturbed := hatomic e _ fs' ((restore_error_iff hclosed).mpr ⟨_, hrun, rfl⟩)
        intro key
        have hread := hundisturbed.reads key
        have hnew := StateMachine.readLocal_eq { r with store := { r.store with db := targetOf env r.store stamp } }
          hclosed hcur'.entry key
        rw [StateMachine.readLocal_eq r hclosed hserving.lookup, hnew] at hread
        exact (CommandResponse.mk.inj hread).1
  · intro hcond e r' fs' hrun
    by_cases hclosed : r.store.closed = true
    · rw [restore_closed hclosed] at hrun
      simp only [Prod.mk.injEq, Outcome.value.injEq] at hrun
      obtain ⟨⟨-, rfl⟩, rfl⟩ := hrun
      exact ⟨fun _ => rfl, rfl, rfl, hopen, rfl, hserving.restartsAlike⟩
    · have hclosed : r.store.closed = false := by simpa using hclosed
      obtain ⟨s', hrecover, rfl⟩ := (restore_error_iff hclosed).mp hrun
      have hends := (recoverSnapShot_ends gz hdb stream hserving.toPointsTo hfresh).value hrecover
      rcases hends with ⟨-, -, hs, hcur'⟩ | ⟨header, records, hpub, hend⟩
      · simp only at hs
        subst hs
        exact undisturbed_of_serving hclosed hserving.lookup hopen hclosed
          ⟨hcur', hserving.handle⟩ fun _ => rfl
      · obtain ⟨hsync, hsame⟩ := hcond hclosed header records hpub
        rcases hend with ⟨-, -, hfail, -⟩ | ⟨hs, -, hcur', ⟨hok, -⟩ | ⟨-, hsite⟩⟩
        · rw [hsync] at hfail
          simp at hfail
        · simp at hok
        · simp only at hs
          subst hs
          exact undisturbed_of_serving hclosed hserving.lookup hopen hclosed
            ⟨hcur', rfl⟩ (hsame hsite)

end Atomicity

/-- One operation fails, all others take effect. -/
def failAt (site : Site) : Env Site := ⟨[], fun other => if other = site then .fail else .ok⟩

def nodeMachine : StateMachine := ⟨[], [110], 3, nodeStore, 0, [], .zero⟩

theorem failAt_noCrash (site : Site) : (failAt site).NoCrash := by
  intro other
  by_cases h : other = site
  · simp [failAt, h]
  · simp [failAt, h]

/-- A failing rename is cleaned up. -/
theorem restore_rename_failure_atomic :
    FailureIsAtomic sampleGzip (failAt .renameUpdating) nodeMachine restoreStamp 0 0 oneRecord
      nodeDisk := by
  have hserving : Serving (failAt .renameUpdating).cwd nodeMachine.store nodeDisk
      (stampName nodeStamp) ∅ := nodeServing
  refine (restore_failure_atomic_iff (failAt_noCrash _) (fun n => by simp [failAt])
    (fun phase => by simp [failAt]) hserving (by decide +kernel) (by decide)).mpr ?_
  intro _ header records hpub
  have hrename := hpub.2 .renameUpdating (by decide)
  simp [failAt] at hrename

/-- A failing flush after the rename is not: the node does not start again. -/
theorem restore_flush_failure_not_atomic :
    (nodeMachine.restore sampleGzip restoreStamp 0 0 oneRecord (failAt .syncReplaced)
      nodeDisk).1 = .value (.error (.fs .io), nodeMachine) ∧
    (newStore nodeDir restoreStamp (.fair []) (nodeMachine.restore sampleGzip restoreStamp 0 0
      oneRecord (failAt .syncReplaced) nodeDisk).2).1 = .value (.error .dbDirDeleted) ∧
    ¬ FailureIsAtomic sampleGzip (failAt .syncReplaced) nodeMachine restoreStamp 0 0 oneRecord
      nodeDisk := by
  have hrun : (nodeMachine.restore sampleGzip restoreStamp 0 0 oneRecord (failAt .syncReplaced)
      nodeDisk).1 = .value (.error (.fs .io), nodeMachine) := by decide +kernel
  have hrestart : (newStore nodeDir restoreStamp (.fair []) (nodeMachine.restore sampleGzip
      restoreStamp 0 0 oneRecord (failAt .syncReplaced) nodeDisk).2).1 =
      .value (.error .dbDirDeleted) := by decide +kernel
  refine ⟨hrun, hrestart, ?_⟩
  intro hatomic
  obtain ⟨name, content, -, -, hstarts⟩ :=
    (hatomic (.fs .io) nodeMachine _ (Proc.run_of_outcome hrun)).restarts
  obtain ⟨s', fs', hstart, -⟩ := hstarts restoreStamp
  have hvalue := (congrArg Prod.fst hstart).symm.trans hrestart
  simp at hvalue

end RaftExample
