import RaftExample.LostWrites
import RaftExample.CrashConsistency

/-!
# Restarting under another spelling of the base directory

The pointer file holds a path string, made from the spelling of the base directory
that was in use when it was written.  The cleanup of a start compares that string with
strings made from the spelling now in use.  Cleaned spellings that agree give the same
strings; spellings that do not, although they denote the same directory, give strings
that never agree, and then the database the pointer designates is removed with the
strays.
-/

namespace RaftExample

section Spellings

variable {cwd cwd' : Loc} {dir dir' : Bytes} {fs : FS KV} {name : Name}
  {node : Option (Node KV)} {content : KV}

/-- What an undisturbed cleanup changes lies elsewhere than at `live`. -/
def RemovesOnlyOthers (cwd : Loc) (dir : Bytes) (fs : FS KV) (live : Loc) : Prop :=
  ∀ loc, (cleanupNodeDataDir dir (.fair cwd) fs).2[loc]? ≠ fs[loc]? → loc ≠ live

/-! ### Spellings that clean to the same -/

/-- The pointer does not tell spellings apart that clean to the same. -/
theorem PointsTo.of_clean (h : PointsTo cwd dir fs name node)
    (hdenotes : resolve cwd' dir' = resolve cwd dir) (hclean : clean dir = clean dir') :
    PointsTo cwd' dir' fs name node := by
  have hjoin : join dir' name.bytes = join dir name.bytes :=
    join_eq_join_iff.mpr ⟨hclean.symm, rfl⟩
  obtain ⟨hbase, hpointer, hentry, hupdating, hproper⟩ := h
  rw [← hdenotes] at hbase hpointer hentry hupdating
  rw [← hjoin] at hpointer
  exact ⟨hbase, hpointer, hentry, hupdating, hproper⟩

theorem PointsTo.removesOnlyOthers (h : PointsTo cwd dir fs name node) :
    RemovesOnlyOthers cwd dir fs (resolve cwd dir ++ [name]) := by
  have hfair : (Env.fair cwd : Env Site).AllOk := Env.fair_allOk cwd
  have hkept := (cleanupNodeDataDir_ends hfair.noFail h).disk
    (fun _ _ hend => hend.2.1.entry) (fun _ hend => hend.2.entry)
  rintro loc hchanged rfl
  exact hchanged (hkept.trans h.entry.symm)

/-! ### Spellings that do not -/

/-- A cleanup under a spelling that does not clean to the one in the pointer removes the
    database the pointer designates. -/
theorem PointsTo.cleanup_foreign (h : Current cwd dir fs name content)
    (hdenotes : resolve cwd' dir' = resolve cwd dir) (hclean : clean dir ≠ clean dir') :
    (cleanupNodeDataDir dir' (.fair cwd') fs).2[resolve cwd dir ++ [name]]? = none := by
  have hfair : (Env.fair cwd' : Env Site).AllOk := Env.fair_allOk cwd'
  have hforeign : ∀ entry : Name, join dir' entry.bytes ≠ join dir name.bytes :=
    fun entry hjoin => hclean (join_eq_join_iff.mp hjoin).1.symm
  rw [← hdenotes]
  suffices hends : (cleanupNodeDataDir dir').Ends (.fair cwd') fs
      (fun _ fs' => fs'[resolve cwd' dir' ++ [name]]? = none) (fun _ => False) from
    hends.disk (fun _ _ hend => hend) (fun _ hend => hend.elim)
  have hbase := h.base_isDir
  have hpointer := h.pointer
  rw [← hdenotes] at hbase hpointer
  apply cleanupNodeDataDir_lists hfair.noFail (join_name_ne_nil dir name) hbase hpointer
  · intro fs₁ hprunes
    have hentry := (h.of_prunes_updating (hdenotes ▸ hprunes)).entry
    rw [← hdenotes] at hentry
    apply (removeStrays_prunes hfair.noFail (join dir name.bytes) _).weaken
    · rintro result fs' ⟨-, -, hgone⟩
      exact hgone name ⟨(FS.mem_entries ..).mpr ⟨_, hentry, rfl⟩, hforeign name⟩
    · rintro fs' ⟨hkilled, -⟩
      exact hkilled hfair.noCrash
  · intro fs₁ _ hkilled
    exact hkilled hfair.noCrash

/-- A store was opened under `dir` and closed; the pointer designates the database
    `name` with this content.  The process is started again under a spelling `dir'` that
    denotes the same directory where it is started.  Then the cleanup removes other
    directories only and the start opens that content, exactly if the two spellings
    clean to the same string. -/
theorem restart_spares_current_iff (hcur : Current cwd dir fs name content)
    (hdenotes : resolve cwd' dir' = resolve cwd dir) :
    (RemovesOnlyOthers cwd' dir' fs (resolve cwd dir ++ [name]) ∧
        StartsOn cwd' dir' fs content) ↔ clean dir = clean dir' := by
  constructor
  · rintro ⟨hothers, -⟩
    by_contra hclean
    have hgone := hcur.cleanup_foreign hdenotes hclean
    refine hothers _ ?_ rfl
    rw [hgone, hcur.entry]
    simp
  · intro hclean
    have hcur' := hcur.of_clean hdenotes hclean
    rw [← hdenotes]
    exact ⟨hcur'.removesOnlyOthers, (Host.holds_down hcur').startsOn⟩

end Spellings

/-! ### The node's directory, spelled in three ways -/

/-- The disk of a node that has restored a snapshot with one record. -/
def restoredDisk : FS KV :=
  (recoverSnapShot sampleGzip nodeStore restoreStamp oneRecord (.fair []) nodeDisk).2

/-- `./d/` -/
def dottedDir : Bytes := [46, 47, 100, 47]

/-- `/d` -/
def rootedDir : Bytes := [47, 100]

theorem restoredDisk_current : Current [] nodeDir restoredDisk (stampName restoreStamp)
    (applyBatch [([1, 107], [118])] ∅) := by decide +kernel

/-- Redundant elements do no harm. -/
theorem restart_spares_current_dotted :
    RemovesOnlyOthers [] dottedDir restoredDisk (resolve [] nodeDir ++ [stampName restoreStamp]) ∧
      StartsOn [] dottedDir restoredDisk (applyBatch [([1, 107], [118])] ∅) :=
  (restart_spares_current_iff restoredDisk_current (by decide)).mpr (by decide)

/-- A node is created and restores a snapshot in the directory `d` of its working
    directory.  Started with the absolute path of the same directory, it removes its
    database and refuses to start. -/
theorem restart_removes_current_rooted :
    newStore nodeDir nodeStamp (.fair []) ∅ = (.value (.ok nodeStore), nodeDisk) ∧
    (recoverSnapShot sampleGzip nodeStore restoreStamp oneRecord (.fair []) nodeDisk).1 =
      .value (.ok ⟨snapshotMagic, 1, 7, 1700, [110], 0⟩, restoredStore) ∧
    resolve [] rootedDir = resolve [] nodeDir ∧
    ¬ RemovesOnlyOthers [] rootedDir restoredDisk restoredStore.db ∧
    (newStore rootedDir nodeStamp (.fair []) restoredDisk).1 = .value (.error .dbDirDeleted) ∧
    (newStore rootedDir nodeStamp (.fair []) restoredDisk).2[restoredStore.db]? = none := by
  have hhandle : restoredStore.db = resolve [] nodeDir ++ [stampName restoreStamp] := by decide
  have hdenotes : resolve [] rootedDir = resolve [] nodeDir := by decide
  have hgone := restoredDisk_current.cleanup_foreign hdenotes (by decide)
  refine ⟨Prod.ext (by decide +kernel) (by decide +kernel), by decide +kernel, hdenotes, ?_,
    by decide +kernel, by decide +kernel⟩
  intro hothers
  refine hothers _ ?_ rfl
  rw [hhandle, hgone, restoredDisk_current.entry]
  simp

end RaftExample
