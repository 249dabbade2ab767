import RaftExample.RestoreAtomicity

/-!
# Records that a restore loses

`recoverSnapShot` ignores the errors of `Put`, its batch wrapper has no result for
`Commit`, and the error of `Flush` is ignored as well.  A restore can therefore succeed
and install a database in which records of the snapshot are missing.  It loses nothing
exactly if for every key the last record that arrives has the value of the last record
in the stream; in a stream with distinct keys, such as `saveSnapShot` writes, exactly if
every record arrives.  A failing `Flush` does no harm.
-/

namespace RaftExample

/-- For every key, the last of its records that arrives has the value of the last of all
    its records. -/
def NothingLost (env : Env Site) (records : List (Bytes × Bytes)) : Prop :=
  ∀ key, (survivors env 0 records).reverse.lookup key = records.reverse.lookup key

section LostWrites

variable {env : Env Site} {records : List (Bytes × Bytes)}

theorem mem_survivors {n : Nat} {record : Bytes × Bytes} :
    record ∈ survivors env n records ↔
      ∃ m, records[m]? = some record ∧ Survives env (n + m) := by
  induction records generalizing n with
  | nil => simp [survivors]
  | cons head records ih =>
    have hlater : record ∈ survivors env (n + 1) records ↔
        ∃ m, (head :: records)[m + 1]? = some record ∧ Survives env (n + (m + 1)) := by
      rw [ih]
      apply exists_congr
      intro m
      rw [List.getElem?_cons_succ, show n + 1 + m = n + (m + 1) by omega]
    constructor
    · intro hmem
      by_cases hsurvives : Survives env n
      · rw [survivors, if_pos hsurvives] at hmem
        rcases List.mem_cons.mp hmem with rfl | hrest
        · exact ⟨0, rfl, hsurvives⟩
        · obtain ⟨m, hm⟩ := hlater.mp hrest
          exact ⟨m + 1, hm⟩
      · rw [survivors, if_neg hsurvives] at hmem
        obtain ⟨m, hm⟩ := hlater.mp hmem
        exact ⟨m + 1, hm⟩
    · rintro ⟨m, hrecord, hsurvives⟩
      cases m with
      | zero =>
        obtain rfl := Option.some.inj hrecord
        rw [Nat.add_zero] at hsurvives
        rw [survivors, if_pos hsurvives]
        exact List.mem_cons_self
      | succ m =>
        have hrest := hlater.mpr ⟨m, hrecord, hsurvives⟩
        by_cases hfirst : Survives env n
        · rw [survivors, if_pos hfirst]
          exact List.mem_cons_of_mem head hrest
        · rwa [survivors, if_neg hfirst]

/-- With distinct keys no other record can stand in for one that is lost. -/
theorem nothingLost_iff_of_nodup (hkeys : (records.map Prod.fst).Nodup) :
    NothingLost env records ↔ ∀ n, n < records.length → Survives env n := by
  constructor
  · intro hnothing n hn
    by_contra hlost
    have hmem : records[n] ∈ records.reverse := List.mem_reverse.mpr (List.getElem_mem hn)
    have hfound : records.reverse.lookup records[n].1 ≠ none := by
      intro hnone
      have hne := List.lookup_eq_none_iff.mp hnone records[n] hmem
      simp at hne
    rw [← hnothing] at hfound
    apply hfound
    rw [List.lookup_eq_none_iff]
    intro other hother
    obtain ⟨m, hm, hsurvives⟩ := mem_survivors.mp (List.mem_reverse.mp hother)
    -- the key of the lost record stands at one place only
    rw [bne_iff_ne]
    intro hkey
    have hplaces : (records.map Prod.fst)[n]? = (records.map Prod.fst)[m]? := by
      rw [List.getElem?_map, List.getElem?_map, hm, List.getElem?_eq_getElem hn]
      simp [hkey]
    obtain rfl := (List.getElem?_inj (by simpa using hn) hkeys).mp hplaces
    rw [Nat.zero_add] at hsurvives
    exact hlost hsurvives
  · intro hall key
    rw [survivors_eq_self fun m hm => by simpa using hall m hm]

theorem arrived_eq_iff : arrived env records = applyBatch records ∅ ↔ NothingLost env records := by
  constructor
  · intro heq key
    have hlookup : (arrived env records)[key]? = (applyBatch records ∅)[key]? := by rw [heq]
    simpa [arrived, lookup_applyBatch] using hlookup
  · intro hnothing
    apply Std.ExtTreeMap.ext_getElem?
    intro key
    rw [arrived, lookup_applyBatch, lookup_applyBatch, hnothing key]

/-- A restore that succeeds has made a database live that holds exactly the records of
    the stream, if and only if nothing was lost. -/
theorem restore_lost_nothing_iff {gz : Gzip} {s s' : Store} {stamp : Stamp} {name : Name}
    {live : KV} {stream : Bytes} {header header' : SnapshotHeader} {fs fs' : FS KV}
    (hserving : Serving env.cwd s fs name live) (hfresh : fs[targetOf env s stamp]? = none)
    (hstream : Accepts gz stream header records)
    (hrun : recoverSnapShot gz s stamp stream env fs = (.value (.ok header', s'), fs')) :
    (fs'[s'.db]? = some (.dir (.database (applyBatch records ∅))) ↔ NothingLost env records) ∧
    ((records.map Prod.fst).Nodup →
      (NothingLost env records ↔ ∀ n, n < records.length → Survives env n)) := by
  refine ⟨?_, nothingLost_iff_of_nodup⟩
  have hfilled := (recoverSnapShot_fills gz stream hserving.toPointsTo hfresh).value hrun
  rcases hfilled with ⟨-, ⟨e, he⟩, -⟩ | ⟨header₁, records₁, hpublishes, hdropped | hinstalled⟩
  · cases he
  · obtain ⟨⟨e, he⟩, -⟩ := hdropped
    cases he
  · obtain ⟨-, rfl⟩ := hstream.unique hpublishes.1
    obtain ⟨hstore, -, hcur, -⟩ := hinstalled
    simp only at hstore
    subst hstore
    have hlive : fs'[targetOf env s stamp]? = some (.dir (.database (arrived env records))) :=
      hcur.entry
    rw [← arrived_eq_iff, hlive]
    simp

end LostWrites

/-! ### A failing flush, a failing commit -/

theorem oneRecord_accepts : Accepts sampleGzip oneRecord
    ⟨snapshotMagic, 1, 7, 1700, [110], 0⟩ [([1, 107], [118])] := by
  refine ⟨_, .verified, oneRecord_parse.1, ?_⟩
  decide +kernel

/-- Where the node's database is after a restore of the sample. -/
def restoredStore : Store := { nodeStore with db := targetOf (.fair []) nodeStore restoreStamp }

/-- The flush of the new database fails, and nothing is lost. -/
theorem restore_flush_failure_lost_nothing :
    (recoverSnapShot sampleGzip nodeStore restoreStamp oneRecord (failAt .flushNew) nodeDisk).1 =
      .value (.ok ⟨snapshotMagic, 1, 7, 1700, [110], 0⟩, restoredStore) ∧
    (recoverSnapShot sampleGzip nodeStore restoreStamp oneRecord (failAt .flushNew)
      nodeDisk).2[restoredStore.db]? =
        some (.dir (.database (applyBatch [([1, 107], [118])] ∅))) := by
  have hrun : (recoverSnapShot sampleGzip nodeStore restoreStamp oneRecord (failAt .flushNew)
      nodeDisk).1 = .value (.ok ⟨snapshotMagic, 1, 7, 1700, [110], 0⟩, restoredStore) := by
    decide +kernel
  have hserving : Serving (failAt .flushNew).cwd nodeStore nodeDisk (stampName nodeStamp) ∅ :=
    nodeServing
  obtain ⟨hiff, hdistinct⟩ := restore_lost_nothing_iff hserving (by decide +kernel)
    oneRecord_accepts (Proc.run_of_outcome hrun)
  refine ⟨hrun, hiff.mpr ((hdistinct (by decide)).mpr ?_)⟩
  intro n _
  exact ⟨by simp [failAt], by simp [failAt]⟩

/-- The only commit fails: the restore succeeds, and the database it has made live is
    empty. -/
theorem restore_loses_batch :
    (recoverSnapShot sampleGzip nodeStore restoreStamp oneRecord (failAt (.commit 0)) nodeDisk).1 =
      .value (.ok ⟨snapshotMagic, 1, 7, 1700, [110], 0⟩, restoredStore) ∧
    (recoverSnapShot sampleGzip nodeStore restoreStamp oneRecord (failAt (.commit 0))
      nodeDisk).2[restoredStore.db]? = some (.dir (.database ∅)) ∧
    applyBatch [([1, 107], [118])] ∅ ≠ ∅ ∧
    CompleteSnapshot sampleGzip oneRecord ⟨snapshotMagic, 1, 7, 1700, [110], 0⟩
      [([1, 107], [118])] := by
  refine ⟨by decide +kernel, by decide +kernel, by decide +kernel, encodeHeader [110] 7 1700,
    encodeRecord [1, 107] zippedV ++ [], by decide +kernel, by decide +kernel, ?_⟩
  exact .cons ⟨by decide, by decide +kernel, by decide +kernel⟩ .nil

end RaftExample
