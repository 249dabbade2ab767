import RaftExample.RestoreAtomicity

/-!
# The contract of `Persist`

Raft hands `Persist` a sink and expects it to be settled once: closed when the whole
snapshot has been written, cancelled when something has gone wrong.  The writer keeps to
that at every exit but its first.  When the iterator cannot be opened it returns without
touching the sink.  The size it reports is an `int64`, so it is the number of bytes
written as long as that number fits.
-/

namespace RaftExample

/-! ### What can go wrong -/

/-- Something fails on the way to a complete stream: opening the iterator, one of the
    writes of a complete run, compressing one of the values, or the iterator. -/
def SaveFaults.Strikes (gz : Gzip) (faults : SaveFaults) (content : KV) : Prop :=
  faults.newIter = true ∨ (∃ n < 2 + 4 * content.size, faults.write n = true) ∨
    (∃ i record, content.toList[i]? = some record ∧
      gzipEncode gz faults (4 * i + 3) record.2 = .none) ∨
    faults.iterStop.isSome = true

section Strikes

variable {gz : Gzip} {faults : SaveFaults} {content : KV}

/-- The turns for some records, call by call. -/
theorem exists_turnsOk_iff {writes : Nat} {records : List (Bytes × Bytes)} :
    (∃ zipped, TurnsOk gz faults writes records zipped) ↔
      (∀ n < 4 * records.length, faults.write (writes + n) = false) ∧
      ∀ i record, records[i]? = some record →
        gzipEncode gz faults (writes + 4 * i + 2) record.2 ≠ none := by
  induction records generalizing writes with
  | nil =>
    constructor
    · rintro -
      exact ⟨by simp, by simp⟩
    · rintro -
      exact ⟨[], .nil writes⟩
  | cons head records ih =>
    obtain ⟨key, val⟩ := head
    constructor
    · rintro ⟨zipped, h⟩
      cases h with
      | cons hturn hrest =>
        obtain ⟨hwrites, hzips⟩ := ih.mp ⟨_, hrest⟩
        constructor
        · intro n hn
          rw [List.length_cons] at hn
          rcases n with _ | _ | _ | _ | m
          · exact hturn.keySize
          · exact hturn.keyData
          · exact hturn.valSize
          · exact hturn.valData
          · have hplace : writes + (m + 4) = writes + 4 + m := by omega
            rw [hplace]
            exact hwrites m (by omega)
        · intro i record hrecord
          cases i with
          | zero =>
            obtain rfl := Option.some.inj hrecord
            simp [hturn.gzipVal]
          | succ i =>
            have hplace : writes + 4 * (i + 1) + 2 = writes + 4 + 4 * i + 2 := by omega
            rw [hplace]
            exact hzips i record hrecord
    · rintro ⟨hwrites, hzips⟩
      obtain ⟨z, hz⟩ := Option.ne_none_iff_exists'.mp (hzips 0 (key, val) rfl)
      rw [List.length_cons] at hwrites
      obtain ⟨zipped, hrest⟩ : ∃ zipped, TurnsOk gz faults (writes + 4) records zipped := by
        refine ih.mpr ⟨fun n hn => ?_, fun i record hrecord => ?_⟩
        · rw [Nat.add_assoc]
          exact hwrites (4 + n) (by omega)
        · have hplace : writes + 4 + 4 * i + 2 = writes + 4 * (i + 1) + 2 := by omega
          rw [hplace]
          exact hzips (i + 1) record hrecord
      exact ⟨_, .cons ⟨hwrites 0 (by omega), hwrites 1 (by omega), hz, hwrites 2 (by omega),
        hwrites 3 (by omega)⟩ hrest⟩

/-- Nothing fails exactly if the iterator opens and the stream is completed. -/
theorem SaveFaults.not_strikes_iff :
    ¬ faults.Strikes gz content ↔
      faults.newIter = false ∧ ∃ zipped, StreamOk gz faults 0 content zipped := by
  constructor
  · intro h
    simp only [SaveFaults.Strikes, not_or, not_exists, not_and, Bool.not_eq_true] at h
    obtain ⟨hiter, hwrites, hzips, hstop⟩ := h
    obtain ⟨zipped, hrecords⟩ : ∃ zipped, TurnsOk gz faults (0 + 1) content.toList zipped := by
      refine exists_turnsOk_iff.mpr ⟨fun n hn => ?_, fun i record hrecord => ?_⟩
      · rw [Std.ExtTreeMap.length_toList] at hn
        exact hwrites _ (by omega)
      · have hplace : 0 + 1 + 4 * i + 2 = 4 * i + 3 := by omega
        rw [hplace]
        exact hzips i record hrecord
    exact ⟨hiter, zipped, hwrites 0 (by omega), hrecords, by simpa using hstop,
      hwrites _ (by omega)⟩
  · rintro ⟨hiter, zipped, hstream⟩ hstrikes
    obtain ⟨hwrites, hzips⟩ := exists_turnsOk_iff.mp ⟨zipped, hstream.records⟩
    rw [Std.ExtTreeMap.length_toList] at hwrites
    rcases hstrikes with hnew | ⟨n, hn, hwrite⟩ | ⟨i, record, hrecord, hzip⟩ | hstop
    · simp [hiter] at hnew
    · have hfine : faults.write n = false := by
        rcases Nat.eq_zero_or_pos n with rfl | hpos
        · exact hstream.header
        · obtain ⟨m, rfl⟩ := Nat.exists_eq_add_of_le hpos
          rcases Nat.lt_or_ge m (4 * content.size) with hm | hm
          · simpa using hwrites m hm
          · have hlast : m = 4 * content.size := by omega
            rw [hlast]
            simpa using hstream.checksum
      simp [hfine] at hwrite
    · have hplace : 0 + 1 + 4 * i + 2 = 4 * i + 3 := by omega
      exact hzips i record hrecord (hplace ▸ hzip)
    · simp [hstream.iterator] at hstop

end Strikes

/-! ### The contract -/

open StateMachine

/-- How a call of `Persist` on a new sink has to end.  A call in which `Close` itself
    fails has done its part with the call of `Close`. -/
structure Settles (gz : Gzip) (faults : SaveFaults) (r : StateMachine) (captured : Captured)
    (created : Int64) (outcome : Except Err Unit × StateMachine × Sink) : Prop where
  cancelled : faults.Strikes gz captured.snapshot →
    (∃ e, outcome.1 = .error e) ∧ outcome.2.2.cancels = 1 ∧ outcome.2.2.closes = 0 ∧
      outcome.2.1.metrics = r.metrics
  closed : ¬ faults.Strikes gz captured.snapshot →
    outcome.2.2.closes = 1 ∧ outcome.2.2.cancels = 0 ∧
      ∃ zipped, Compressed gz captured.snapshot.toList zipped ∧
        outcome.2.2.data = snapshotStream r.nodeId captured.lastIndex created zipped
  measured : ¬ faults.Strikes gz captured.snapshot → faults.close = false →
    outcome.1 = .ok () ∧
      outcome.2.1.metrics.lastSnapshotSize.toInt = outcome.2.2.data.length ∧
      outcome.2.1.metrics.lastSnapshotRecords.toNat = captured.snapshot.size

/-! ### The two ends of a call -/

theorem Sink.fresh_wrote (p : Bytes) (calls : Nat) : Sink.fresh.wrote p calls = ⟨p, calls, 0, 0⟩ := by
  simp [Sink.wrote, Sink.fresh]

theorem TurnsOk.length_eq {gz : Gzip} {faults : SaveFaults} {writes : Nat}
    {records zipped : List (Bytes × Bytes)} (h : TurnsOk gz faults writes records zipped) :
    zipped.length = records.length := by
  induction h with
  | nil => rfl
  | cons _ _ ih => rw [List.length_cons, List.length_cons, ih]

/-- No record is empty. -/
theorem length_le_snapshotStream (nodeId : Bytes) (lastIndex : UInt64) (timestamp : Int64)
    (zipped : List (Bytes × Bytes)) :
    zipped.length ≤ (snapshotStream nodeId lastIndex timestamp zipped).length := by
  have hrecords : zipped.length ≤ (encodeRecords zipped).length := by
    induction zipped with
    | nil => simp
    | cons record zipped ih =>
      obtain ⟨key, z⟩ := record
      simp only [encodeRecords_cons, encodeRecord, List.length_append, List.length_cons,
        length_leBytes]
      omega
  simp only [snapshotStream, List.length_append]
  omega

section Persist

variable {gz : Gzip} {faults : SaveFaults} {zipped : List (Bytes × Bytes)} (r : StateMachine)
  (captured : Captured) (created now : Int64)

/-- Every failure after the iterator is open cancels the sink. -/
theorem persist_cancels (hiter : faults.newIter = false)
    (h : ∀ zipped, ¬ StreamOk gz faults 0 captured.snapshot zipped) :
    ∃ e sink, r.persist gz faults captured created now .fresh = (.error e, r, sink) ∧
      sink.cancels = 1 ∧ sink.closes = 0 := by
  obtain ⟨e, sink, hrun, hunsettled⟩ := @writeStream_fails gz faults .fresh r.nodeId
    captured.lastIndex created captured.snapshot h
  refine ⟨e, { sink with cancels := sink.cancels + 1 }, ?_, ?_, hunsettled.closes⟩
  · simp [persist, saveSnapShot, hiter, hrun]
  · rw [hunsettled.cancels]
    rfl

/-- A complete stream is followed by one call of `Close`. -/
theorem persist_closes (hiter : faults.newIter = false)
    (h : StreamOk gz faults 0 captured.snapshot zipped) :
    ∃ result r', r.persist gz faults captured created now .fresh = (result, r',
        ⟨snapshotStream r.nodeId captured.lastIndex created zipped, 2 + 4 * captured.snapshot.size,
          1, 0⟩) ∧
      (faults.close = false → result = .ok () ∧
        r'.metrics.lastSnapshotSize =
          .ofNat (snapshotStream r.nodeId captured.lastIndex created zipped).length ∧
        r'.metrics.lastSnapshotRecords = .ofNat zipped.length) := by
  have hstream := @writeStream_ok gz faults .fresh zipped r.nodeId captured.lastIndex created
    captured.snapshot h
  rw [Sink.fresh_wrote] at hstream
  rw [persist, saveSnapShot, hiter, hstream]
  cases hclose : faults.close with
  | true => exact ⟨.error .sinkClose, r, rfl, by simp⟩
  | false => exact ⟨.ok (), _, rfl, fun _ => ⟨rfl, rfl, rfl⟩⟩

/-- For every database, every schedule of failures and every captured index: `Persist`
    keeps its contract exactly if the iterator can be opened and, in a call that
    succeeds, the size of the stream can be told in 63 bits. -/
theorem persist_settles_iff :
    Settles gz faults r captured created (r.persist gz faults captured created now .fresh) ↔
      faults.newIter = false ∧
      (¬ faults.Strikes gz captured.snapshot → faults.close = false →
        ∀ zipped, Compressed gz captured.snapshot.toList zipped →
          (snapshotStream r.nodeId captured.lastIndex created zipped).length < 2 ^ 63) := by
  constructor
  · intro h
    have hiter : faults.newIter = false := by
      by_contra hnew
      have hfails : faults.newIter = true := by simpa using hnew
      obtain ⟨-, hcancels, -⟩ := h.cancelled (.inl hfails)
      simp [persist, saveSnapShot, hfails, Sink.fresh] at hcancels
    refine ⟨hiter, ?_⟩
    intro hquiet hclose zipped hzipped
    obtain ⟨-, written, hstream⟩ := SaveFaults.not_strikes_iff.mp hquiet
    obtain ⟨result, r', hrun, -⟩ := persist_closes r captured created now hiter hstream
    have hsize := (h.measured hquiet hclose).2.1
    rw [hrun] at hsize
    rw [hzipped.unique hstream.records.compressed]
    have hbound := r'.metrics.lastSnapshotSize.toInt_lt
    simp only at hsize
    omega
  · rintro ⟨hiter, hfits⟩
    by_cases hstrikes : faults.Strikes gz captured.snapshot
    · have hfails : ∀ zipped, ¬ StreamOk gz faults 0 captured.snapshot zipped :=
        fun zipped hstream => SaveFaults.not_strikes_iff.mpr ⟨hiter, zipped, hstream⟩ hstrikes
      obtain ⟨e, sink, hrun, hcancels, hcloses⟩ :=
        persist_cancels r captured created now hiter hfails
      rw [hrun]
      exact ⟨fun _ => ⟨⟨e, rfl⟩, hcancels, hcloses, rfl⟩, fun hquiet => absurd hstrikes hquiet,
        fun hquiet => absurd hstrikes hquiet⟩
    · obtain ⟨-, zipped, hstream⟩ := SaveFaults.not_strikes_iff.mp hstrikes
      obtain ⟨result, r', hrun, hmeasured⟩ := persist_closes r captured created now hiter hstream
      rw [hrun]
      refine ⟨fun h => absurd h hstrikes,
        fun _ => ⟨rfl, rfl, zipped, hstream.records.compressed, rfl⟩, fun _ hclose => ?_⟩
      obtain ⟨hresult, hsize, hrecords⟩ := hmeasured hclose
      have hlength := hfits hstrikes hclose zipped hstream.records.compressed
      have hcount := hstream.records.length_eq
      rw [Std.ExtTreeMap.length_toList] at hcount
      have hsmall : zipped.length < UInt64.size := by
        have hle := length_le_snapshotStream r.nodeId captured.lastIndex created zipped
        simp only [UInt64.size]
        omega
      simp only [hsize, hrecords]
      exact ⟨hresult, Int64.toInt_ofNat_of_lt hlength,
        (UInt64.toNat_ofNat_of_lt' hsmall).trans hcount⟩

end Persist

/-- The snapshot cannot be iterated. -/
def iteratorFails : SaveFaults := { SaveFaults.none with newIter := true }

/-- The call fails, and the sink is neither cancelled nor closed. -/
theorem persist_leaves_sink :
    iteratorFails.Strikes sampleGzip twoKeys ∧
    nodeMachine.persist sampleGzip iteratorFails ⟨twoKeys, 3, 1690⟩ 1700 1710 .fresh =
      (.error .newIter, nodeMachine, .fresh) ∧
    ¬ Settles sampleGzip iteratorFails nodeMachine ⟨twoKeys, 3, 1690⟩ 1700
      (nodeMachine.persist sampleGzip iteratorFails ⟨twoKeys, 3, 1690⟩ 1700 1710 .fresh) := by
  have hstrikes : iteratorFails.Strikes sampleGzip twoKeys := .inl rfl
  have hrun : nodeMachine.persist sampleGzip iteratorFails ⟨twoKeys, 3, 1690⟩ 1700 1710 .fresh =
      (.error .newIter, nodeMachine, .fresh) := rfl
  refine ⟨hstrikes, hrun, ?_⟩
  intro h
  obtain ⟨-, hcancels, -⟩ := h.cancelled hstrikes
  rw [hrun] at hcancels
  simp [Sink.fresh] at hcancels

end RaftExample
