import RaftExample.SnapshotRoundTrip

/-!
# The lengths a restore allocates

Three lengths come from the stream and go to `make`: that of the node ID, a 16-bit
number, that of a key, which is checked against 1 GiB, and that of a value, which is
not checked.  The reader records them as it meets them, and `madeLengths` is its
record for a whole stream.  All of them keep the limit, and the restore returns,
exactly if the reader comes to no record that announces a longer value.
-/

namespace RaftExample

/-- The limit the code sets for lengths, 1 GiB. -/
def maxLength : Nat := 2 ^ 30

/-! ### The lengths -/

/-- Every length that `recoverSnapShot` reads and passes to `make`: those of the header
    and, behind a header it accepts, those of the turns of the loop. -/
def madeLengths (gz : Gzip) (stream : Bytes) : List Nat :=
  (readHeader stream).lengths ++
    match readSnapshotHeader stream with
    | .ok (_, rest) => (readTurns gz (rest.length + 1) 0#32 rest).lengths
    | .error _ => []

/-! ### Values that are too long -/

/-- A record that announces a value of this length, above the limit. -/
inductive LongValue (n : Nat) : Bytes → Prop where
  | intro {key rest : Bytes} : key.length ≤ maxLength → maxLength < n → n < 256 ^ 8 →
      LongValue n (leBytes 8 key.length ++ key ++ leBytes 8 n ++ rest)

/-- After a header and complete records, a record announces a value above the limit. -/
def HasLongValue (gz : Gzip) (stream : Bytes) : Prop :=
  ∃ front header bytes records n rest, stream = front ++ bytes ++ rest ∧
    readSnapshotHeader front = .ok (header, []) ∧ Records gz bytes records ∧ LongValue n rest

section Lengths

variable {gz : Gzip} {stream : Bytes} {n : Nat}

theorem lengths_readHeader_le (stream : Bytes) :
    ∀ n ∈ (readHeader stream).lengths, n ≤ maxLength := by
  intro n hmem
  unfold readHeader at hmem
  split at hmem
  · rename_i headerBuf _ _
    dsimp only at hmem
    split at hmem
    · simp at hmem
    · split at hmem
      · simp at hmem
      · rw [readHeaderTail, Made.lengths_make, Made.lengths_pure, List.mem_singleton] at hmem
        have hfield : ((headerBuf.drop 24).take 2).length ≤ 2 := by simp
        have hlt := leNat_lt ((headerBuf.drop 24).take 2)
        have hpow : 256 ^ ((headerBuf.drop 24).take 2).length ≤ 256 ^ 2 :=
          Nat.pow_le_pow_right (by decide) hfield
        rw [maxLength]
        omega
  · simp at hmem

theorem mem_lengths_readValue {key : Bytes} {hasher : BitVec 32}
    (hmem : n ∈ (readValue gz key hasher stream).lengths) :
    n < 256 ^ 8 ∧ ∃ rest, stream = leBytes 8 n ++ rest := by
  unfold readValue at hmem
  split at hmem
  · simp at hmem
  · simp at hmem
  · rename_i sz rest hsz
    obtain ⟨rfl, hlen⟩ := readFull_eq_full hsz
    rw [readValueData, Made.lengths_make, Made.lengths_pure, List.mem_singleton] at hmem
    subst hmem
    exact ⟨hlen ▸ leNat_lt sz, rest, by rw [leBytes_leNat_of_length hlen]⟩

theorem mem_lengths_readKey {keyLen : Nat} {hasher : BitVec 32}
    (hmem : n ∈ (readKey gz hasher keyLen stream).lengths) :
    n = keyLen ∨ n < 256 ^ 8 ∧ ∃ key rest, key.length = keyLen ∧
      stream = key ++ (leBytes 8 n ++ rest) := by
  rw [readKey, Made.lengths_make] at hmem
  rcases List.mem_cons.mp hmem with hkeyLen | hvalue
  · exact .inl hkeyLen
  · split at hvalue
    · simp at hvalue
    · simp at hvalue
    · rename_i key rest hkey
      obtain ⟨rfl, hlen⟩ := readFull_eq_full hkey
      obtain ⟨hlt, rest, rfl⟩ := mem_lengths_readValue hvalue
      exact .inr ⟨hlt, key, rest, hlen, rfl⟩

/-- The key length has been checked, so a length above the limit is that of a value. -/
theorem lengths_readTurn_long {hasher : BitVec 32} (hmem : n ∈ (readTurn gz hasher stream).lengths)
    (hlong : maxLength < n) : LongValue n stream := by
  unfold readTurn at hmem
  split at hmem
  · simp at hmem
  · split at hmem
    · split at hmem <;> simp at hmem
    · simp at hmem
  · rename_i sz rest hsz
    obtain ⟨rfl, hszLen⟩ := readFull_eq_full hsz
    split at hmem
    · simp at hmem
    · rename_i hkeyLen
      rcases mem_lengths_readKey hmem with rfl | ⟨hlt, key, rest, hkey, rfl⟩
      · exact absurd hlong hkeyLen
      · have hstream : sz ++ (key ++ (leBytes 8 n ++ rest)) =
            leBytes 8 key.length ++ key ++ leBytes 8 n ++ rest := by
          rw [hkey, leBytes_leNat_of_length hszLen]
          simp
        rw [hstream]
        exact .intro (hkey ▸ Nat.not_lt.mp hkeyLen) hlong hlt

theorem LongValue.mem_lengths (h : LongValue n stream) (gz : Gzip) (hasher : BitVec 32) :
    n ∈ (readTurn gz hasher stream).lengths := by
  obtain ⟨hkey, hlong, hlt⟩ := h
  rw [List.append_assoc, readTurn_value hkey hlt, readValueData]
  simp

/-- A turn panics on a length that `make` does not take, and on nothing else. -/
theorem readRecord_eq_panic_iff (hasher : BitVec 32) :
    readRecord gz hasher stream = .panic ↔
      ∃ n ∈ (readTurn gz hasher stream).lengths, maxAlloc < n := by
  have hlimit : maxLength < maxAlloc := by decide
  constructor
  · intro hpanic
    have hexplains := readRecord_explains gz hasher stream
    rw [hpanic] at hexplains
    obtain ⟨hkey, hlarge, hlt⟩ := hexplains
    exact ⟨_, LongValue.mem_lengths (.intro hkey (Nat.lt_trans hlimit hlarge) hlt) gz hasher,
      hlarge⟩
  · rintro ⟨n, hmem, hlarge⟩
    obtain ⟨hkey, -, hlt⟩ := lengths_readTurn_long hmem (Nat.lt_trans hlimit hlarge)
    exact readRecord_oversized (.intro hkey hlarge hlt) gz hasher

theorem lengths_readTurns_succ (gz : Gzip) (fuel : Nat) (hasher : BitVec 32) (stream : Bytes) :
    (readTurns gz (fuel + 1) hasher stream).lengths = (readTurn gz hasher stream).lengths ++
      match readRecord gz hasher stream with
      | .record _ _ hasher rest => (readTurns gz fuel hasher rest).lengths
      | _ => [] := by
  rw [readTurns, readRecord]
  cases readTurn gz hasher stream with
  | mk lengths read => cases read <;> simp

theorem lengths_readTurns_long {fuel : Nat} {hasher : BitVec 32}
    (hmem : n ∈ (readTurns gz fuel hasher stream).lengths) (hlong : maxLength < n) :
    ∃ bytes records rest, stream = bytes ++ rest ∧ Records gz bytes records ∧
      LongValue n rest := by
  induction fuel generalizing hasher stream with
  | zero => simp [readTurns] at hmem
  | succ fuel ih =>
    rw [lengths_readTurns_succ] at hmem
    rcases List.mem_append.mp hmem with hfirst | hlater
    · exact ⟨[], [], stream, rfl, .nil, lengths_readTurn_long hfirst hlong⟩
    · have hexplains := readRecord_explains gz hasher stream
      cases hread : readRecord gz hasher stream with
      | record key value hasher' tail =>
        rw [hread] at hlater hexplains
        obtain ⟨zipped, hgood, rfl, rfl⟩ := hexplains
        obtain ⟨bytes, records, rest, rfl, hrecords, hvalue⟩ := ih hlater
        exact ⟨encodeRecord key zipped ++ bytes, _, rest, by simp, .cons hgood hrecords, hvalue⟩
      | stop _ => simp [hread] at hlater
      | bad _ => simp [hread] at hlater
      | panic => simp [hread] at hlater

/-- The reader comes to every record that has complete records before it. -/
theorem mem_lengths_readTurns {bytes : Bytes} {records : List (Bytes × Bytes)}
    (h : Records gz bytes records) (hvalue : LongValue n stream) {fuel : Nat}
    (hfuel : bytes.length < fuel) (hasher : BitVec 32) :
    n ∈ (readTurns gz fuel hasher (bytes ++ stream)).lengths := by
  induction h generalizing hasher fuel with
  | nil =>
    obtain ⟨fuel, rfl⟩ := Nat.exists_eq_succ_of_ne_zero (Nat.ne_of_gt hfuel)
    rw [List.nil_append, lengths_readTurns_succ]
    exact List.mem_append_left _ (hvalue.mem_lengths gz hasher)
  | @cons key zipped value bytes records hrecord _ ih =>
    obtain ⟨fuel, rfl⟩ := Nat.exists_eq_succ_of_ne_zero (Nat.ne_zero_of_lt hfuel)
    have hshort : bytes.length < fuel := by
      rw [List.length_append, length_encodeRecord] at hfuel
      omega
    rw [List.append_assoc, lengths_readTurns_succ, readRecord_encodeRecord hrecord]
    exact List.mem_append_right _ (ih hshort _)

/-- All lengths keep the limit exactly if no value announced does not. -/
theorem madeLengths_le_iff :
    (∀ n ∈ madeLengths gz stream, n ≤ maxLength) ↔ ¬ HasLongValue gz stream := by
  constructor
  · rintro hall ⟨front, header, bytes, records, n, rest, rfl, hheader, hrecords, hvalue⟩
    have hread := readSnapshotHeader_append hheader (bytes ++ rest)
    have hmem : n ∈ madeLengths gz (front ++ bytes ++ rest) := by
      rw [List.append_assoc, madeLengths, hread]
      apply List.mem_append_right
      exact mem_lengths_readTurns hrecords hvalue (by rw [List.length_append]; omega) _
    obtain ⟨-, hlong, -⟩ := hvalue
    exact absurd (hall n hmem) (Nat.not_le.mpr hlong)
  · intro hnone n hmem
    by_contra hlong
    rw [Nat.not_le] at hlong
    rcases List.mem_append.mp hmem with hfirst | hlater
    · exact absurd hlong (Nat.not_lt.mpr (lengths_readHeader_le stream n hfirst))
    · cases hread : readSnapshotHeader stream with
      | error e => simp [hread] at hlater
      | ok pair =>
        obtain ⟨header, tail⟩ := pair
        rw [hread] at hlater
        obtain ⟨front, rfl, hother⟩ := readSnapshotHeader_split hread
        obtain ⟨bytes, records, rest, rfl, hrecords, hvalue⟩ :=
          lengths_readTurns_long hlater hlong
        exact hnone ⟨front, header, bytes, records, n, rest, by simp, by simpa using hother [],
          hrecords, hvalue⟩

theorem HasOversizedValue.hasLongValue (h : HasOversizedValue gz stream) : HasLongValue gz stream := by
  obtain ⟨front, header, bytes, records, rest, rfl, hheader, hrecords, hkey, hlarge, hlt⟩ := h
  have hlimit : maxLength < maxAlloc := by decide
  exact ⟨front, header, bytes, records, _, _, rfl, hheader, hrecords,
    .intro hkey (Nat.lt_trans hlimit hlarge) hlt⟩

end Lengths

/-! ### Restores that return -/

/-- For every stream: the restore returns, with success or with an error, and keeps to
    the limit with every length it allocates, if and only if it comes to no record that
    announces a value above the limit.  The disk operations up to the rename of the
    pointer file are taken to succeed. -/
theorem recoverSnapShot_bounded_iff {gz : Gzip} {env : Env Site} {s : Store} {stamp : Stamp}
    {name : Name} {live : KV} {fs : FS KV} (hcrash : env.NoCrash)
    (hsites : ∀ site ∈ restoreSites, env.fate site = .ok)
    (hserving : Serving env.cwd s fs name live) (hfresh : fs[targetOf env s stamp]? = none)
    (stream : Bytes) :
    ((∃ result fs', recoverSnapShot gz s stamp stream env fs = (.value result, fs')) ∧
      ∀ n ∈ madeLengths gz stream, n ≤ maxLength) ↔ ¬ HasLongValue gz stream := by
  constructor
  · rintro ⟨-, hall⟩
    exact madeLengths_le_iff.mp hall
  · intro hnone
    refine ⟨?_, madeLengths_le_iff.mpr hnone⟩
    rcases (recoverSnapShot_fills gz stream hserving.toPointsTo hfresh).cases with
      ⟨result, fs', hrun, -⟩ | ⟨fs', -, hdied⟩
    · exact ⟨result, fs', hrun⟩
    · -- the process is not killed and the publication does not fail, so it was an allocation
      rcases hdied with ⟨-, hpanic⟩ | ⟨hcrashed, -⟩
      · rcases hpanic hcrash with hover | ⟨-, site, hsite, hfate⟩
        · exact absurd hover.hasOversizedValue.hasLongValue hnone
        · exact absurd (hsites site hsite) hfate
      · exact absurd hcrash hcrashed

/-- The sample snapshot allocates three short strings. -/
theorem recoverSnapShot_bounded_oneRecord :
    (∃ result fs', recoverSnapShot sampleGzip nodeStore restoreStamp oneRecord (.fair [])
      nodeDisk = (.value result, fs')) ∧ madeLengths sampleGzip oneRecord = [1, 2, 30] := by
  have hlengths : madeLengths sampleGzip oneRecord = [1, 2, 30] := by decide +kernel
  have hnone : ¬ HasLongValue sampleGzip oneRecord := by
    rw [← madeLengths_le_iff, hlengths]
    decide
  exact ⟨((recoverSnapShot_bounded_iff (Env.fair_allOk []).noCrash
    (fun site _ => Env.fair_allOk [] site) nodeServing (by decide +kernel) oneRecord).mpr hnone).1,
    hlengths⟩

/-- A header and a record with an empty key whose value is announced with 2 ^ 63 bytes. -/
def hugeValue : Bytes := encodeHeader [110] 7 1700 ++ (leBytes 8 0 ++ leBytes 8 (2 ^ 63))

/-- The allocation panics and leaves the new database behind. -/
theorem recoverSnapShot_panics_hugeValue :
    (recoverSnapShot sampleGzip nodeStore restoreStamp hugeValue (.fair []) nodeDisk).1 = .panic ∧
    (recoverSnapShot sampleGzip nodeStore restoreStamp hugeValue (.fair [])
      nodeDisk).2[targetOf (.fair []) nodeStore restoreStamp]? = some (.dir (.database ∅)) ∧
    madeLengths sampleGzip hugeValue = [1, 0, 2 ^ 63] := by
  decide +kernel

end RaftExample
