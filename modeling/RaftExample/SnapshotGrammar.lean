import RaftExample.RecoverSnapshot

/-!
# Which streams the record loop reads to the end

`Records` is the grammar of a sequence of complete records.  One turn of the loop
consumes one production of it (`readRecord_eq_record`, `readRecord_encodeRecord`),
every other way a turn can end is characterised by the bytes that are left, and
`readRecords` collects the turns.
-/

namespace RaftExample

/-- The size limits and the codec condition on one record of a stream. -/
structure GoodRecord (gz : Gzip) (key zipped value : Bytes) : Prop where
  key_le : key.length ≤ 2 ^ 30
  zipped_le : zipped.length ≤ maxAlloc
  decode : gz.decode zipped = some value

/-- Concatenations of complete records, with the keys and values they stand for. -/
inductive Records (gz : Gzip) : Bytes → List (Bytes × Bytes) → Prop where
  | nil : Records gz [] []
  | cons {key zipped value bytes : Bytes} {records : List (Bytes × Bytes)} :
      GoodRecord gz key zipped value → Records gz bytes records →
      Records gz (encodeRecord key zipped ++ bytes) ((key, value) :: records)

/-! ### The fields of a record -/

theorem leBytes_leNat_of_length {width : Nat} {bytes : Bytes} (h : bytes.length = width) :
    leBytes width (leNat bytes) = bytes := by
  subst h; exact leBytes_leNat bytes

theorem length_encodeRecord (key zipped : Bytes) :
    (encodeRecord key zipped).length = 16 + key.length + zipped.length := by
  simp [encodeRecord]; omega

/-- The four checksummed writes of a record are one checksummed string. -/
theorem crc32Update_encodeRecord (hasher : BitVec 32) (key zipped : Bytes) :
    crc32Update hasher (encodeRecord key zipped) =
      crc32Update (crc32Update (crc32Update (crc32Update hasher (leBytes 8 key.length)) key)
        (leBytes 8 zipped.length)) zipped := by
  simp [encodeRecord, crc32Update_append]

theorem pow_thirty_lt_word : 2 ^ 30 < 256 ^ 8 := by norm_num

theorem maxAlloc_lt_word : maxAlloc < 256 ^ 8 := by norm_num [maxAlloc]

variable {gz : Gzip}

/-- The first two fields of a record, in front of anything. -/
theorem readTurn_key {key : Bytes} (hkey : key.length ≤ 2 ^ 30) (gz : Gzip)
    (hasher : BitVec 32) (rest : Bytes) :
    readTurn gz hasher (leBytes 8 key.length ++ key ++ rest) = .make key.length
      (readValue gz key (crc32Update (crc32Update hasher (leBytes 8 key.length)) key) rest) := by
  have hlen : leNat (leBytes 8 key.length) = key.length :=
    leNat_leBytes_of_lt (lt_of_le_of_lt hkey pow_thirty_lt_word)
  rw [List.append_assoc, readTurn, readFull_append_of_length (length_leBytes ..)]
  simp only [hlen, if_neg (Nat.not_lt.mpr hkey)]
  rw [readKey, readFull_append]

/-- The third field, behind the first two. -/
theorem readTurn_value {key : Bytes} (hkey : key.length ≤ 2 ^ 30) {n : Nat} (hn : n < 256 ^ 8)
    (gz : Gzip) (hasher : BitVec 32) (rest : Bytes) :
    readTurn gz hasher (leBytes 8 key.length ++ key ++ (leBytes 8 n ++ rest)) = .make key.length
      (readValueData gz key (crc32Update (crc32Update (crc32Update hasher
        (leBytes 8 key.length)) key) (leBytes 8 n)) n rest) := by
  rw [readTurn_key hkey, readValue, readFull_append_of_length (length_leBytes ..)]
  simp only [leNat_leBytes_of_lt hn]

/-- A turn that finds a complete record at the front of the stream consumes it. -/
theorem readRecord_encodeRecord {key zipped value : Bytes} (h : GoodRecord gz key zipped value)
    (hasher : BitVec 32) (rest : Bytes) :
    readRecord gz hasher (encodeRecord key zipped ++ rest) =
      .record key value (crc32Update hasher (encodeRecord key zipped)) rest := by
  have hstream : encodeRecord key zipped ++ rest =
      leBytes 8 key.length ++ key ++ (leBytes 8 zipped.length ++ (zipped ++ rest)) := by
    simp [encodeRecord]
  rw [hstream, readRecord, readTurn_value h.key_le (lt_of_le_of_lt h.zipped_le maxAlloc_lt_word),
    readValueData, if_neg (Nat.not_lt.mpr h.zipped_le), readFull_append]
  simp only [Made.result_make, Made.result_pure, h.decode]
  rw [crc32Update_encodeRecord]

theorem readRecord_nil (gz : Gzip) (hasher : BitVec 32) : readRecord gz hasher [] = .stop .noChecksum := by
  rw [readRecord, readTurn, readFull_nil (by decide), Made.result_pure]

theorem readRecord_checksum (gz : Gzip) (hasher : BitVec 32) :
    readRecord gz hasher (leBytes 4 hasher.toNat) = .stop .verified := by
  have hlen : (leBytes 4 hasher.toNat).length = 4 := length_leBytes ..
  have hne : leBytes 4 hasher.toNat ≠ [] := by
    intro h; rw [h] at hlen; simp at hlen
  have hsum : leNat (leBytes 4 hasher.toNat) = hasher.toNat :=
    leNat_leBytes_of_lt (by have := hasher.isLt; omega)
  rw [readRecord, readTurn, readFull_short hne (by rw [hlen]; decide)]
  simp only [hlen, if_true, hsum, ne_eq, not_true, if_false, Made.result_pure]

/-! ### How a turn can end -/

/-- A record that ends with one of its fields, but not the last. -/
inductive CutRecord : StopReason → Bytes → Prop where
  | atKey {n : Nat} : 0 < n → n ≤ 2 ^ 30 → CutRecord .cutAtKey (leBytes 8 n)
  | atValueLen {key : Bytes} : key.length ≤ 2 ^ 30 →
      CutRecord .cutAtValueLen (leBytes 8 key.length ++ key)
  | atValue {key : Bytes} {n : Nat} : key.length ≤ 2 ^ 30 → 0 < n → n ≤ maxAlloc →
      CutRecord .cutAtValue (leBytes 8 key.length ++ key ++ leBytes 8 n)

/-- What is left of the stream at each `break`. -/
inductive StopsAt (hasher : BitVec 32) : StopReason → Bytes → Prop where
  | noChecksum : StopsAt hasher .noChecksum []
  | verified : StopsAt hasher .verified (leBytes 4 hasher.toNat)
  | cut {reason : StopReason} {stream : Bytes} :
      CutRecord reason stream → StopsAt hasher reason stream

/-- A value length that no allocation can satisfy. -/
inductive Oversized : Bytes → Prop where
  | intro {key rest : Bytes} {n : Nat} : key.length ≤ 2 ^ 30 → maxAlloc < n → n < 256 ^ 8 →
      Oversized (leBytes 8 key.length ++ key ++ leBytes 8 n ++ rest)

/-- A record cut at a field boundary ends the loop as if the data had ended. -/
theorem readRecord_cut {reason : StopReason} {stream : Bytes} (h : CutRecord reason stream)
    (gz : Gzip) (hasher : BitVec 32) : readRecord gz hasher stream = .stop reason := by
  cases h with
  | @atKey n hpos hn =>
      have hlen : leNat (leBytes 8 n) = n :=
        leNat_leBytes_of_lt (lt_of_le_of_lt hn pow_thirty_lt_word)
      have hread := readFull_append_of_length (length_leBytes 8 n) []
      rw [List.append_nil] at hread
      rw [readRecord, readTurn, hread]
      simp only [hlen, if_neg (Nat.not_lt.mpr hn)]
      rw [readKey, readFull_nil hpos, Made.result_make, Made.result_pure]
  | @atValueLen key hkey =>
      have hread := readTurn_key hkey gz hasher []
      rw [List.append_nil] at hread
      rw [readRecord, hread, readValue, readFull_nil (by decide), Made.result_make,
        Made.result_pure]
  | @atValue key n hkey hpos hn =>
      have hread := readTurn_value hkey (lt_of_le_of_lt hn maxAlloc_lt_word) gz hasher []
      rw [List.append_nil] at hread
      rw [readRecord, hread, readValueData, if_neg (Nat.not_lt.mpr hn), readFull_nil hpos,
        Made.result_make, Made.result_make, Made.result_pure]

theorem readRecord_oversized {stream : Bytes} (h : Oversized stream) (gz : Gzip)
    (hasher : BitVec 32) : readRecord gz hasher stream = .panic := by
  obtain ⟨hkey, hlarge, hn⟩ := h
  rw [List.append_assoc, readRecord, readTurn_value hkey hn, readValueData, if_pos hlarge,
    Made.result_make, Made.result_make, Made.result_pure]

/-- What each end of a turn says about the stream it started on. -/
def RecordRead.Explains (gz : Gzip) (hasher : BitVec 32) (stream : Bytes) : RecordRead → Prop
  | .record key value hasher' rest => ∃ zipped, GoodRecord gz key zipped value ∧
      stream = encodeRecord key zipped ++ rest ∧
      hasher' = crc32Update hasher (encodeRecord key zipped)
  | .stop reason => StopsAt hasher reason stream
  | .bad _ => True
  | .panic => Oversized stream

theorem readValueData_explains (gz : Gzip) {key : Bytes} (hkey : key.length ≤ 2 ^ 30) (hasher : BitVec 32)
    {n : Nat} (hn : n < 256 ^ 8) (stream : Bytes) :
    (readValueData gz key (crc32Update (crc32Update (crc32Update hasher (leBytes 8 key.length)) key)
        (leBytes 8 n)) n stream).result.Explains gz hasher
      (leBytes 8 key.length ++ key ++ leBytes 8 n ++ stream) := by
  rw [readValueData, Made.result_make, Made.result_pure]
  split
  · rename_i hlarge
    exact .intro hkey hlarge hn
  rename_i hsmall
  split
  · rename_i heof
    obtain ⟨rfl, hpos⟩ := readFull_eq_eof heof
    rw [List.append_nil]
    exact .cut (.atValue hkey hpos (Nat.not_lt.mp hsmall))
  · exact trivial
  rename_i zipped rest hfull
  obtain ⟨rfl, rfl⟩ := readFull_eq_full hfull
  split
  · exact trivial
  · rename_i value hdecode
    refine ⟨zipped, ⟨hkey, Nat.not_lt.mp hsmall, hdecode⟩, ?_, ?_⟩
    · simp [encodeRecord]
    · rw [crc32Update_encodeRecord]

theorem readValue_explains (gz : Gzip) {key : Bytes} (hkey : key.length ≤ 2 ^ 30) (hasher : BitVec 32)
    (stream : Bytes) :
    (readValue gz key (crc32Update (crc32Update hasher (leBytes 8 key.length)) key)
      stream).result.Explains gz hasher (leBytes 8 key.length ++ key ++ stream) := by
  unfold readValue
  split
  · rename_i heof
    obtain ⟨rfl, -⟩ := readFull_eq_eof heof
    rw [List.append_nil]
    exact .cut (.atValueLen hkey)
  · exact trivial
  · rename_i sz rest hfull
    obtain ⟨rfl, hsz⟩ := readFull_eq_full hfull
    have hlt : leNat sz < 256 ^ 8 := hsz ▸ leNat_lt sz
    have hdata := readValueData_explains gz hkey hasher hlt rest
    rw [leBytes_leNat_of_length hsz] at hdata
    simpa using hdata

theorem readKey_explains (gz : Gzip) (hasher : BitVec 32) {n : Nat} (hn : n ≤ 2 ^ 30)
    (stream : Bytes) :
    (readKey gz (crc32Update hasher (leBytes 8 n)) n stream).result.Explains gz hasher
      (leBytes 8 n ++ stream) := by
  rw [readKey, Made.result_make]
  split
  · rename_i heof
    obtain ⟨rfl, hpos⟩ := readFull_eq_eof heof
    rw [List.append_nil]
    exact .cut (.atKey hpos hn)
  · exact trivial
  · rename_i key rest hfull
    obtain ⟨rfl, rfl⟩ := readFull_eq_full hfull
    simpa using readValue_explains gz hn hasher rest

/-- Every turn, whatever the stream, ends in one of the ways described. -/
theorem readRecord_explains (gz : Gzip) (hasher : BitVec 32) (stream : Bytes) :
    (readRecord gz hasher stream).Explains gz hasher stream := by
  unfold readRecord readTurn
  split
  · rename_i heof
    obtain ⟨rfl, -⟩ := readFull_eq_eof heof
    exact .noChecksum
  · rename_i got hshort
    obtain ⟨rfl, -, -⟩ := readFull_eq_unexpectedEof hshort
    split
    · rename_i hfour
      split
      · exact trivial
      · rename_i hsum
        have hbytes : leBytes 4 hasher.toNat = got := by
          rw [← not_not.mp hsum]; exact leBytes_leNat_of_length hfour
        exact hbytes ▸ StopsAt.verified
    · exact trivial
  · rename_i sz rest hfull
    obtain ⟨rfl, hsz⟩ := readFull_eq_full hfull
    split
    · exact trivial
    · rename_i hkeyLen
      have hread := readKey_explains gz hasher (Nat.not_lt.mp hkeyLen) rest
      rwa [leBytes_leNat_of_length hsz] at hread

/-! ### All turns -/

/-- The turns of the loop without the database: the records it put into batches, and
    how it ended. -/
def readTurns (gz : Gzip) :
    Nat → BitVec 32 → Bytes → Made (List (Bytes × Bytes) × RecordRead)
  | 0, _, _ => .pure ([], .panic)
  | fuel + 1, hasher, stream =>
      match readTurn gz hasher stream with
      | ⟨lengths, .record key value hasher rest⟩ =>
          let later := readTurns gz fuel hasher rest
          ⟨lengths ++ later.lengths, ((key, value) :: later.result.1, later.result.2)⟩
      | ⟨lengths, last⟩ => ⟨lengths, ([], last)⟩

def readRecords (gz : Gzip) (fuel : Nat) (hasher : BitVec 32) (stream : Bytes) :
    List (Bytes × Bytes) × RecordRead :=
  (readTurns gz fuel hasher stream).result

theorem readRecords_succ (gz : Gzip) (fuel : Nat) (hasher : BitVec 32) (stream : Bytes) :
    readRecords gz (fuel + 1) hasher stream =
      match readRecord gz hasher stream with
      | .record key value hasher rest =>
          ((key, value) :: (readRecords gz fuel hasher rest).1, (readRecords gz fuel hasher rest).2)
      | last => ([], last) := by
  rw [readRecords, readTurns, readRecord]
  cases readTurn gz hasher stream with
  | mk lengths read => cases read <;> rfl

/-- Complete records at the front of a stream are all read, and the end is that of
    the turn after them. -/
theorem readRecords_append {bytes : Bytes} {records : List (Bytes × Bytes)}
    (h : Records gz bytes records) (hasher : BitVec 32) (rest : Bytes) {fuel : Nat}
    (hfuel : bytes.length < fuel) {last : RecordRead}
    (hlast : readRecord gz (crc32Update hasher bytes) rest = last)
    (hend : ∀ key value hasher rest, last ≠ .record key value hasher rest) :
    readRecords gz fuel hasher (bytes ++ rest) = (records, last) := by
  induction h generalizing hasher fuel with
  | nil =>
      obtain ⟨fuel, rfl⟩ := Nat.exists_eq_succ_of_ne_zero (Nat.ne_of_gt hfuel)
      rw [crc32Update_nil] at hlast
      rw [List.nil_append, readRecords_succ, hlast]
      cases last with
      | record key value hasher rest => exact absurd rfl (hend key value hasher rest)
      | stop _ => rfl
      | bad _ => rfl
      | panic => rfl
  | @cons key zipped value bytes records hrecord _ ih =>
      obtain ⟨fuel, rfl⟩ := Nat.exists_eq_succ_of_ne_zero (Nat.ne_zero_of_lt hfuel)
      have hshort : bytes.length < fuel := by
        rw [List.length_append, length_encodeRecord] at hfuel; omega
      rw [← crc32Update_append] at hlast
      rw [List.append_assoc, readRecords_succ, readRecord_encodeRecord hrecord]
      simp only [ih _ hshort hlast]

/-- Every run of the loop reads complete records up to a last turn. -/
theorem readRecords_split (gz : Gzip) {fuel : Nat} (hasher : BitVec 32) (stream : Bytes)
    (hfuel : stream.length < fuel) :
    ∃ bytes rest, stream = bytes ++ rest ∧
      Records gz bytes (readRecords gz fuel hasher stream).1 ∧
      readRecord gz (crc32Update hasher bytes) rest = (readRecords gz fuel hasher stream).2 ∧
      ∀ key value hasher' rest,
        (readRecords gz fuel hasher stream).2 ≠ .record key value hasher' rest := by
  induction fuel generalizing hasher stream with
  | zero => omega
  | succ fuel ih =>
      have hexplains := readRecord_explains gz hasher stream
      rw [readRecords_succ]
      cases hread : readRecord gz hasher stream with
      | record key value hasher' rest =>
          rw [hread] at hexplains
          obtain ⟨zipped, hgood, rfl, rfl⟩ := hexplains
          have hshort : rest.length < fuel := by
            rw [List.length_append, length_encodeRecord] at hfuel; omega
          obtain ⟨bytes, tail, rfl, hrecords, hlast, hend⟩ := ih _ rest hshort
          refine ⟨encodeRecord key zipped ++ bytes, tail, by simp, .cons hgood hrecords, ?_, hend⟩
          rw [← crc32Update_append]; exact hlast
      | stop reason => exact ⟨[], stream, rfl, .nil, by simpa using hread, by simp⟩
      | bad e => exact ⟨[], stream, rfl, .nil, by simpa using hread, by simp⟩
      | panic => exact ⟨[], stream, rfl, .nil, by simpa using hread, by simp⟩

end RaftExample
