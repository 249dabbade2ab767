import RaftExample.ShiftRegister
import RaftExample.SnapshotRoundTrip

/-!
# Corrupted snapshots

A change of at most four consecutive bytes of payload (keys, compressed values, the
trailing checksum) leaves the boundaries of the records where they are, so the reader
still feeds its hasher the bytes the writer fed to its own.  CRC-32 is a shift register
of 32 bits, and the records followed by their checksum leave it in one fixed state; the
change therefore shows, if the reader does not stop on the way because a value no longer
decompresses.
-/

namespace RaftExample

/-! ### CRC-32 as a shift register -/

theorem crcBits_eq_steps (n : Nat) (crc : BitVec 32) :
    crcBits n crc = ShiftRegister.steps crcPolynomial n crc := by
  induction n generalizing crc with
  | zero => rfl
  | succ n ih => exact ih (crcBit crc)

theorem foldl_crcByte (crc : BitVec 32) (data : Bytes) :
    data.foldl crcByte crc =
      ShiftRegister.feedAll crcPolynomial crc (data.map UInt8.toBitVec) := by
  induction data generalizing crc with
  | nil => rfl
  | cons byte data ih =>
    rw [List.foldl_cons, ih, crcByte, crcBits_eq_steps]
    rfl

theorem pack_map_toBitVec (bytes : Bytes) :
    ShiftRegister.pack (bytes.map UInt8.toBitVec) = leNat bytes := by
  induction bytes with
  | nil => rfl
  | cons byte bytes ih =>
    rw [List.map_cons, ShiftRegister.pack, ih, leNat, Nat.add_comm]
    rfl

/-- The register after a message. -/
def crcRegister (data : Bytes) : BitVec 32 := data.foldl crcByte (BitVec.allOnes 32)

theorem crc32_eq_not_register (data : Bytes) : crc32 data = ~~~ crcRegister data := by
  simp [crc32, crc32Update, crcRegister]

/-- The state in which a message and its checksum leave the register. -/
def crcResidue : BitVec 32 := ShiftRegister.steps crcPolynomial 32 (BitVec.allOnes 32)

theorem crcPolynomial_msb : crcPolynomial.msb = true := by decide

/-- A message is followed by its checksum exactly if the register ends in that state. -/
theorem crcRegister_eq_residue_iff {data sum : Bytes} (hsum : sum.length = 4) :
    crcRegister (data ++ sum) = crcResidue ↔ leNat sum = (crc32 data).toNat := by
  have hfits : 8 * (sum.map UInt8.toBitVec).length ≤ 32 := by
    rw [List.length_map, hsum]
  have hregister : crcRegister (data ++ sum) = ShiftRegister.steps crcPolynomial 32
      (crcRegister data ^^^ BitVec.ofNat 32 (leNat sum)) := by
    have hfeed := ShiftRegister.feedAll_eq_steps crcPolynomial (crcRegister data)
      (sum.map UInt8.toBitVec) hfits
    rw [List.length_map, hsum, pack_map_toBitVec] at hfeed
    rw [crcRegister, List.foldl_append, foldl_crcByte]
    exact hfeed
  have hlt : leNat sum < 2 ^ 32 := by
    have hbound := leNat_lt sum
    rw [hsum] at hbound
    omega
  rw [hregister, crcResidue, (ShiftRegister.steps_injective crcPolynomial_msb 32).eq_iff,
    crc32_eq_not_register]
  constructor
  · intro hones
    have hword : BitVec.ofNat 32 (leNat sum) = ~~~ crcRegister data := by
      rw [← BitVec.xor_allOnes, ← hones, ← BitVec.xor_assoc, BitVec.xor_self, BitVec.zero_xor]
    rw [← hword, BitVec.toNat_ofNat, Nat.mod_eq_of_lt hlt]
  · intro heq
    rw [heq, BitVec.ofNat_toNat, BitVec.setWidth_eq, ← BitVec.xor_allOnes, ← BitVec.xor_assoc,
      BitVec.xor_self, BitVec.zero_xor]

/-- A change within four consecutive bytes of a message and its checksum. -/
theorem crc32_window_detected {data data' sum' : Bytes} (hsum : sum'.length = 4)
    (hlen : data'.length = data.length)
    (hne : data' ++ sum' ≠ data ++ leBytes 4 (crc32 data).toNat) (start : Nat)
    (hwindow : ∀ p, (data' ++ sum')[p]? ≠ (data ++ leBytes 4 (crc32 data).toNat)[p]? →
      start ≤ p ∧ p < start + 4) : leNat sum' ≠ (crc32 data').toNat := by
  have hchecks : leNat (leBytes 4 (crc32 data).toNat) = (crc32 data).toNat :=
    leNat_leBytes_of_lt (by have := (crc32 data).isLt; omega)
  have hright := (crcRegister_eq_residue_iff (length_leBytes 4 (crc32 data).toNat)).mpr hchecks
  intro hwrong
  rw [← crcRegister_eq_residue_iff hsum, ← hright, crcRegister, crcRegister, foldl_crcByte,
    foldl_crcByte] at hwrong
  refine ShiftRegister.window_detected crcPolynomial_msb (BitVec.allOnes 32) ?_ ?_ start 4
    (by decide) ?_ hwrong
  · rw [List.length_map, List.length_map, List.length_append, List.length_append, hsum, hlen,
      length_leBytes]
  · intro hsame
    exact hne (List.map_injective_iff.mpr (fun _ _ => UInt8.eq_of_toBitVec_eq) hsame)
  · intro p hdiffer
    apply hwindow p
    intro hsame
    rw [List.getElem?_map, List.getElem?_map, hsame] at hdiffer
    exact hdiffer rfl

/-! ### Payload -/

/-- For each byte of a record, whether it belongs to the key or to the value. -/
def recordMask (key zipped : Bytes) : List Bool :=
  List.replicate 8 false ++ List.replicate key.length true ++ List.replicate 8 false ++
    List.replicate zipped.length true

/-- For each byte of a snapshot, whether it is payload: neither in the header nor in a
    length field. -/
def payloadMask (header : Bytes) (zipped : List (Bytes × Bytes)) : List Bool :=
  List.replicate header.length false ++
    (zipped.map fun record => recordMask record.1 record.2).flatten ++ List.replicate 4 true

/-- A change of some bytes, all of them payload and within four consecutive ones. -/
structure Corrupted (mask : List Bool) (stream stream' : Bytes) : Prop where
  length : stream'.length = stream.length
  changed : stream' ≠ stream
  window : ∃ start, ∀ p : Nat, stream'[p]? ≠ stream[p]? →
    start ≤ p ∧ p < start + 4 ∧ mask[p]? = some true

/-- Only bytes under the mask differ. -/
structure Agrees (mask : List Bool) (stream stream' : Bytes) : Prop where
  length : stream'.length = stream.length
  same : ∀ p : Nat, stream'[p]? ≠ stream[p]? → mask[p]? = some true

section Mask

variable {mask mask₁ mask₂ : List Bool} {first second stream stream' : Bytes}

theorem Agrees.split (h : Agrees (mask₁ ++ mask₂) (first ++ second) stream')
    (hmask : mask₁.length = first.length) :
    ∃ first' second', stream' = first' ++ second' ∧ Agrees mask₁ first first' ∧
      Agrees mask₂ second second' := by
  have hlen := h.length
  rw [List.length_append] at hlen
  have hfirst : (stream'.take first.length).length = first.length := by
    rw [List.length_take]
    omega
  refine ⟨stream'.take first.length, stream'.drop first.length,
    (List.take_append_drop ..).symm, ⟨hfirst, ?_⟩, ⟨?_, ?_⟩⟩
  · intro p hdiffer
    have hp : p < first.length := by
      by_contra hout
      apply hdiffer
      rw [List.getElem?_eq_none (by omega), List.getElem?_eq_none (by omega)]
    rw [List.getElem?_take_of_lt hp] at hdiffer
    have hsame := h.same p (by rwa [List.getElem?_append_left hp])
    rwa [List.getElem?_append_left (hmask ▸ hp)] at hsame
  · rw [List.length_drop]
    omega
  · intro p hdiffer
    rw [List.getElem?_drop] at hdiffer
    have hsame := h.same (first.length + p) (by
      rwa [List.getElem?_append_right (by omega), Nat.add_sub_cancel_left])
    rwa [List.getElem?_append_right (by omega), hmask, Nat.add_sub_cancel_left] at hsame

theorem Agrees.eq_of_fixed (h : Agrees (List.replicate first.length false) first stream') :
    stream' = first := by
  apply List.ext_getElem?
  intro p
  by_contra hdiffer
  have hmask := h.same p hdiffer
  rw [List.getElem?_replicate] at hmask
  split at hmask <;> simp at hmask

/-- A record whose length fields are untouched still is a record. -/
theorem Agrees.record {key zipped rest : Bytes}
    (h : Agrees (recordMask key zipped ++ mask) (encodeRecord key zipped ++ rest) stream') :
    ∃ key' zipped' rest', stream' = encodeRecord key' zipped' ++ rest' ∧
      key'.length = key.length ∧ zipped'.length = zipped.length ∧ Agrees mask rest rest' := by
  have hmask : (recordMask key zipped).length = (encodeRecord key zipped).length := by
    simp only [recordMask, encodeRecord, List.length_append, List.length_replicate, length_leBytes]
  obtain ⟨record', rest', rfl, hrecord, hrest⟩ := h.split hmask
  rw [recordMask, encodeRecord] at hrecord
  obtain ⟨front', zipped', rfl, hfront, hzipped⟩ := hrecord.split
    (by simp only [List.length_append, List.length_replicate, length_leBytes])
  obtain ⟨keyPart', zippedLen', rfl, hkeyPart, hzippedLen⟩ := hfront.split
    (by simp only [List.length_append, List.length_replicate, length_leBytes])
  obtain ⟨keyLen', key', rfl, hkeyLen, hkey⟩ := hkeyPart.split
    (by simp only [List.length_replicate, length_leBytes])
  have hfixed : List.replicate 8 false =
      List.replicate (leBytes 8 key.length).length false := by rw [length_leBytes]
  have hfixed' : List.replicate 8 false =
      List.replicate (leBytes 8 zipped.length).length false := by rw [length_leBytes]
  rw [hfixed] at hkeyLen
  rw [hfixed'] at hzippedLen
  refine ⟨key', zipped', rest', ?_, hkey.length, hzipped.length, hrest⟩
  rw [encodeRecord, hkeyLen.eq_of_fixed, hzippedLen.eq_of_fixed, hkey.length, hzipped.length]

/-- Records of the same lengths. -/
def SameShape (zipped zipped' : List (Bytes × Bytes)) : Prop :=
  List.Forall₂ (fun record record' => record'.1.length = record.1.length ∧
    record'.2.length = record.2.length) zipped zipped'

theorem Agrees.records {zipped : List (Bytes × Bytes)} {rest : Bytes}
    (h : Agrees ((zipped.map fun record => recordMask record.1 record.2).flatten ++ mask)
      (encodeRecords zipped ++ rest) stream') :
    ∃ zipped' rest', stream' = encodeRecords zipped' ++ rest' ∧ SameShape zipped zipped' ∧
      Agrees mask rest rest' := by
  induction zipped generalizing stream' with
  | nil => exact ⟨[], stream', rfl, .nil, h⟩
  | cons record zipped ih =>
    obtain ⟨key, z⟩ := record
    rw [List.map_cons, List.flatten_cons, List.append_assoc, encodeRecords_cons,
      List.append_assoc] at h
    obtain ⟨key', z', rest', rfl, hkey, hz, hrest⟩ := h.record
    obtain ⟨zipped', tail, rfl, hshape, htail⟩ := ih hrest
    refine ⟨(key', z') :: zipped', tail, ?_, .cons ⟨hkey, hz⟩ hshape, htail⟩
    rw [encodeRecords_cons, List.append_assoc]

end Mask

/-! ### Reading a corrupted snapshot -/

section Reading

variable {gz : Gzip}

theorem readRecord_long_key (gz : Gzip) {key : Bytes} (hlong : 2 ^ 30 < key.length)
    (hkey : key.length ≤ maxAlloc) (hasher : BitVec 32) (rest : Bytes) :
    readRecord gz hasher (leBytes 8 key.length ++ rest) =
      .bad (.invalidKeyLength key.length) := by
  have hlen : leNat (leBytes 8 key.length) = key.length :=
    leNat_leBytes_of_lt (lt_of_le_of_lt hkey maxAlloc_lt_word)
  rw [readRecord, readTurn, readFull_append_of_length (length_leBytes ..)]
  simp only [hlen, if_pos hlong, Made.result_pure]

theorem readRecord_undecodable {key zipped : Bytes} (hkey : key.length ≤ 2 ^ 30)
    (hzipped : zipped.length ≤ maxAlloc) (hdecode : gz.decode zipped = none)
    (hasher : BitVec 32) (rest : Bytes) :
    readRecord gz hasher (encodeRecord key zipped ++ rest) = .bad .decompress := by
  have hstream : encodeRecord key zipped ++ rest =
      leBytes 8 key.length ++ key ++ (leBytes 8 zipped.length ++ (zipped ++ rest)) := by
    simp [encodeRecord]
  rw [hstream, readRecord, readTurn_value hkey (lt_of_le_of_lt hzipped maxAlloc_lt_word),
    readValueData, if_neg (Nat.not_lt.mpr hzipped), readFull_append]
  simp only [Made.result_make, Made.result_pure, hdecode]

theorem readRecord_mismatch {sum : Bytes} (hsum : sum.length = 4) {hasher : BitVec 32}
    (hne : leNat sum ≠ hasher.toNat) :
    readRecord gz hasher sum = .bad (.checksumMismatch (leNat sum) hasher.toNat) := by
  have hsome : sum ≠ [] := by
    rintro rfl
    cases hsum
  rw [readRecord, readTurn, readFull_short hsome (by rw [hsum]; decide)]
  simp only [hsum, if_true, if_pos hne, Made.result_pure]

/-- Records one of which has too long a key, or in front of a wrong checksum: the reader
    stops there or before, and in either case with an error. -/
theorem readRecords_refused {zipped : List (Bytes × Bytes)} {sum : Bytes}
    (hkeys : ∀ record ∈ zipped, record.1.length ≤ maxAlloc)
    (hzipped : ∀ record ∈ zipped, record.2.length ≤ maxAlloc) (hsum : sum.length = 4)
    {hasher : BitVec 32}
    (hwrong : (∃ record ∈ zipped, 2 ^ 30 < record.1.length) ∨
      leNat sum ≠ (crc32Update hasher (encodeRecords zipped)).toNat)
    {fuel : Nat} (hfuel : (encodeRecords zipped).length < fuel) :
    ∃ records e, readRecords gz fuel hasher (encodeRecords zipped ++ sum) = (records, .bad e) := by
  induction zipped generalizing hasher fuel with
  | nil =>
    obtain ⟨fuel, rfl⟩ := Nat.exists_eq_succ_of_ne_zero (Nat.ne_of_gt hfuel)
    rcases hwrong with ⟨record, hrecord, -⟩ | hne
    · cases hrecord
    · rw [encodeRecords_nil, crc32Update_nil] at hne
      refine ⟨[], .checksumMismatch (leNat sum) hasher.toNat, ?_⟩
      rw [encodeRecords_nil, List.nil_append, readRecords_succ, readRecord_mismatch hsum hne]
  | cons record zipped ih =>
    obtain ⟨key, z⟩ := record
    obtain ⟨fuel, rfl⟩ := Nat.exists_eq_succ_of_ne_zero (Nat.ne_zero_of_lt hfuel)
    have hkey : key.length ≤ maxAlloc := hkeys _ List.mem_cons_self
    have hz : z.length ≤ maxAlloc := hzipped _ List.mem_cons_self
    have hshort : (encodeRecords zipped).length < fuel := by
      rw [encodeRecords_cons, List.length_append, length_encodeRecord] at hfuel
      omega
    rw [encodeRecords_cons, List.append_assoc, readRecords_succ]
    by_cases hlong : 2 ^ 30 < key.length
    · refine ⟨[], .invalidKeyLength key.length, ?_⟩
      have hread := readRecord_long_key gz hlong hkey hasher
        (key ++ leBytes 8 z.length ++ z ++ (encodeRecords zipped ++ sum))
      simp only [encodeRecord, List.append_assoc] at hread ⊢
      rw [hread]
    · cases hdecode : gz.decode z with
      | none =>
        refine ⟨[], .decompress, ?_⟩
        rw [readRecord_undecodable (Nat.not_lt.mp hlong) hz hdecode]
      | some value =>
        rw [readRecord_encodeRecord ⟨Nat.not_lt.mp hlong, hz, hdecode⟩]
        have hwrong' : (∃ record ∈ zipped, 2 ^ 30 < record.1.length) ∨ leNat sum ≠
            (crc32Update (crc32Update hasher (encodeRecord key z)) (encodeRecords zipped)).toNat := by
          rcases hwrong with ⟨record, hrecord, hlong'⟩ | hne
          · rcases List.mem_cons.mp hrecord with rfl | hrest
            · exact absurd hlong' hlong
            · exact .inl ⟨record, hrest, hlong'⟩
          · rw [encodeRecords_cons, ← crc32Update_append] at hne
            exact .inr hne
        obtain ⟨records, e, hrest⟩ := ih (fun r hr => hkeys r (List.mem_cons_of_mem _ hr))
          (fun r hr => hzipped r (List.mem_cons_of_mem _ hr)) hwrong' hshort
        exact ⟨(key, value) :: records, e, by simp only [hrest]⟩

/-- A stream on which the record loop ends with an error is refused, whatever else
    fails. -/
theorem recoverSnapShot_refuses {env : Env Site} {s : Store} {stamp : Stamp} {name : Name}
    {live : KV} {fs : FS KV} {stream rest : Bytes} {header : SnapshotHeader} {e : Err}
    (hcrash : env.NoCrash) (hserving : Serving env.cwd s fs name live)
    (hfresh : fs[targetOf env s stamp]? = none)
    (hheader : readSnapshotHeader stream = .ok (header, rest))
    (hbad : (parseRecords gz rest).2 = .bad e) :
    ∃ e' fs', recoverSnapShot gz s stamp stream env fs = (.value (.error e', s), fs') ∧
      Serving env.cwd s fs' name live := by
  have hnone : ¬ ∃ header records, Accepts gz stream header records := by
    rintro ⟨header', records, rest', reason, hheader', hparse⟩
    rw [hheader] at hheader'
    obtain ⟨-, rfl⟩ := Prod.mk.inj (Except.ok.inj hheader')
    rw [hparse] at hbad
    cases hbad
  have hover : ¬ Overflows gz stream := by
    rintro ⟨header', rest', hheader', hpanic⟩
    rw [hheader] at hheader'
    obtain ⟨-, rfl⟩ := Prod.mk.inj (Except.ok.inj hheader')
    rw [hpanic] at hbad
    cases hbad
  rcases (recoverSnapShot_fills gz stream hserving.toPointsTo hfresh).cases with
    ⟨⟨result, s'⟩, fs', hrun, hfilled⟩ | ⟨fs', -, hdied⟩
  · rcases hfilled with ⟨-, ⟨e', he⟩, hs, hcur⟩ | ⟨header', records, hpublishes, -⟩
    · simp only at he hs
      subst he hs
      exact ⟨e', fs', hrun, hcur, hserving.handle⟩
    · exact absurd ⟨header', records, hpublishes.1⟩ hnone
  · rcases hdied with ⟨-, hpanic⟩ | ⟨hcrashed, -⟩
    · rcases hpanic hcrash with hpanics | ⟨haccepts, -⟩
      · exact absurd hpanics hover
      · exact absurd haccepts hnone
    · exact absurd hcrash hcrashed

end Reading

/-! ### Every snapshot -/

section Detection

variable {gz : Gzip} {nodeId : Bytes} {lastIndex : UInt64} {timestamp : Int64} {content : KV}
  {zipped zipped' : List (Bytes × Bytes)}

theorem SameShape.lengths (h : SameShape zipped zipped') {P : Nat → Nat → Prop}
    (hall : ∀ record ∈ zipped, P record.1.length record.2.length) :
    ∀ record ∈ zipped', P record.1.length record.2.length := by
  induction h with
  | nil => simp
  | cons hhead _ ih =>
    intro record hrecord
    rcases List.mem_cons.mp hrecord with rfl | hrest
    · rw [hhead.1, hhead.2]
      exact hall _ List.mem_cons_self
    · exact ih (fun r hr => hall r (List.mem_cons_of_mem _ hr)) record hrest

theorem SameShape.length_encodeRecords (h : SameShape zipped zipped') :
    (encodeRecords zipped').length = (encodeRecords zipped).length := by
  induction h with
  | nil => rfl
  | @cons record record' _ _ hhead _ ih =>
    obtain ⟨key, z⟩ := record
    obtain ⟨key', z'⟩ := record'
    rw [encodeRecords_cons, encodeRecords_cons, List.length_append, List.length_append,
      length_encodeRecord, length_encodeRecord, ih, hhead.1, hhead.2]

/-- What the writer put into the stream is no longer than an allocation can be. -/
theorem Compressed.lengths (hgz : gz.Lawful)
    (hkeys : ∀ key ∈ content, key.length ≤ maxAlloc)
    (h : Compressed gz content.toList zipped) :
    ∀ record ∈ zipped, record.1.length ≤ maxAlloc ∧ record.2.length ≤ maxAlloc := by
  have hlist := forall_key_iff.mp hkeys
  generalize content.toList = records at h hlist
  induction h with
  | nil => simp
  | @cons record z _ _ hhead _ ih =>
    intro other hother
    rcases List.mem_cons.mp hother with rfl | hrest
    · exact ⟨hhead.1 ▸ hlist record List.mem_cons_self, hgz.length_le hhead.2⟩
    · exact ih (fun r hr => hlist r (List.mem_cons_of_mem _ hr)) other hrest

/-- The form of a corrupted snapshot: the same header, records of the same lengths, and a
    checksum that is wrong for them. -/
theorem Corrupted.form {stream' : Bytes} (h : Corrupted
    (payloadMask (encodeHeader nodeId lastIndex timestamp) zipped)
    (encodeHeader nodeId lastIndex timestamp ++ encodeRecords zipped ++
      leBytes 4 (crc32 (encodeRecords zipped)).toNat) stream') :
    ∃ zipped' sum', stream' = encodeHeader nodeId lastIndex timestamp ++
        (encodeRecords zipped' ++ sum') ∧ SameShape zipped zipped' ∧ sum'.length = 4 ∧
      leNat sum' ≠ (crc32 (encodeRecords zipped')).toNat := by
  generalize encodeHeader nodeId lastIndex timestamp = header at h ⊢
  obtain ⟨start, hwindow⟩ := h.window
  have hagrees : Agrees (payloadMask header zipped) (header ++ encodeRecords zipped ++
      leBytes 4 (crc32 (encodeRecords zipped)).toNat) stream' :=
    ⟨h.length, fun p hdiffer => (hwindow p hdiffer).2.2⟩
  rw [payloadMask, List.append_assoc, List.append_assoc] at hagrees
  obtain ⟨header', tail, rfl, hheader, htail⟩ := hagrees.split (List.length_replicate ..)
  obtain rfl := hheader.eq_of_fixed
  obtain ⟨zipped', sum', rfl, hshape, hsum⟩ := htail.records
  have hsumLen : sum'.length = 4 := by rw [hsum.length, length_leBytes]
  refine ⟨zipped', sum', rfl, hshape, hsumLen, ?_⟩
  -- the same window, counted from the end of the header
  refine crc32_window_detected hsumLen hshape.length_encodeRecords ?_ (start - header'.length) ?_
  · intro hsame
    apply h.changed
    rw [hsame, List.append_assoc]
  · intro p hdiffer
    have hshift : ∀ tail : Bytes, (header' ++ tail)[header'.length + p]? = tail[p]? := by
      intro tail
      rw [List.getElem?_append_right (Nat.le_add_right ..), Nat.add_sub_cancel_left]
    have hin := hwindow (header'.length + p) (by rwa [List.append_assoc, hshift, hshift])
    omega

/-- For every snapshot that was written under a node ID of at most 65535 bytes, and every
    change of payload within four consecutive bytes of it: the restore returns an error
    and the live database is as it was, whatever fails besides.  Keys are taken to be no
    longer than a slice can be. -/
theorem corruption_detected (hgz : gz.Lawful) {faults : SaveFaults} {result : SnapshotResult}
    {sink : Sink} (hnode : nodeId.length ≤ 65535)
    (hkeys : ∀ key ∈ content, key.length ≤ maxAlloc)
    (hsave : saveSnapShot gz faults nodeId lastIndex timestamp content .fresh = (.ok result, sink))
    (hzipped : Compressed gz content.toList zipped) {stream' : Bytes}
    (hcorrupted : Corrupted (payloadMask (encodeHeader nodeId lastIndex timestamp) zipped)
      sink.data stream')
    {env : Env Site} {s : Store} {stamp : Stamp} {name : Name} {live : KV} {fs : FS KV}
    (hcrash : env.NoCrash) (hserving : Serving env.cwd s fs name live)
    (hfresh : fs[targetOf env s stamp]? = none) :
    ∃ e fs', recoverSnapShot gz s stamp stream' env fs = (.value (.error e, s), fs') ∧
      Serving env.cwd s fs' name live := by
  obtain ⟨zipped₁, hzipped₁, hdata⟩ := saveSnapShot_ok hsave
  obtain rfl : zipped₁ = zipped := Compressed.unique hzipped₁ hzipped
  rw [hdata] at hcorrupted
  obtain ⟨zipped', sum', rfl, hshape, hsum, hwrong⟩ := hcorrupted.form
  have hlengths := hshape.lengths (P := fun n m => n ≤ maxAlloc ∧ m ≤ maxAlloc)
    (Compressed.lengths hgz hkeys hzipped)
  have hheader := readSnapshotHeader_append
    (readSnapshotHeader_encodeHeader hnode lastIndex timestamp) (encodeRecords zipped' ++ sum')
  have hbad : ∃ records e, parseRecords gz (encodeRecords zipped' ++ sum') = (records, .bad e) :=
    readRecords_refused (fun r hr => (hlengths r hr).1) (fun r hr => (hlengths r hr).2) hsum
      (.inr hwrong) (by rw [List.length_append]; omega)
  obtain ⟨records, e, hparse⟩ := hbad
  exact recoverSnapShot_refuses hcrash hserving hfresh hheader (congrArg Prod.snd hparse)

end Detection

/-- The records of the sample snapshot. -/
def twoKeysZipped : List (Bytes × Bytes) := [([1, 97], zippedEmpty), ([1, 98], zippedXY)]

theorem twoKeys_compressed : Compressed sampleGzip twoKeys.toList twoKeysZipped := by
  have hlist : twoKeys.toList = [([1, 97], []), ([1, 98], [120, 121])] := by decide +kernel
  rw [hlist]
  exact .cons ⟨rfl, by decide +kernel⟩ (.cons ⟨rfl, by decide +kernel⟩ .nil)

/-- The checksum of the records, one record after the other. -/
theorem crc32_twoKeysZipped : crc32 (encodeRecords twoKeysZipped) = 0x2801206b#32 := by
  have hfirst : crc32Update 0#32 (encodeRecord [1, 97] zippedEmpty) = 0x90283346#32 := by
    decide +kernel
  have hsecond : crc32Update 0x90283346#32 (encodeRecord [1, 98] zippedXY) = 0x2801206b#32 := by
    decide +kernel
  have hrecords : encodeRecords twoKeysZipped =
      encodeRecord [1, 97] zippedEmpty ++ encodeRecord [1, 98] zippedXY := by
    simp [twoKeysZipped]
  rw [hrecords, crc32, ← crc32Update_append, hfirst, hsecond]

theorem twoKeysSaved_data : twoKeysSaved.data =
    encodeHeader [110] 9 1700 ++ encodeRecords twoKeysZipped ++ leBytes 4 0x2801206b := by
  obtain ⟨result, hsave⟩ := twoKeys_saved
  obtain ⟨zipped, hzipped, hdata⟩ := saveSnapShot_ok hsave
  obtain rfl := Compressed.unique hzipped twoKeys_compressed
  rw [hdata, crc32_twoKeysZipped]
  rfl

/-- The sample snapshot with the last byte of its last value and the first byte of its
    checksum overwritten. -/
def straddled : Bytes := (twoKeysSaved.data.set 125 1).set 126 0

theorem corruption_detected_straddled :
    ∃ e fs', recoverSnapShot sampleGzip nodeStore restoreStamp straddled (.fair []) nodeDisk =
      (.value (.error e, nodeStore), fs') ∧
      Serving [] nodeStore fs' (stampName nodeStamp) ∅ := by
  have hkeys : ∀ key ∈ twoKeys, key.length ≤ maxAlloc := by
    intro key hkey
    simp only [twoKeys, Std.ExtTreeMap.mem_insert, Std.compare_eq_iff_eq,
      Std.ExtTreeMap.not_mem_empty, or_false] at hkey
    rcases hkey with rfl | rfl <;> decide
  have hlength : twoKeysSaved.data.length = 130 := by
    rw [twoKeysSaved_data]
    decide +kernel
  have hlength' : straddled.length = 130 := by
    rw [straddled, List.length_set, List.length_set, hlength]
  have hbelow : ∀ p < 130, straddled[p]? ≠ twoKeysSaved.data[p]? → 125 ≤ p ∧ p < 125 + 4 ∧
      (payloadMask (encodeHeader [110] 9 1700) twoKeysZipped)[p]? = some true := by
    rw [straddled, twoKeysSaved_data]
    decide +kernel
  have hchanged : straddled ≠ twoKeysSaved.data := by
    rw [straddled, twoKeysSaved_data]
    decide +kernel
  have hcorrupted : Corrupted (payloadMask (encodeHeader [110] 9 1700) twoKeysZipped)
      twoKeysSaved.data straddled := by
    refine ⟨by rw [hlength', hlength], hchanged, 125, ?_⟩
    intro p hdiffer
    apply hbelow p _ hdiffer
    by_contra hout
    apply hdiffer
    rw [List.getElem?_eq_none (by omega), List.getElem?_eq_none (by omega)]
  obtain ⟨result, hsave⟩ := twoKeys_saved
  exact corruption_detected sampleGzip_lawful (by decide) hkeys hsave twoKeys_compressed hcorrupted
    (Env.fair_allOk []).noCrash nodeServing (by decide +kernel)

/-! ### Node IDs that do not fit their length field -/

/-- 65536 bytes, which the header announces as none.  The reader takes the first four
    for the checksum field and the next eight for the length of a key, and the key
    extends to the end of the stream. -/
def longNodeId : Bytes := leBytes 4 0 ++ (leBytes 8 65532 ++ List.replicate 65524 0)

theorem longNodeId_length : longNodeId.length = 65536 := by
  rw [longNodeId, List.length_append, List.length_append, length_leBytes, length_leBytes,
    List.length_replicate]

/-- A header whose node ID has this length is read as one without a node ID; what stands
    behind the first four bytes of the node ID is taken for records. -/
theorem readSnapshotHeader_overlong {tail : Bytes} (hlen : (leBytes 4 0 ++ tail).length = 65536)
    (rest : Bytes) : readSnapshotHeader (encodeHeader (leBytes 4 0 ++ tail) 0 0 ++ rest) =
      .ok (⟨snapshotMagic, snapshotVersion, 0, 0, [], 0⟩, tail ++ (leBytes 4 0 ++ rest)) := by
  have hsplit : encodeHeader (leBytes 4 0 ++ tail) 0 0 ++ rest =
      (leBytes 4 snapshotMagic.toNat ++ leBytes 4 snapshotVersion.toNat ++ leBytes 8 0 ++
        leBytes 8 0 ++ leBytes 2 65536) ++ ([] ++ (leBytes 4 0 ++
          (tail ++ (leBytes 4 0 ++ rest)))) := by
    rw [encodeHeader, hlen]
    simp only [List.append_assoc, List.nil_append]
    rfl
  rw [hsplit, readSnapshotHeader, readHeader, readFull_append_of_length (by decide)]
  simp only
  rw [if_neg (by decide), if_neg (by decide), readHeaderTail,
    Made.result_make, Made.result_pure, readFull_append_of_length (by decide)]
  simp only
  rw [readFull_append_of_length (length_leBytes ..)]
  rfl

theorem saveSnapShot_empty (gz : Gzip) (nodeId : Bytes) :
    saveSnapShot gz .none nodeId 0 0 ∅ .fresh =
      (.ok ⟨.ofNat (encodeHeader nodeId 0 0).length + 4, 0, 0#32⟩,
        ⟨encodeHeader nodeId 0 0 ++ leBytes 4 0, 2, 1, 0⟩) := by
  have hempty : (∅ : KV).toList = [] := by decide +kernel
  simp [saveSnapShot, writeStream, Sink.write, SaveFaults.none, iterate, hempty, writeRecords,
    Sink.fresh]

/-- Another checksum behind a header and no records. -/
theorem corrupted_checksum (header : Bytes) :
    Corrupted (payloadMask header []) (header ++ leBytes 4 0) (header ++ [1, 0, 0, 0]) := by
  refine ⟨by rw [List.length_append, List.length_append]; rfl, ?_, header.length, ?_⟩
  · intro hsame
    exact absurd (List.append_cancel_left hsame) (by decide)
  · intro p hdiffer
    have hin : header.length ≤ p := by
      by_contra hout
      apply hdiffer
      rw [List.getElem?_append_left (by omega), List.getElem?_append_left (by omega)]
    have hend : p < header.length + 4 := by
      by_contra hout
      have hshort : ∀ sum : Bytes, sum.length = 4 → (header ++ sum)[p]? = none := by
        intro sum hsum
        exact List.getElem?_eq_none (by rw [List.length_append]; omega)
      apply hdiffer
      rw [hshort _ rfl, hshort _ (length_leBytes ..)]
    refine ⟨hin, hend, ?_⟩
    rw [payloadMask, List.map_nil, List.flatten_nil, List.append_nil,
      List.getElem?_append_right (by rwa [List.length_replicate]), List.length_replicate,
      List.getElem?_replicate, if_pos (by omega)]

/-- A stream behind an overlong node ID is accepted without a look at its checksum if the
    node ID announces a key that extends to its end. -/
theorem accepts_overlong (gz : Gzip) {padding rest : Bytes}
    (hlen : (leBytes 4 0 ++ (leBytes 8 65532 ++ padding)).length = 65536)
    (hkey : (padding ++ (leBytes 4 0 ++ rest)).length = 65532) :
    Accepts gz (encodeHeader (leBytes 4 0 ++ (leBytes 8 65532 ++ padding)) 0 0 ++ rest)
      ⟨snapshotMagic, snapshotVersion, 0, 0, [], 0⟩ [] := by
  have hheader := readSnapshotHeader_overlong hlen rest
  rw [List.append_assoc] at hheader
  generalize padding ++ (leBytes 4 0 ++ rest) = key at hkey hheader
  have hcut : CutRecord .cutAtValueLen (leBytes 8 65532 ++ key) := by
    rw [← hkey]
    exact .atValueLen (by rw [hkey]; decide)
  refine ⟨_, .cutAtValueLen, hheader, ?_⟩
  rw [parseRecords, readRecords_succ, readRecord_cut hcut]

/-- A snapshot of an empty database written under that node ID: the change of a byte of
    the checksum goes unnoticed, and the restore succeeds. -/
theorem corruption_missed_longNodeId :
    ∃ result sink stream', saveSnapShot sampleGzip .none longNodeId 0 0 ∅ .fresh =
        (.ok result, sink) ∧
      Compressed sampleGzip (∅ : KV).toList [] ∧
      Corrupted (payloadMask (encodeHeader longNodeId 0 0) []) sink.data stream' ∧
      ∃ header s' fs', recoverSnapShot sampleGzip nodeStore restoreStamp stream' (.fair [])
        nodeDisk = (.value (.ok header, s'), fs') := by
  have hempty : Compressed sampleGzip (∅ : KV).toList [] := by
    rw [show (∅ : KV).toList = [] by decide +kernel]
    exact .nil
  have hkey : (List.replicate 65524 0 ++ (leBytes 4 0 ++ [1, 0, 0, 0]) : Bytes).length =
      65532 := by
    rw [List.length_append, List.length_append, List.length_replicate, length_leBytes]
    rfl
  have hfresh : nodeDisk[targetOf (.fair []) nodeStore restoreStamp]? = none := by
    decide +kernel
  obtain ⟨s', fs', hrun, -⟩ := recoverSnapShot_of_accepts (Env.fair_allOk [])
    nodeServing.toPointsTo hfresh (accepts_overlong sampleGzip longNodeId_length hkey)
  exact ⟨_, _, _, saveSnapShot_empty sampleGzip longNodeId, hempty, corrupted_checksum _, _, s',
    fs', hrun⟩

end RaftExample
