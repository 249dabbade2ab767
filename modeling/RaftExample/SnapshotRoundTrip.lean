import RaftExample.RestoreSpec

/-!
# Which snapshots are accepted, and the round trip

A complete snapshot is a header, complete records and their checksum.  The reader
also takes a snapshot whose checksum is missing, with a warning in the log.  Two
kinds of streams get a treatment of their own: those that end with a field of a
record other than its last, and those with a value length no allocation can serve.
For all others the reader accepts exactly the two forms above, and it accepts in
particular whatever the writer wrote.
-/

namespace RaftExample

/-! ### The content of a batch -/

/-- Later records of a batch hide earlier ones and the content below. -/
theorem lookup_applyBatch (records : List (Bytes × Bytes)) (content : KV) (key : Bytes) :
    (applyBatch records content)[key]? = (records.reverse.lookup key).or content[key]? := by
  induction records generalizing content with
  | nil => rfl
  | cons record records ih =>
      obtain ⟨recordKey, value⟩ := record
      have hstep : applyBatch ((recordKey, value) :: records) content =
          applyBatch records (content.insert recordKey value) := rfl
      rw [hstep, ih, Std.ExtTreeMap.getElem?_insert, List.reverse_cons, List.lookup_append]
      rw [Option.or_assoc]
      congr 1
      by_cases heq : recordKey = key
      · simp [heq]
      · have hbeq : (key == recordKey) = false := by simpa using Ne.symm heq
        simp [List.lookup_cons, heq, hbeq]

/-- Putting everything a database holds into an empty one gives the same content. -/
theorem applyBatch_toList (content : KV) : applyBatch content.toList ∅ = content := by
  apply Std.ExtTreeMap.ext_getElem?
  intro key
  rw [lookup_applyBatch, Std.ExtTreeMap.getElem?_empty, Option.or_none]
  cases hlookup : content.toList.reverse.lookup key with
  | none =>
      rw [List.lookup_eq_none_iff] at hlookup
      symm
      rw [Option.eq_none_iff_forall_ne_some]
      intro value hvalue
      have hmem := Std.ExtTreeMap.mem_toList_iff_getElem?_eq_some.mpr hvalue
      simpa using hlookup (key, value) (List.mem_reverse.mpr hmem)
  | some value =>
      obtain ⟨front, back, hsplit, -⟩ := List.lookup_eq_some_iff.mp hlookup
      have hmem : (key, value) ∈ content.toList.reverse := by simp [hsplit]
      exact (Std.ExtTreeMap.mem_toList_iff_getElem?_eq_some.mp (List.mem_reverse.mp hmem)).symm

theorem forall_key_iff {content : KV} {P : Bytes → Prop} :
    (∀ key ∈ content, P key) ↔ ∀ record ∈ content.toList, P record.1 := by
  simp only [← Std.ExtTreeMap.mem_keys, ← Std.ExtTreeMap.map_fst_toList_eq_keys,
    List.forall_mem_map]

/-! ### Accepted streams -/

/-- Header, complete records, and the CRC-32 of the records. -/
def CompleteSnapshot (gz : Gzip) (stream : Bytes) (header : SnapshotHeader)
    (records : List (Bytes × Bytes)) : Prop :=
  ∃ front bytes, stream = front ++ bytes ++ leBytes 4 (crc32 bytes).toNat ∧
    readSnapshotHeader front = .ok (header, []) ∧ Records gz bytes records

/-- The same without a checksum. -/
def UncheckedSnapshot (gz : Gzip) (stream : Bytes) (header : SnapshotHeader)
    (records : List (Bytes × Bytes)) : Prop :=
  ∃ front bytes, stream = front ++ bytes ∧
    readSnapshotHeader front = .ok (header, []) ∧ Records gz bytes records

/-- After a header and complete records, the stream ends with a field of a record
    that is not its last. -/
def EndsInsideRecord (gz : Gzip) (stream : Bytes) : Prop :=
  ∃ front header bytes records reason rest, stream = front ++ bytes ++ rest ∧
    readSnapshotHeader front = .ok (header, []) ∧ Records gz bytes records ∧
    CutRecord reason rest

/-- After a header and complete records, a record announces a value too long to be
    allocated. -/
def HasOversizedValue (gz : Gzip) (stream : Bytes) : Prop :=
  ∃ front header bytes records rest, stream = front ++ bytes ++ rest ∧
    readSnapshotHeader front = .ok (header, []) ∧ Records gz bytes records ∧ Oversized rest

/-- The split of a stream behind a header into complete records and a last turn. -/
theorem parseRecords_split (gz : Gzip) {stream rest : Bytes} {header : SnapshotHeader}
    (h : readSnapshotHeader stream = .ok (header, rest)) :
    ∃ front bytes tail, stream = front ++ bytes ++ tail ∧
      readSnapshotHeader front = .ok (header, []) ∧
      Records gz bytes (parseRecords gz rest).1 ∧
      readRecord gz (crc32 bytes) tail = (parseRecords gz rest).2 := by
  obtain ⟨front, rfl, hother⟩ := readSnapshotHeader_split h
  obtain ⟨bytes, tail, hrest, hrecords, hlast, -⟩ :=
    readRecords_split gz 0#32 rest (Nat.lt_succ_self rest.length)
  refine ⟨front, bytes, tail, by rw [List.append_assoc, ← hrest], ?_, hrecords, hlast⟩
  simpa using hother []

/-- What is read to a `break` is one of the two forms, or was cut inside a record. -/
theorem Accepts.cases {gz : Gzip} {stream : Bytes} {header : SnapshotHeader}
    {records : List (Bytes × Bytes)} (h : Accepts gz stream header records) :
    CompleteSnapshot gz stream header records ∨ UncheckedSnapshot gz stream header records ∨
      EndsInsideRecord gz stream := by
  obtain ⟨rest, reason, hheader, hparse⟩ := h
  obtain ⟨front, bytes, tail, rfl, hfront, hrecords, hlast⟩ := parseRecords_split gz hheader
  rw [hparse] at hrecords hlast
  have hstops := readRecord_explains gz (crc32 bytes) tail
  rw [hlast] at hstops
  cases hstops with
  | noChecksum => exact .inr (.inl ⟨front, bytes, by simp, hfront, hrecords⟩)
  | verified => exact .inl ⟨front, bytes, rfl, hfront, hrecords⟩
  | cut hcut => exact .inr (.inr ⟨front, header, bytes, records, _, tail, rfl, hfront, hrecords, hcut⟩)

theorem Overflows.hasOversizedValue {gz : Gzip} {stream : Bytes} (h : Overflows gz stream) :
    HasOversizedValue gz stream := by
  obtain ⟨header, rest, hheader, hpanic⟩ := h
  obtain ⟨front, bytes, tail, rfl, hfront, hrecords, hlast⟩ := parseRecords_split gz hheader
  have hexplains := readRecord_explains gz (crc32 bytes) tail
  rw [hlast, hpanic] at hexplains
  exact ⟨front, header, bytes, _, tail, rfl, hfront, hrecords, hexplains⟩

/-- The whole of a stream of records: those of its front, and what stops the reader. -/
theorem parseRecords_append {gz : Gzip} {bytes : Bytes} {records : List (Bytes × Bytes)}
    (h : Records gz bytes records) (tail : Bytes) {last : RecordRead}
    (hlast : readRecord gz (crc32 bytes) tail = last)
    (hend : ∀ key value hasher rest, last ≠ .record key value hasher rest) :
    parseRecords gz (bytes ++ tail) = (records, last) := by
  have hfuel : bytes.length < (bytes ++ tail).length + 1 := by
    rw [List.length_append]
    omega
  exact readRecords_append h 0#32 tail hfuel hlast hend

/-- Complete records, followed by the checksum or by nothing, are read to a `break`. -/
theorem accepts_of_break {gz : Gzip} {front bytes tail : Bytes} {header : SnapshotHeader}
    {records : List (Bytes × Bytes)} {reason : StopReason}
    (hfront : readSnapshotHeader front = .ok (header, [])) (hrecords : Records gz bytes records)
    (hlast : readRecord gz (crc32 bytes) tail = .stop reason) :
    Accepts gz (front ++ bytes ++ tail) header records := by
  refine ⟨bytes ++ tail, reason, ?_, ?_⟩
  · rw [List.append_assoc]; exact readSnapshotHeader_append hfront _
  · exact parseRecords_append hrecords tail hlast (by simp)

theorem CompleteSnapshot.accepts {gz : Gzip} {stream : Bytes} {header : SnapshotHeader}
    {records : List (Bytes × Bytes)} (h : CompleteSnapshot gz stream header records) :
    Accepts gz stream header records := by
  obtain ⟨front, bytes, rfl, hfront, hrecords⟩ := h
  exact accepts_of_break hfront hrecords (readRecord_checksum gz _)

theorem UncheckedSnapshot.accepts {gz : Gzip} {stream : Bytes} {header : SnapshotHeader}
    {records : List (Bytes × Bytes)} (h : UncheckedSnapshot gz stream header records) :
    Accepts gz stream header records := by
  obtain ⟨front, bytes, rfl, hfront, hrecords⟩ := h
  have haccepts := accepts_of_break hfront hrecords (readRecord_nil gz _)
  rwa [List.append_nil] at haccepts

/-- The reader does not notice that a record was cut at a field boundary. -/
theorem EndsInsideRecord.accepts {gz : Gzip} {stream : Bytes} (h : EndsInsideRecord gz stream) :
    ∃ header rest records reason, readSnapshotHeader stream = .ok (header, rest) ∧
      parseRecords gz rest = (records, .stop reason) ∧
      reason ≠ .noChecksum ∧ reason ≠ .verified := by
  obtain ⟨front, header, bytes, records, reason, tail, rfl, hfront, hrecords, hcut⟩ := h
  refine ⟨header, bytes ++ tail, records, reason, ?_, ?_, ?_⟩
  · rw [List.append_assoc]; exact readSnapshotHeader_append hfront _
  · exact parseRecords_append hrecords tail (readRecord_cut hcut gz _) (by simp)
  · cases hcut <;> simp

theorem HasOversizedValue.overflows {gz : Gzip} {stream : Bytes}
    (h : HasOversizedValue gz stream) : Overflows gz stream := by
  obtain ⟨front, header, bytes, records, tail, rfl, hfront, hrecords, hover⟩ := h
  refine ⟨header, bytes ++ tail, ?_, ?_⟩
  · rw [List.append_assoc]; exact readSnapshotHeader_append hfront _
  · rw [parseRecords_append hrecords tail (readRecord_oversized hover gz _) (by simp)]

/-- A stream whose parse ends with a verified checksum is neither cut nor oversized. -/
theorem not_cut_of_verified {gz : Gzip} {stream rest : Bytes} {header : SnapshotHeader}
    (hheader : readSnapshotHeader stream = .ok (header, rest))
    (hparse : (parseRecords gz rest).2 = .stop .verified) :
    ¬ EndsInsideRecord gz stream ∧ ¬ HasOversizedValue gz stream := by
  constructor
  · intro hends
    obtain ⟨header', rest', records, reason, hheader', hparse', -, hverified⟩ := hends.accepts
    rw [hheader] at hheader'
    injection hheader' with hpair
    injection hpair with _ hrest
    subst hrest
    rw [hparse'] at hparse
    exact hverified (RecordRead.stop.inj hparse)
  · intro hover
    exact Accepts.not_overflows ⟨rest, .verified, hheader, Prod.ext rfl hparse⟩ hover.overflows

section Reading

variable {gz : Gzip} {env : Env Site} {s : Store} {stamp : Stamp} {name : Name} {live : KV}
  {stream : Bytes} {fs : FS KV}

/-- When no disk operation fails, an accepted stream is installed. -/
theorem recoverSnapShot_of_accepts {header : SnapshotHeader} {records : List (Bytes × Bytes)}
    (henv : env.AllOk) (hcur : Current env.cwd s.baseDir fs name live)
    (hfresh : fs[targetOf env s stamp]? = none) (h : Accepts gz stream header records) :
    ∃ s' fs', recoverSnapShot gz s stamp stream env fs = (.value (.ok header, s'), fs') ∧
      s'.closed = s.closed ∧ Serving env.cwd s' fs' (stampName stamp) (applyBatch records ∅) := by
  have hends := recoverSnapShot_ends gz henv.noFail.dbWritesOk stream hcur hfresh
  rcases hends.cases with ⟨⟨r, s'⟩, fs', hrun, hend⟩ | ⟨fs', -, hend⟩
  · rcases hend with ⟨hrefused, -⟩ | ⟨header', records', ⟨haccepts, -⟩, hend⟩
    · exact absurd ⟨header, records, h, fun site _ => henv site⟩ hrefused.not_publishes
    · obtain ⟨rfl, rfl⟩ := h.unique haccepts
      rcases hend with ⟨-, -, hfail, -⟩ | ⟨hstore, -, hcur', ⟨hok, -⟩ | ⟨-, site, -, hfate⟩⟩
      · simp [henv .syncReplaced] at hfail
      · simp only at hstore hok
        subst hstore hok
        exact ⟨_, fs', hrun, rfl, hcur', rfl⟩
      · exact absurd (henv site) hfate
  · rcases hend with ⟨-, hdied⟩ | ⟨hcrash, -⟩
    · rcases hdied henv.noCrash with hover | ⟨-, site, -, hfate⟩
      · exact absurd hover h.not_overflows
      · exact absurd (henv site) hfate
    · exact absurd henv.noCrash hcrash

/-- The reader accepts exactly the snapshots that are complete up to, possibly, their
    checksum.  An accepted snapshot leaves the store on a database with its records
    and nothing else, every other stream is refused with the store as it was. -/
theorem recoverSnapShot_accepts_exactly (henv : env.NoCrash) (hdb : env.DbWritesOk)
    (hserving : Serving env.cwd s fs name live) (hfresh : fs[targetOf env s stamp]? = none)
    (hcut : ¬ EndsInsideRecord gz stream) (hsize : ¬ HasOversizedValue gz stream) :
    (∀ header s' fs', recoverSnapShot gz s stamp stream env fs = (.value (.ok header, s'), fs') →
      ∃ records content,
        (CompleteSnapshot gz stream header records ∨ UncheckedSnapshot gz stream header records) ∧
        Serving env.cwd s' fs' (stampName stamp) content ∧
        ∀ key, content[key]? = records.reverse.lookup key) ∧
    ((¬ ∃ header records, CompleteSnapshot gz stream header records ∨
        UncheckedSnapshot gz stream header records) →
      ∃ e fs', recoverSnapShot gz s stamp stream env fs = (.value (.error e, s), fs') ∧
        Serving env.cwd s fs' name live) ∧
    (env.AllOk → ∀ header records, CompleteSnapshot gz stream header records ∨
        UncheckedSnapshot gz stream header records →
      ∃ s' fs', recoverSnapShot gz s stamp stream env fs = (.value (.ok header, s'), fs')) := by
  have hends := recoverSnapShot_ends gz hdb stream hserving.toPointsTo hfresh
  have hforms : ∀ {header records}, Accepts gz stream header records →
      CompleteSnapshot gz stream header records ∨ UncheckedSnapshot gz stream header records :=
    fun h => h.cases.imp_right (Or.resolve_right · hcut)
  refine ⟨?_, ?_, ?_⟩
  · intro header s' fs' hrun
    rcases hends.value hrun with ⟨-, ⟨e, he⟩, -⟩ | ⟨header', records, ⟨haccepts, -⟩, hend⟩
    · simp at he
    rcases hend with ⟨⟨e, he⟩, -⟩ | ⟨hstore, -, hcur', ⟨hok, -⟩ | ⟨⟨e, he⟩, -⟩⟩
    · simp at he
    · simp only [Except.ok.injEq] at hstore hok
      subst hstore hok
      refine ⟨records, applyBatch records ∅, hforms haccepts, ⟨hcur', rfl⟩, fun key => ?_⟩
      simp [lookup_applyBatch]
    · simp at he
  · intro hnone
    have hrefused : ∀ {header records}, ¬ Accepts gz stream header records :=
      fun h => hnone ⟨_, _, hforms h⟩
    rcases hends.cases with ⟨⟨r, s'⟩, fs', hrun, hend⟩ | ⟨fs', -, hend⟩
    · rcases hend with ⟨-, ⟨e, he⟩, hs, hcur'⟩ | ⟨header, records, ⟨haccepts, -⟩, -⟩
      · simp only at he hs
        subst he hs
        exact ⟨e, fs', hrun, hcur', hserving.handle⟩
      · exact absurd haccepts hrefused
    · rcases hend with ⟨-, hdied⟩ | ⟨hcrash, -⟩
      · rcases hdied henv with hover | ⟨⟨header, records, haccepts⟩, -⟩
        · exact absurd hover.hasOversizedValue hsize
        · exact absurd haccepts hrefused
      · exact absurd henv hcrash
  · intro hall header records hform
    have haccepts : Accepts gz stream header records :=
      hform.elim CompleteSnapshot.accepts UncheckedSnapshot.accepts
    obtain ⟨s', fs', hrun, -⟩ :=
      recoverSnapShot_of_accepts hall hserving.toPointsTo hfresh haccepts
    exact ⟨s', fs', hrun⟩

/-! ### A node to run the reader on

A first start on an empty disk, and what `gzipEncode` makes of a few short values. -/

def nodeDisk : FS KV := (newStore nodeDir nodeStamp (.fair []) ∅).2

def nodeStore : Store := ⟨nodeDir, [⟨nodeDir, by decide⟩, stampName nodeStamp], false⟩

/-- The stream `gzipEncode` writes: `block` is the content in fixed Huffman codes, with the
    first bits of the empty block that the flush adds; `Close` adds another empty block. -/
def gzipMember (content block : Bytes) : Bytes :=
  [31, 139, 8, 0, 0, 0, 0, 0, 0, 255] ++ block ++ [0, 0, 255, 255] ++ [1, 0, 0, 255, 255] ++
    leBytes 4 (crc32 content).toNat ++ leBytes 4 content.length

def zippedEmpty : Bytes := gzipMember [] [0]

/-- `v` -/
def zippedV : Bytes := gzipMember [118] [42, 3, 0]

/-- `xy` -/
def zippedXY : Bytes := gzipMember [120, 121] [170, 168, 4, 0]

def gzipSamples : List (Bytes × Bytes) :=
  [([], zippedEmpty), ([118], zippedV), ([120, 121], zippedXY)]

/-- `compress/gzip` on the samples; everything else is an error. -/
def sampleGzip : Gzip where
  encode content := gzipSamples.lookup content
  decode zipped := (gzipSamples.find? fun sample => sample.2 = zipped).map Prod.fst

theorem sampleGzip_lawful : sampleGzip.Lawful := by
  have hall : ∀ sample ∈ gzipSamples,
      sampleGzip.decode sample.2 = some sample.1 ∧ sample.2.length ≤ maxAlloc := by decide +kernel
  have hmem : ∀ {content zipped}, sampleGzip.encode content = some zipped →
      (content, zipped) ∈ gzipSamples := by
    intro content zipped h
    obtain ⟨before, after, hsplit, -⟩ := List.lookup_eq_some_iff.mp h
    rw [hsplit]
    simp
  constructor
  · intro content zipped h
    exact (hall _ (hmem h)).1
  · intro content zipped h
    exact (hall _ (hmem h)).2

theorem nodeServing : Serving [] nodeStore nodeDisk (stampName nodeStamp) ∅ := by decide +kernel

/-- One record, the key `k` of the default column family, and its checksum. -/
def oneRecord : Bytes :=
  encodeHeader [110] 7 1700 ++ encodeRecord [1, 107] zippedV ++
    leBytes 4 (crc32 (encodeRecord [1, 107] zippedV)).toNat

theorem oneRecord_parse :
    readSnapshotHeader oneRecord = .ok (⟨snapshotMagic, 1, 7, 1700, [110], 0⟩,
      encodeRecord [1, 107] zippedV ++ leBytes 4 (crc32 (encodeRecord [1, 107] zippedV)).toNat) ∧
    (parseRecords sampleGzip (encodeRecord [1, 107] zippedV ++
      leBytes 4 (crc32 (encodeRecord [1, 107] zippedV)).toNat)).2 = .stop .verified := by
  decide +kernel

theorem recoverSnapShot_accepts_oneRecord :
    ∃ s' fs', recoverSnapShot sampleGzip nodeStore restoreStamp oneRecord (.fair []) nodeDisk =
      (.value (.ok ⟨snapshotMagic, 1, 7, 1700, [110], 0⟩, s'), fs') :=
  have hcut := not_cut_of_verified oneRecord_parse.1 oneRecord_parse.2
  (recoverSnapShot_accepts_exactly (Env.fair_allOk []).noCrash
    (Env.fair_allOk []).noFail.dbWritesOk nodeServing (by decide +kernel) hcut.1 hcut.2).2.2
    (Env.fair_allOk []) _ [([1, 107], [118])] (.inl ⟨encodeHeader [110] 7 1700,
      encodeRecord [1, 107] zippedV ++ [], by decide +kernel, by decide +kernel,
      .cons ⟨by decide, by decide +kernel, by decide +kernel⟩ .nil⟩)

/-- A header alone, without records and without a checksum, is installed as an empty
    database. -/
theorem recoverSnapShot_accepts_header_only :
    (recoverSnapShot sampleGzip nodeStore restoreStamp (encodeHeader [] 5 1700) (.fair [])
      nodeDisk).1 = .value (.ok ⟨snapshotMagic, 1, 5, 1700, [], 0⟩,
        { nodeStore with db := [⟨nodeDir, by decide⟩, stampName restoreStamp] }) ∧
    ¬ ∃ header records, CompleteSnapshot sampleGzip (encodeHeader [] 5 1700) header records := by
  refine ⟨by decide +kernel, ?_⟩
  rintro ⟨header, records, front, bytes, hstream, hfront, -⟩
  have hheader := readSnapshotHeader_append hfront (bytes ++ leBytes 4 (crc32 bytes).toNat)
  rw [← List.append_assoc, ← hstream,
    readSnapshotHeader_encodeHeader (by decide) 5 1700] at hheader
  have hlen := congrArg (fun result => result.toOption.map fun pair => pair.2.length) hheader
  simp [Except.toOption] at hlen

/-! ### The round trip -/

/-- What the writer compressed is a sequence of complete records. -/
theorem Compressed.records (hgz : gz.Lawful) {records zipped : List (Bytes × Bytes)}
    (h : Compressed gz records zipped) (hkeys : ∀ record ∈ records, record.1.length ≤ 2 ^ 30) :
    Records gz (encodeRecords zipped) records := by
  induction h with
  | nil => exact .nil
  | @cons record z records zipped hrecord _ ih =>
      obtain ⟨key, value⟩ := record
      obtain ⟨key', zip⟩ := z
      obtain ⟨rfl, hencode⟩ := hrecord
      rw [encodeRecords_cons]
      exact .cons ⟨hkeys (key, value) (by simp), hgz.length_le hencode, hgz.decode_encode hencode⟩
        (ih fun record hrecord => hkeys record (by simp [hrecord]))

/-- A successful writer leaves a complete snapshot of the content in the sink. -/
theorem saveSnapShot_complete {faults : SaveFaults} {nodeId : Bytes} {lastIndex : UInt64}
    {timestamp : Int64} {content : KV} {result : SnapshotResult} {sink : Sink}
    (hgz : gz.Lawful) (hkeys : ∀ key ∈ content, key.length ≤ 2 ^ 30)
    (hnode : nodeId.length ≤ 65535)
    (hsave : saveSnapShot gz faults nodeId lastIndex timestamp content .fresh =
      (.ok result, sink)) :
    CompleteSnapshot gz sink.data
      ⟨snapshotMagic, snapshotVersion, lastIndex, timestamp, nodeId, 0⟩ content.toList := by
  obtain ⟨zipped, hzipped, hdata⟩ := saveSnapShot_ok hsave
  exact ⟨_, _, hdata, readSnapshotHeader_encodeHeader hnode lastIndex timestamp,
    hzipped.records hgz (forall_key_iff.mp hkeys)⟩

/-- Whatever the writer wrote is read back: the header's index and node, and a
    database with the saved content in place of the previous one. -/
theorem recoverSnapShot_saveSnapShot {faults : SaveFaults} {nodeId : Bytes} {lastIndex : UInt64}
    {timestamp : Int64} {content : KV} {result : SnapshotResult} {sink : Sink}
    (hgz : gz.Lawful) (hkeys : ∀ key ∈ content, key.length ≤ 2 ^ 30)
    (hnode : nodeId.length ≤ 65535)
    (hsave : saveSnapShot gz faults nodeId lastIndex timestamp content .fresh = (.ok result, sink))
    (henv : env.AllOk) (hserving : Serving env.cwd s fs name live)
    (hfresh : fs[targetOf env s stamp]? = none) :
    ∃ header s' fs',
      recoverSnapShot gz s stamp sink.data env fs = (.value (.ok header, s'), fs') ∧
      header.lastIndex = lastIndex ∧ header.nodeId = nodeId ∧
      Serving env.cwd s' fs' (stampName stamp) content := by
  have hcomplete := saveSnapShot_complete hgz hkeys hnode hsave
  obtain ⟨s', fs', hrun, -, hserving'⟩ :=
    recoverSnapShot_of_accepts henv hserving.toPointsTo hfresh hcomplete.accepts
  rw [applyBatch_toList] at hserving'
  exact ⟨_, s', fs', hrun, rfl, rfl, hserving'⟩

/-- A database with an empty value and one without. -/
def twoKeys : KV := (∅ : KV).insert [1, 97] [] |>.insert [1, 98] [120, 121]

def twoKeysSaved : Sink :=
  (saveSnapShot sampleGzip .none [110] 9 1700 twoKeys .fresh).2

theorem twoKeys_saved : ∃ result,
    saveSnapShot sampleGzip .none [110] 9 1700 twoKeys .fresh = (.ok result, twoKeysSaved) := by
  have hok : (saveSnapShot sampleGzip .none [110] 9 1700 twoKeys .fresh).1.isOk = true := by
    decide +kernel
  cases hresult : (saveSnapShot sampleGzip .none [110] 9 1700 twoKeys .fresh).1 with
  | error e =>
    rw [hresult] at hok
    cases hok
  | ok result => exact ⟨result, Prod.ext hresult rfl⟩

theorem recoverSnapShot_saveSnapShot_twoKeys :
    ∃ header s' fs', recoverSnapShot sampleGzip nodeStore restoreStamp twoKeysSaved.data
        (.fair []) nodeDisk = (.value (.ok header, s'), fs') ∧
      header.lastIndex = 9 ∧ header.nodeId = [110] ∧
      Serving [] s' fs' (stampName restoreStamp) twoKeys := by
  have hkeys : ∀ key ∈ twoKeys, key.length ≤ 2 ^ 30 := by
    intro key hkey
    simp only [twoKeys, Std.ExtTreeMap.mem_insert, Std.compare_eq_iff_eq,
      Std.ExtTreeMap.not_mem_empty, or_false] at hkey
    rcases hkey with rfl | rfl <;> decide
  obtain ⟨result, hsave⟩ := twoKeys_saved
  exact recoverSnapShot_saveSnapShot sampleGzip_lawful hkeys (by decide) hsave
    (Env.fair_allOk []) nodeServing (by decide +kernel)

end Reading

end RaftExample
