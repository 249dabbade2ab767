import RaftExample.StoreBase
import RaftExample.Digest

/-!
# The snapshot stream

A snapshot is a header, the records of the database in key order, and the CRC-32
of the records.  This module holds the header codec and the writer,
`store.saveSnapShot`; the reader is in `RecoverSnapshot`.  Compression is a
parameter: all that is used of it is that decoding inverts encoding.
-/

namespace RaftExample

/-! ### Allocation -/

/-- The largest length that `make` itself takes for a byte slice on a 64-bit platform:
    larger ones panic, and no slice in memory is longer.  That a process runs out of
    memory at a shorter length, and dies of it, is not modelled. -/
def maxAlloc : Nat := 2 ^ 48

/-- What a reader returns, and the lengths it has taken from the stream and passed to
    `make` on the way, in their order. -/
structure Made (α : Type) where
  lengths : List Nat
  result : α
deriving DecidableEq, Repr

namespace Made

variable {α : Type}

def pure (result : α) : Made α := ⟨[], result⟩

/-- `make` of `n` bytes, then the rest.  Whether `make` takes the length is for the
    rest to say. -/
def make (n : Nat) (rest : Made α) : Made α := ⟨n :: rest.lengths, rest.result⟩

@[simp] theorem lengths_pure (result : α) : (pure result).lengths = [] := rfl

@[simp] theorem result_pure (result : α) : (pure result).result = result := rfl

@[simp] theorem lengths_make (n : Nat) (rest : Made α) :
    (make n rest).lengths = n :: rest.lengths := rfl

@[simp] theorem result_make (n : Nat) (rest : Made α) : (make n rest).result = rest.result := rfl

end Made

/-! ### Compression -/

/-- `gzipEncode` and `gzipDecode`; `none` is an error. -/
structure Gzip where
  encode : Bytes → Option Bytes
  decode : Bytes → Option Bytes

structure Gzip.Lawful (gz : Gzip) : Prop where
  decode_encode : ∀ {content zipped}, gz.encode content = some zipped →
    gz.decode zipped = some content
  length_le : ∀ {content zipped}, gz.encode content = some zipped → zipped.length ≤ maxAlloc

/-! ### The header -/

def snapshotVersion : UInt32 := 1
def snapshotMagic : UInt32 := 0x52414654

structure SnapshotHeader where
  magic : UInt32
  version : UInt32
  lastIndex : UInt64
  timestamp : Int64
  nodeId : Bytes
  checksum : UInt32
deriving DecidableEq, Repr

def ReadResult.err : ReadResult → ReadErr
  | .eof => .eof
  | _ => .unexpectedEof

/-- The variable part of the header: the node ID and the checksum placeholder. -/
def readHeaderTail (header : SnapshotHeader) (nodeIdLen : Nat) (stream : Bytes) :
    Made (Except HeaderErr (SnapshotHeader × Bytes)) :=
  .make nodeIdLen <| .pure <| match readFull nodeIdLen stream with
  | .full nodeIdBuf rest =>
      match readFull 4 rest with
      | .full checksumBuf rest =>
          .ok ({ header with
            nodeId := nodeIdBuf
            checksum := UInt32.ofNat (leNat checksumBuf) }, rest)
      | short => .error (.readChecksum short.err)
  | short => .error (.readNodeId short.err)

/-- The body of `store.readSnapshotHeader`, with what is left of the stream. -/
def readHeader (stream : Bytes) : Made (Except HeaderErr (SnapshotHeader × Bytes)) :=
  match readFull 26 stream with
  | .full headerBuf rest =>
      let magic := UInt32.ofNat (leNat (headerBuf.take 4))
      let version := UInt32.ofNat (leNat ((headerBuf.drop 4).take 4))
      let lastIndex := UInt64.ofNat (leNat ((headerBuf.drop 8).take 8))
      let timestamp := (UInt64.ofNat (leNat ((headerBuf.drop 16).take 8))).toInt64
      let nodeIdLen := leNat ((headerBuf.drop 24).take 2)
      if magic ≠ snapshotMagic then .pure (.error (.invalidMagic snapshotMagic magic))
      else if version > snapshotVersion then
        .pure (.error (.unsupportedVersion version snapshotVersion))
      else readHeaderTail ⟨magic, version, lastIndex, timestamp, [], 0⟩ nodeIdLen rest
  | short => .pure (.error (.readHeader short.err))

/-- What `store.readSnapshotHeader` returns. -/
def readSnapshotHeader (stream : Bytes) : Except HeaderErr (SnapshotHeader × Bytes) :=
  (readHeader stream).result

/-- The header `saveSnapShot` writes.  The length of the node ID is cut to 16 bits
    and the checksum field stays zero. -/
def encodeHeader (nodeId : Bytes) (lastIndex : UInt64) (timestamp : Int64) : Bytes :=
  leBytes 4 snapshotMagic.toNat ++ leBytes 4 snapshotVersion.toNat ++
    leBytes 8 lastIndex.toNat ++ leBytes 8 timestamp.toUInt64.toNat ++
    leBytes 2 nodeId.length ++ nodeId ++ leBytes 4 0

/-- Which header is read, and how long it is, does not depend on what follows it. -/
theorem readSnapshotHeader_split {stream rest : Bytes} {header : SnapshotHeader}
    (h : readSnapshotHeader stream = .ok (header, rest)) :
    ∃ front, stream = front ++ rest ∧
      ∀ other, readSnapshotHeader (front ++ other) = .ok (header, other) := by
  unfold readSnapshotHeader readHeader at h
  split at h
  · rename_i headerBuf rest₁ hfixed
    obtain ⟨rfl, hlen⟩ := readFull_eq_full hfixed
    simp only at h
    split at h
    · simp at h
    rename_i hmagic
    split at h
    · simp at h
    rename_i hversion
    simp only [readHeaderTail, Made.result_make, Made.result_pure] at h
    split at h
    · rename_i nodeIdBuf rest₂ hnode
      obtain ⟨rfl, hnodeLen⟩ := readFull_eq_full hnode
      split at h
      · rename_i checksumBuf rest₃ hsum
        obtain ⟨rfl, hsumLen⟩ := readFull_eq_full hsum
        simp only [Except.ok.injEq, Prod.mk.injEq] at h
        obtain ⟨rfl, rfl⟩ := h
        refine ⟨headerBuf ++ (nodeIdBuf ++ checksumBuf), by simp, fun other => ?_⟩
        rw [List.append_assoc, List.append_assoc, readSnapshotHeader, readHeader,
          readFull_append_of_length hlen]
        simp only [if_neg hmagic, if_neg hversion]
        rw [readHeaderTail, Made.result_make, Made.result_pure, readFull_append_of_length hnodeLen]
        simp only
        rw [readFull_append_of_length hsumLen]
      · simp at h
    · simp at h
  · simp at h

theorem readSnapshotHeader_append {front : Bytes} {header : SnapshotHeader}
    (h : readSnapshotHeader front = .ok (header, [])) (rest : Bytes) :
    readSnapshotHeader (front ++ rest) = .ok (header, rest) := by
  obtain ⟨front', hfront, hother⟩ := readSnapshotHeader_split h
  rw [List.append_nil] at hfront
  exact hfront ▸ hother rest

theorem take_drop_field (before field after : Bytes) :
    ((before ++ (field ++ after)).drop before.length).take field.length = field := by
  simp

/-- The reader accepts the writer's header, provided the node ID's length survives
    its 16 bits. -/
theorem readSnapshotHeader_encodeHeader {nodeId : Bytes} (hnode : nodeId.length ≤ 65535)
    (lastIndex : UInt64) (timestamp : Int64) :
    readSnapshotHeader (encodeHeader nodeId lastIndex timestamp) =
      .ok (⟨snapshotMagic, snapshotVersion, lastIndex, timestamp, nodeId, 0⟩, []) := by
  have hindex : leNat (leBytes 8 lastIndex.toNat) = lastIndex.toNat :=
    leNat_leBytes_of_lt lastIndex.toNat_lt
  have htime : leNat (leBytes 8 timestamp.toUInt64.toNat) = timestamp.toUInt64.toNat :=
    leNat_leBytes_of_lt timestamp.toUInt64.toNat_lt
  have hlen : leNat (leBytes 2 nodeId.length) = nodeId.length :=
    leNat_leBytes_of_lt (by omega)
  have hsplit : encodeHeader nodeId lastIndex timestamp =
      (leBytes 4 snapshotMagic.toNat ++ leBytes 4 snapshotVersion.toNat ++
        leBytes 8 lastIndex.toNat ++ leBytes 8 timestamp.toUInt64.toNat ++
          leBytes 2 nodeId.length) ++ (nodeId ++ (leBytes 4 0 ++ [])) := by
    simp [encodeHeader]
  generalize hbuf : leBytes 4 snapshotMagic.toNat ++ leBytes 4 snapshotVersion.toNat ++
    leBytes 8 lastIndex.toNat ++ leBytes 8 timestamp.toUInt64.toNat ++
    leBytes 2 nodeId.length = buf at hsplit
  have hmagic : buf.take 4 = leBytes 4 snapshotMagic.toNat := by
    simp [← hbuf]
  have hversion : (buf.drop 4).take 4 = leBytes 4 snapshotVersion.toNat := by
    simp [← hbuf]
  have hindexField : (buf.drop 8).take 8 = leBytes 8 lastIndex.toNat := by
    rw [← hbuf]
    simpa using take_drop_field (leBytes 4 snapshotMagic.toNat ++ leBytes 4 snapshotVersion.toNat)
      (leBytes 8 lastIndex.toNat) _
  have htimeField : (buf.drop 16).take 8 = leBytes 8 timestamp.toUInt64.toNat := by
    rw [← hbuf]
    simpa using take_drop_field (leBytes 4 snapshotMagic.toNat ++ leBytes 4 snapshotVersion.toNat ++
      leBytes 8 lastIndex.toNat) (leBytes 8 timestamp.toUInt64.toNat) _
  have hlenField : (buf.drop 24).take 2 = leBytes 2 nodeId.length := by
    rw [← hbuf]
    simpa using take_drop_field (leBytes 4 snapshotMagic.toNat ++ leBytes 4 snapshotVersion.toNat ++
      leBytes 8 lastIndex.toNat ++ leBytes 8 timestamp.toUInt64.toNat) (leBytes 2 nodeId.length) []
  have hbufLen : buf.length = 26 := by simp [← hbuf]
  rw [hsplit, readSnapshotHeader, readHeader, readFull_append_of_length hbufLen]
  simp only [hmagic, hversion, hindexField, htimeField, hlenField, hindex, htime, hlen]
  rw [if_neg (by decide), if_neg (by decide), readHeaderTail, Made.result_make,
    Made.result_pure, readFull_append]
  simp only
  rw [readFull_append_of_length (length_leBytes ..)]
  have hmagicWord : UInt32.ofNat (leNat (leBytes 4 snapshotMagic.toNat)) = snapshotMagic := by
    decide
  have hversionWord : UInt32.ofNat (leNat (leBytes 4 snapshotVersion.toNat)) = snapshotVersion := by
    decide
  have hzero : UInt32.ofNat (leNat (leBytes 4 0)) = 0 := by decide
  simp only [hmagicWord, hversionWord, hzero, UInt64.ofNat_toNat, Int64.toInt64_toUInt64]

/-! ### Records -/

def encodeRecord (key zipped : Bytes) : Bytes :=
  leBytes 8 key.length ++ key ++ leBytes 8 zipped.length ++ zipped

def encodeRecords (records : List (Bytes × Bytes)) : Bytes :=
  (records.map fun record => encodeRecord record.1 record.2).flatten

@[simp] theorem encodeRecords_nil : encodeRecords [] = [] := rfl

@[simp] theorem encodeRecords_cons (key zipped : Bytes) (records : List (Bytes × Bytes)) :
    encodeRecords ((key, zipped) :: records) =
      encodeRecord key zipped ++ encodeRecords records := rfl

/-! ### The sink and the writer -/

/-- A snapshot sink: what was written, and how often it was settled. -/
structure Sink where
  data : Bytes
  writes : Nat
  closes : Nat
  cancels : Nat
deriving DecidableEq, Repr

def Sink.fresh : Sink := ⟨[], 0, 0, 0⟩

/-- What may go wrong while a snapshot is written: opening the iterator, each call
    of `Write`, each compression, the iterator after some number of records, and `Close`.
    Writes and compressions are numbered by the calls of `Write` that precede them. -/
structure SaveFaults where
  newIter : Bool
  write : Nat → Bool
  compress : Nat → Bool
  iterStop : Option Nat
  close : Bool

def SaveFaults.none : SaveFaults := ⟨false, fun _ => false, fun _ => false, .none, false⟩

def Sink.write (faults : SaveFaults) (sink : Sink) (p : Bytes) : Except Err Unit × Sink :=
  if faults.write sink.writes then (.error .sinkWrite, { sink with writes := sink.writes + 1 })
  else (.ok (), { sink with data := sink.data ++ p, writes := sink.writes + 1 })

/-- The running totals, in the 64 bits the source gives them. -/
structure SaveState where
  hasher : BitVec 32
  totalSize : Int64
  count : UInt64
deriving DecidableEq, Repr

structure SnapshotResult where
  size : Int64
  records : UInt64
  checksum : BitVec 32
deriving DecidableEq, Repr

/-- `gzipEncode`, called after `writes` calls of `Write`. -/
def gzipEncode (gz : Gzip) (faults : SaveFaults) (writes : Nat) (val : Bytes) : Option Bytes :=
  if faults.compress writes then none else gz.encode val

/-- One turn of the writer's loop. -/
def writeRecord (gz : Gzip) (faults : SaveFaults) (key val : Bytes) (st : SaveState)
    (sink : Sink) : Except Err SaveState × Sink :=
  match sink.write faults (leBytes 8 key.length) with
  | (.error e, sink) => (.error e, sink)
  | (.ok (), sink) =>
    match sink.write faults key with
    | (.error e, sink) => (.error e, sink)
    | (.ok (), sink) =>
      match gzipEncode gz faults sink.writes val with
      | none => (.error .compress, sink)
      | some gzipVal =>
        match sink.write faults (leBytes 8 gzipVal.length) with
        | (.error e, sink) => (.error e, sink)
        | (.ok (), sink) =>
          match sink.write faults gzipVal with
          | (.error e, sink) => (.error e, sink)
          | (.ok (), sink) =>
            let hasher := crc32Update (crc32Update st.hasher (leBytes 8 key.length)) key
            (.ok {
              hasher := crc32Update (crc32Update hasher (leBytes 8 gzipVal.length)) gzipVal
              totalSize := st.totalSize + 8 + .ofNat key.length + 8 + .ofNat gzipVal.length
              count := st.count + 1 }, sink)

def writeRecords (gz : Gzip) (faults : SaveFaults) :
    List (Bytes × Bytes) → SaveState → Sink → Except Err SaveState × Sink
  | [], st, sink => (.ok st, sink)
  | (key, val) :: records, st, sink =>
      match writeRecord gz faults key val st sink with
      | (.error e, sink) => (.error e, sink)
      | (.ok st, sink) => writeRecords gz faults records st sink

/-- The iterator: the records it yields, and whether it then reports an error. -/
def iterate (faults : SaveFaults) (content : KV) : List (Bytes × Bytes) × Bool :=
  match faults.iterStop with
  | none => (content.toList, false)
  | some n => (content.toList.take n, true)

/-- Everything between opening the iterator and settling the sink. -/
def writeStream (gz : Gzip) (faults : SaveFaults) (nodeId : Bytes) (lastIndex : UInt64)
    (timestamp : Int64) (content : KV) (sink : Sink) : Except Err SaveState × Sink :=
  let headerBuf := encodeHeader nodeId lastIndex timestamp
  match sink.write faults headerBuf with
  | (.error e, sink) => (.error e, sink)
  | (.ok (), sink) =>
    match writeRecords gz faults (iterate faults content).1 ⟨0#32, .ofNat headerBuf.length, 0⟩
      sink with
    | (.error e, sink) => (.error e, sink)
    | (.ok st, sink) =>
      if (iterate faults content).2 then (.error .iterator, sink)
      else
        match sink.write faults (leBytes 4 st.hasher.toNat) with
        | (.error e, sink) => (.error e, sink)
        | (.ok (), sink) => (.ok { st with totalSize := st.totalSize + 4 }, sink)

/-- `store.saveSnapShot`.  A failure to open the iterator or to close the sink
    returns without cancelling it. -/
def saveSnapShot (gz : Gzip) (faults : SaveFaults) (nodeId : Bytes) (lastIndex : UInt64)
    (timestamp : Int64) (content : KV) (sink : Sink) : Except Err SnapshotResult × Sink :=
  if faults.newIter then (.error .newIter, sink)
  else
    match writeStream gz faults nodeId lastIndex timestamp content sink with
    | (.error e, sink) => (.error e, { sink with cancels := sink.cancels + 1 })
    | (.ok st, sink) =>
      let sink := { sink with closes := sink.closes + 1 }
      if faults.close then (.error .sinkClose, sink)
      else (.ok ⟨st.totalSize, st.count, st.hasher⟩, sink)

/-! ### How the writer ends -/

/-- The records after compression, as they stand in the stream. -/
def Compressed (gz : Gzip) (records zipped : List (Bytes × Bytes)) : Prop :=
  List.Forall₂ (fun record z => record.1 = z.1 ∧ gz.encode record.2 = some z.2) records zipped

/-- The codec is a function. -/
theorem Compressed.unique {gz : Gzip} {records zipped zipped' : List (Bytes × Bytes)}
    (h : Compressed gz records zipped) (h' : Compressed gz records zipped') : zipped = zipped' := by
  induction h generalizing zipped' with
  | nil =>
    cases h'
    rfl
  | cons hhead _ ih =>
    cases h' with
    | cons hhead' hrest' =>
      have hvalue := hhead.2.symm.trans hhead'.2
      rw [ih hrest', Prod.ext (hhead.1.symm.trans hhead'.1) (Option.some.inj hvalue)]

/-- What a complete run writes. -/
def snapshotStream (nodeId : Bytes) (lastIndex : UInt64) (timestamp : Int64)
    (zipped : List (Bytes × Bytes)) : Bytes :=
  encodeHeader nodeId lastIndex timestamp ++ encodeRecords zipped ++
    leBytes 4 (crc32 (encodeRecords zipped)).toNat

/-- The sink after some calls of `Write` that put `p` into it. -/
def Sink.wrote (sink : Sink) (p : Bytes) (calls : Nat) : Sink :=
  { sink with data := sink.data ++ p, writes := sink.writes + calls }

/-- Neither closed nor cancelled in between. -/
structure Sink.Unsettled (before after : Sink) : Prop where
  closes : after.closes = before.closes
  cancels : after.cancels = before.cancels

/-- The totals after some more records.  The hasher has seen what the sink has. -/
def SaveState.added (st : SaveState) (zipped : List (Bytes × Bytes)) : SaveState where
  hasher := crc32Update st.hasher (encodeRecords zipped)
  totalSize := st.totalSize + .ofNat (encodeRecords zipped).length
  count := st.count + .ofNat zipped.length

/-- Nothing goes wrong in a turn of the loop. -/
structure TurnOk (gz : Gzip) (faults : SaveFaults) (writes : Nat) (val zipped : Bytes) : Prop where
  keySize : faults.write writes = false
  keyData : faults.write (writes + 1) = false
  gzipVal : gzipEncode gz faults (writes + 2) val = some zipped
  valSize : faults.write (writes + 2) = false
  valData : faults.write (writes + 3) = false

/-- Nothing goes wrong in the turns for these records. -/
inductive TurnsOk (gz : Gzip) (faults : SaveFaults) :
    Nat → List (Bytes × Bytes) → List (Bytes × Bytes) → Prop
  | nil (writes : Nat) : TurnsOk gz faults writes [] []
  | cons {writes : Nat} {key val z : Bytes} {records zipped : List (Bytes × Bytes)}
      (hturn : TurnOk gz faults writes val z)
      (hrest : TurnsOk gz faults (writes + 4) records zipped) :
      TurnsOk gz faults writes ((key, val) :: records) ((key, z) :: zipped)

/-- Nothing goes wrong between opening the iterator and settling the sink. -/
structure StreamOk (gz : Gzip) (faults : SaveFaults) (writes : Nat) (content : KV)
    (zipped : List (Bytes × Bytes)) : Prop where
  header : faults.write writes = false
  records : TurnsOk gz faults (writes + 1) content.toList zipped
  iterator : faults.iterStop = none
  checksum : faults.write (writes + 1 + 4 * content.size) = false

section Writer

variable {gz : Gzip} {faults : SaveFaults} {sink : Sink} {st : SaveState}
  {records zipped : List (Bytes × Bytes)} {nodeId : Bytes} {lastIndex : UInt64}
  {timestamp : Int64} {content : KV}

theorem Sink.write_ok (h : faults.write sink.writes = false) (p : Bytes) :
    sink.write faults p = (.ok (), sink.wrote p 1) := by
  simp [Sink.write, h, Sink.wrote]

theorem Sink.write_fails (sink : Sink) (h : faults.write sink.writes = true) (p : Bytes) :
    ∃ sink', sink.write faults p = (.error .sinkWrite, sink') ∧ sink.Unsettled sink' := by
  refine ⟨{ sink with writes := sink.writes + 1 }, ?_, rfl, rfl⟩
  simp [Sink.write, h]

@[simp] theorem Sink.wrote_writes (p : Bytes) (calls : Nat) :
    (sink.wrote p calls).writes = sink.writes + calls := rfl

@[simp] theorem Sink.wrote_wrote (p q : Bytes) (calls more : Nat) :
    (sink.wrote p calls).wrote q more = sink.wrote (p ++ q) (calls + more) := by
  simp [Sink.wrote, Nat.add_assoc]

theorem Sink.Unsettled.of_wrote {p : Bytes} {calls : Nat} {sink' : Sink}
    (h : (sink.wrote p calls).Unsettled sink') : sink.Unsettled sink' :=
  ⟨h.closes, h.cancels⟩

theorem SaveState.added_nil : st.added [] = st := by
  simp [SaveState.added]

theorem SaveState.added_append (more : List (Bytes × Bytes)) :
    (st.added zipped).added more = st.added (zipped ++ more) := by
  simp [SaveState.added, encodeRecords, crc32Update_append, Int64.ofNat_add, UInt64.ofNat_add,
    Int64.add_assoc, UInt64.add_assoc]

/-- The source counts a record in four parts. -/
theorem SaveState.added_record (key z : Bytes) :
    st.added [(key, z)] =
      { hasher := crc32Update (crc32Update (crc32Update (crc32Update st.hasher
          (leBytes 8 key.length)) key) (leBytes 8 z.length)) z
        totalSize := st.totalSize + 8 + .ofNat key.length + 8 + .ofNat z.length
        count := st.count + 1 } := by
  simp [SaveState.added, encodeRecord, crc32Update_append, Int64.ofNat_add, Int64.add_assoc]

theorem writeRecord_ok {key val z : Bytes} (h : TurnOk gz faults sink.writes val z) :
    writeRecord gz faults key val st sink =
      (.ok (st.added [(key, z)]), sink.wrote (encodeRecord key z) 4) := by
  rw [writeRecord, Sink.write_ok h.keySize]
  simp only
  rw [Sink.write_ok h.keyData, Sink.wrote_wrote]
  simp only [Sink.wrote_writes]
  rw [h.gzipVal]
  simp only
  rw [Sink.write_ok h.valSize, Sink.wrote_wrote]
  simp only
  rw [Sink.write_ok h.valData, Sink.wrote_wrote]
  simp only [SaveState.added_record, encodeRecord]

/-- A turn in which something goes wrong ends in an error. -/
theorem writeRecord_fails (key : Bytes) {val : Bytes} (st : SaveState)
    (h : ∀ z, ¬ TurnOk gz faults sink.writes val z) :
    ∃ e sink', writeRecord gz faults key val st sink = (.error e, sink') ∧
      sink.Unsettled sink' := by
  rw [writeRecord]
  cases hkeySize : faults.write sink.writes with
  | true =>
    obtain ⟨sink', hwrite, hunsettled⟩ := sink.write_fails hkeySize (leBytes 8 key.length)
    exact ⟨.sinkWrite, sink', by rw [hwrite], hunsettled⟩
  | false =>
    rw [Sink.write_ok hkeySize]
    simp only
    cases hkeyData : faults.write (sink.writes + 1) with
    | true =>
      obtain ⟨sink', hwrite, hunsettled⟩ :=
        (sink.wrote (leBytes 8 key.length) 1).write_fails hkeyData key
      exact ⟨.sinkWrite, sink', by rw [hwrite], hunsettled.of_wrote⟩
    | false =>
      rw [Sink.write_ok hkeyData, Sink.wrote_wrote]
      simp only [Sink.wrote_writes]
      cases hzip : gzipEncode gz faults (sink.writes + 2) val with
      | none => exact ⟨.compress, _, rfl, rfl, rfl⟩
      | some z =>
        simp only
        cases hvalSize : faults.write (sink.writes + 2) with
        | true =>
          obtain ⟨sink', hwrite, hunsettled⟩ :=
            (sink.wrote (leBytes 8 key.length ++ key) 2).write_fails hvalSize (leBytes 8 z.length)
          exact ⟨.sinkWrite, sink', by rw [hwrite], hunsettled.of_wrote⟩
        | false =>
          rw [Sink.write_ok hvalSize, Sink.wrote_wrote]
          simp only
          have hvalData : faults.write (sink.writes + 3) = true := by
            by_contra hdata
            exact h z ⟨hkeySize, hkeyData, hzip, hvalSize, by simpa using hdata⟩
          obtain ⟨sink', hwrite, hunsettled⟩ :=
            (sink.wrote (leBytes 8 key.length ++ key ++ leBytes 8 z.length) 3).write_fails hvalData z
          exact ⟨.sinkWrite, sink', by rw [hwrite], hunsettled.of_wrote⟩

theorem writeRecords_ok (h : TurnsOk gz faults sink.writes records zipped) :
    writeRecords gz faults records st sink =
      (.ok (st.added zipped), sink.wrote (encodeRecords zipped) (4 * records.length)) := by
  induction records generalizing st sink zipped with
  | nil =>
    cases h
    rw [writeRecords, SaveState.added_nil]
    simp [Sink.wrote]
  | cons record records ih =>
    cases h with
    | @cons _ key val z _ zipped hturn hrest =>
      rw [writeRecords, writeRecord_ok hturn]
      simp only
      rw [ih hrest, SaveState.added_append, Sink.wrote_wrote]
      simp [Nat.mul_add, Nat.add_comm]

theorem writeRecords_fails (h : ∀ zipped, ¬ TurnsOk gz faults sink.writes records zipped) :
    ∃ e sink', writeRecords gz faults records st sink = (.error e, sink') ∧
      sink.Unsettled sink' := by
  induction records generalizing st sink with
  | nil => exact absurd (.nil _) (h [])
  | cons record records ih =>
    obtain ⟨key, val⟩ := record
    rw [writeRecords]
    by_cases hturn : ∃ z, TurnOk gz faults sink.writes val z
    · obtain ⟨z, hturn⟩ := hturn
      rw [writeRecord_ok hturn]
      obtain ⟨e, sink', hrun, hunsettled⟩ :=
        @ih (sink.wrote (encodeRecord key z) 4) (st.added [(key, z)])
          fun zipped hrest => h _ (.cons hturn hrest)
      exact ⟨e, sink', hrun, hunsettled.of_wrote⟩
    · obtain ⟨e, sink', hrun, hunsettled⟩ :=
        writeRecord_fails key st (not_exists.mp hturn)
      exact ⟨e, sink', by rw [hrun], hunsettled⟩

theorem writeStream_ok (h : StreamOk gz faults sink.writes content zipped) :
    writeStream gz faults nodeId lastIndex timestamp content sink =
      (.ok ⟨crc32 (encodeRecords zipped),
          .ofNat (snapshotStream nodeId lastIndex timestamp zipped).length, .ofNat zipped.length⟩,
        sink.wrote (snapshotStream nodeId lastIndex timestamp zipped) (2 + 4 * content.size)) := by
  have hiterate : iterate faults content = (content.toList, false) := by
    simp [iterate, h.iterator]
  have hchecksum : faults.write (sink.writes + (1 + 4 * content.size)) = false := by
    rw [← Nat.add_assoc]
    exact h.checksum
  have hcalls : 1 + 4 * content.size + 1 = 2 + 4 * content.size := by omega
  rw [writeStream, hiterate]
  simp only
  rw [Sink.write_ok h.header]
  simp only
  rw [writeRecords_ok h.records, Sink.wrote_wrote, Std.ExtTreeMap.length_toList]
  simp only [Bool.false_eq_true, if_false]
  rw [Sink.write_ok hchecksum, Sink.wrote_wrote, hcalls]
  simp [SaveState.added, snapshotStream, crc32, Int64.ofNat_add, Int64.add_assoc]

theorem writeStream_fails (h : ∀ zipped, ¬ StreamOk gz faults sink.writes content zipped) :
    ∃ e sink', writeStream gz faults nodeId lastIndex timestamp content sink = (.error e, sink') ∧
      sink.Unsettled sink' := by
  rw [writeStream]
  cases hheader : faults.write sink.writes with
  | true =>
    obtain ⟨sink', hwrite, hunsettled⟩ :=
      sink.write_fails hheader (encodeHeader nodeId lastIndex timestamp)
    exact ⟨.sinkWrite, sink', by rw [hwrite], hunsettled⟩
  | false =>
    rw [Sink.write_ok hheader]
    simp only
    by_cases hrecords : ∃ zipped, TurnsOk gz faults (sink.writes + 1) (iterate faults content).1 zipped
    · obtain ⟨zipped, hrecords⟩ := hrecords
      rw [writeRecords_ok hrecords, Sink.wrote_wrote]
      simp only
      cases hstop : faults.iterStop with
      | some n =>
        have hfails : (iterate faults content).2 = true := by simp [iterate, hstop]
        rw [if_pos hfails]
        exact ⟨.iterator, _, rfl, rfl, rfl⟩
      | none =>
        have hiterate : iterate faults content = (content.toList, false) := by
          simp [iterate, hstop]
        rw [hiterate] at hrecords ⊢
        have hchecksum : faults.write (sink.writes + (1 + 4 * content.size)) = true := by
          by_contra hsum
          exact h zipped ⟨hheader, hrecords, hstop, by simpa [Nat.add_assoc] using hsum⟩
        rw [if_neg (by simp), Std.ExtTreeMap.length_toList]
        obtain ⟨sink', hwrite, hunsettled⟩ := (sink.wrote (encodeHeader nodeId lastIndex timestamp ++
          encodeRecords zipped) (1 + 4 * content.size)).write_fails hchecksum
            (leBytes 4 (crc32Update 0#32 (encodeRecords zipped)).toNat)
        exact ⟨.sinkWrite, sink', by simp only [SaveState.added, hwrite], hunsettled.of_wrote⟩
    · obtain ⟨e, sink', hrun, hunsettled⟩ :=
        @writeRecords_fails gz faults (sink.wrote (encodeHeader nodeId lastIndex timestamp) 1)
          ⟨0#32, .ofNat (encodeHeader nodeId lastIndex timestamp).length, 0⟩ _ (not_exists.mp hrecords)
      exact ⟨e, sink', by rw [hrun], hunsettled.of_wrote⟩

theorem TurnsOk.compressed {writes : Nat} (h : TurnsOk gz faults writes records zipped) :
    Compressed gz records zipped := by
  induction h with
  | nil => exact .nil
  | cons hturn _ ih =>
    have hzip := hturn.gzipVal
    rw [gzipEncode] at hzip
    split at hzip
    · simp at hzip
    · exact .cons ⟨rfl, hzip⟩ ih

/-- The whole stream of a successful writer: header, records, checksum. -/
theorem saveSnapShot_ok {result : SnapshotResult}
    (h : saveSnapShot gz faults nodeId lastIndex timestamp content .fresh = (.ok result, sink)) :
    ∃ zipped, Compressed gz content.toList zipped ∧
      sink.data = encodeHeader nodeId lastIndex timestamp ++ encodeRecords zipped ++
        leBytes 4 (crc32 (encodeRecords zipped)).toNat := by
  rw [saveSnapShot] at h
  split at h
  · simp at h
  · by_cases hstream : ∃ zipped, StreamOk gz faults Sink.fresh.writes content zipped
    · obtain ⟨zipped, hstream⟩ := hstream
      rw [writeStream_ok hstream] at h
      simp only at h
      split at h
      · simp at h
      · simp only [Prod.mk.injEq] at h
        rw [← h.2]
        exact ⟨zipped, hstream.records.compressed, List.nil_append _⟩
    · obtain ⟨e, sink', hrun, -⟩ := @writeStream_fails gz faults .fresh nodeId lastIndex timestamp
        content (not_exists.mp hstream)
      simp [hrun] at h

end Writer

end RaftExample
