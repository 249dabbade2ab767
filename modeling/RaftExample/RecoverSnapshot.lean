import RaftExample.PointerFile
import RaftExample.SnapshotFormat

/-!
# Restoring a snapshot

`store.recoverSnapShot` reads a snapshot into a database of its own, points the
node at it and only then lets go of the old one.  The record loop has four reads,
each with its own treatment of the end of the stream; `readTurn` is one turn of it
without the database, with the lengths it allocates, and `recoverLoop` drives the
turns and fills the new database in batches of a hundred.
-/

namespace RaftExample

/-! ### One turn of the record loop -/

/-- Why the loop stopped without an error.  All five are `break`s of the source; the
    last three leave it in the middle of a record. -/
inductive StopReason where
  | noChecksum
  | verified
  | cutAtKey
  | cutAtValueLen
  | cutAtValue
deriving DecidableEq, Repr

inductive RecordRead where
  | record (key value : Bytes) (hasher : BitVec 32) (rest : Bytes)
  | stop (reason : StopReason)
  | bad (e : Err)
  | panic
deriving DecidableEq, Repr

/-- The value bytes.  Their length is used as it was read. -/
def readValueData (gz : Gzip) (key : Bytes) (hasher : BitVec 32) (toRead : Nat)
    (stream : Bytes) : Made RecordRead :=
  .make toRead <| .pure <| if toRead > maxAlloc then .panic
  else match readFull toRead stream with
    | .eof => .stop .cutAtValue
    | .unexpectedEof _ => .bad (.read .unexpectedEof)
    | .full vdata rest =>
        match gz.decode vdata with
        | none => .bad .decompress
        | some value => .record key value (crc32Update hasher vdata) rest

def readValue (gz : Gzip) (key : Bytes) (hasher : BitVec 32) (stream : Bytes) :
    Made RecordRead :=
  match readFull 8 stream with
  | .eof => .pure (.stop .cutAtValueLen)
  | .unexpectedEof _ => .pure (.bad (.read .unexpectedEof))
  | .full sz rest => readValueData gz key (crc32Update hasher sz) (leNat sz) rest

def readKey (gz : Gzip) (hasher : BitVec 32) (keyLen : Nat) (stream : Bytes) :
    Made RecordRead :=
  .make keyLen <| match readFull keyLen stream with
  | .eof => .pure (.stop .cutAtKey)
  | .unexpectedEof _ => .pure (.bad (.read .unexpectedEof))
  | .full kdata rest => readValue gz kdata (crc32Update hasher kdata) rest

/-- A short read of exactly four bytes is taken for the trailing checksum. -/
def readTurn (gz : Gzip) (hasher : BitVec 32) (stream : Bytes) : Made RecordRead :=
  match readFull 8 stream with
  | .eof => .pure (.stop .noChecksum)
  | .unexpectedEof got =>
      if got.length = 4 then
        if leNat got ≠ hasher.toNat then .pure (.bad (.checksumMismatch (leNat got) hasher.toNat))
        else .pure (.stop .verified)
      else .pure (.bad (.partialRead got.length))
  | .full sz rest =>
      if leNat sz > 2 ^ 30 then .pure (.bad (.invalidKeyLength (leNat sz)))
      else readKey gz (crc32Update hasher sz) (leNat sz) rest

/-- How a turn ends. -/
def readRecord (gz : Gzip) (hasher : BitVec 32) (stream : Bytes) : RecordRead :=
  (readTurn gz hasher stream).result

/-! ### The write batch and the loop -/

/-- The records of a batch, later ones over earlier ones. -/
def applyBatch (batch : List (Bytes × Bytes)) (content : KV) : KV :=
  batch.foldl (fun content record => content.insert record.1 record.2) content

/-- The local variables of the loop; `puts` and `commits` only number the sites. -/
structure LoadState where
  hasher : BitVec 32
  wb : List (Bytes × Bytes)
  k : Nat
  puts : Nat
  commits : Nat
deriving DecidableEq, Repr

def LoadState.init : LoadState := ⟨0#32, [], 0, 0, 0⟩

/-- `wb.Put`: its error is ignored, and the record is then missing from the batch. -/
def putRecord (st : LoadState) (key value : Bytes) : Disk LoadState := do
  match ← Proc.settle (.put st.puts) with
  | .ok () => return { st with wb := st.wb ++ [(key, value)], puts := st.puts + 1 }
  | .error _ => return { st with puts := st.puts + 1 }

/-- `wb.Commit`: it has no result, and the next batch starts empty either way. -/
def commitBatch (newdb : Loc) (st : LoadState) : Disk LoadState := do
  let _ ← Proc.commit (.commit st.commits) newdb (applyBatch st.wb)
  return { st with wb := [], k := 0, commits := st.commits + 1 }

/-- `fuel` bounds the number of turns; a stream has fewer records than bytes. -/
def recoverLoop (gz : Gzip) (newdb : Loc) :
    Nat → LoadState → Bytes → Disk (Except Err LoadState)
  | 0, _, _ => Proc.panic
  | fuel + 1, st, stream =>
      match readRecord gz st.hasher stream with
      | .stop _ => return .ok st
      | .bad e => return .error e
      | .panic => Proc.panic
      | .record key value hasher rest => do
          let st ← putRecord { st with hasher := hasher, k := st.k + 1 } key value
          if st.k ≥ 100 then
            let st ← commitBatch newdb st
            recoverLoop gz newdb fuel st rest
          else recoverLoop gz newdb fuel st rest

/-- The loop, the remainder batch and the flush. -/
def loadRecords (gz : Gzip) (newdb : Loc) (stream : Bytes) : Disk (Except Err Unit) := do
  match ← recoverLoop gz newdb (stream.length + 1) .init stream with
  | .error e => return .error e
  | .ok st =>
    let _ ← if st.k > 0 then commitBatch newdb st else pure st
    let _ ← Proc.settle .flushNew
    return .ok ()

/-! ### The store -/

/-- The open store.  The handle of the live database is its location. -/
structure Store where
  baseDir : Bytes
  db : Loc
  closed : Bool
deriving DecidableEq

def newStore (baseDir : Bytes) (stamp : Stamp) : Disk (Except Err Store) := do
  match ← Proc.mkdirAll .mkdirBase baseDir with
  | .error e => return .error (.fs e)
  | .ok () =>
    match ← getPebbleDBDir baseDir stamp with
    | .error e => return .error e
    | .ok dbdir =>
      match ← Proc.openDatabase .makeDbDir .initDb dbdir with
      | .error e => return .error (.fs e)
      | .ok db => return .ok ⟨baseDir, db, false⟩

/-- Close and delete the database under construction; both results are ignored. -/
def cleanupNewDB (dbdir : Bytes) : Disk Unit := do
  let _ ← Proc.settle .closeNew
  let _ ← Proc.removeAll (.removeNew .contents) (.removeNew .entry) dbdir
  return ()

/-- After the swap: close the old database, remove its directory and flush the
    removal.  An error here leaves the new database in use. -/
def dropOldDB (s : Store) (header : SnapshotHeader) (oldDirName : Bytes) :
    Disk (Except Err SnapshotHeader × Store) := do
  let _ ← Proc.settle .closeOld
  match ← Proc.removeAll (.removeOld .contents) (.removeOld .entry) oldDirName with
  | .error e => return (.error (.fs e), s)
  | .ok () =>
    match ← Proc.syncDir .syncParent (dirOf oldDirName) with
    | .error e => return (.error (.fs e), s)
    | .ok () => return (.ok header, s)

/-- From the pointer file on: publish the new directory, then swap the handles. -/
def installDB (s : Store) (header : SnapshotHeader) (dbdir : Bytes) (newdb : Loc)
    (oldDirName : Bytes) : Disk (Except Err SnapshotHeader × Store) := do
  match ← saveCurrentDBDirName s.baseDir dbdir with
  | .error e =>
      cleanupNewDB dbdir
      return (.error e, s)
  | .ok () =>
    match ← replaceCurrentDBFile s.baseDir with
    | .error e =>
        cleanupNewDB dbdir
        return (.error e, s)
    | .ok () => dropOldDB { s with db := newdb } header oldDirName

/-- Fill the new database from the stream, then install it. -/
def fillDB (gz : Gzip) (s : Store) (header : SnapshotHeader) (dbdir : Bytes) (newdb : Loc)
    (oldDirName stream : Bytes) : Disk (Except Err SnapshotHeader × Store) := do
  match ← loadRecords gz newdb stream with
  | .error e =>
      cleanupNewDB dbdir
      return (.error e, s)
  | .ok () => installDB s header dbdir newdb oldDirName

/-- `store.recoverSnapShot`, with the store as it is afterwards. -/
def recoverSnapShot (gz : Gzip) (s : Store) (stamp : Stamp) (stream : Bytes) :
    Disk (Except Err SnapshotHeader × Store) := do
  match readSnapshotHeader stream with
  | .error e => return (.error (.header e), s)
  | .ok (header, rest) =>
    let dbdir := getNewRandomDBDirName s.baseDir stamp
    match ← getCurrentDBDirName .restore s.baseDir with
    | .error e => return (.error e, s)
    | .ok oldDirName =>
      match ← Proc.openDatabase .makeDbDir .initDb dbdir with
      | .error e => return (.error (.fs e), s)
      | .ok newdb => fillDB gz s header dbdir newdb oldDirName rest

end RaftExample
