import RaftExample.Documents
import RaftExample.RecoverSnapshot

/-!
# The state machine of a node

`fsm/apply.go` and `fsm/fsm.go`: commands are JSON documents, an `Insert` carries a
second document with the key and the value, and keys live in the column family of
their first byte.  Reads look at the open database, everything that writes is a
`Disk` computation.  JSON is a parameter.
-/

namespace RaftExample

structure CommandResponse where
  val : Bytes
  error : Option Err
deriving DecidableEq, Repr

/-! ### The store -/

/-- The byte of the default column family. -/
def cfDefault : UInt8 := 1

def buildColumnFamilyKey (cf : UInt8) (key : Bytes) : Bytes := cf :: key

/-- A missing key reads as the empty value. -/
def getBytes (s : Store) (fs : FS KV) (key : Bytes) : Except Err Bytes :=
  if s.closed then .error .closed
  else match fs[s.db]? with
    | some (.dir (.database content)) => .ok (content[key]?.getD [])
    | _ => .error (.fs .corrupt)

def query (s : Store) (fs : FS KV) (key : Bytes) : Except Err Bytes :=
  if s.closed then .error .closed
  else getBytes s fs (buildColumnFamilyKey cfDefault key)

/-- The effect of an `Insert` on the content. -/
def insertContent (payload : SetPayload) (content : KV) : KV :=
  content.insert (buildColumnFamilyKey cfDefault payload.key) payload.value

def insert (json : Json) (s : Store) (data : Bytes) : Disk (Option Err) := do
  match json.unmarshalPayload data with
  | none => return some .badPayload
  | some payload =>
    match ← Proc.commit .commitInsert s.db (insertContent payload) with
    | .error e => return some (.fs e)
    | .ok () => return none

def CommandResponse.ofRead : Except Err Bytes → CommandResponse
  | .ok val => ⟨val, none⟩
  | .error e => ⟨[], some e⟩

/-- `applyCommand` -/
def applyCommand (json : Json) (s : Store) (data : Bytes) : Disk CommandResponse := do
  match json.unmarshalCommand data with
  | none => return ⟨[], some .badCommand⟩
  | some command =>
    if command.type = cmdQuery then Proc.look fun fs => .ofRead (query s fs command.payload)
    else if command.type = cmdInsert then return ⟨[], ← insert json s command.payload⟩
    else return ⟨[], some .undefinedCommand⟩

/-- What a log entry is for: the content after it.  Only a well-formed `Insert` changes
    anything. -/
def appliedContent (json : Json) (data : Bytes) (content : KV) : KV :=
  match json.unmarshalCommand data with
  | none => content
  | some command =>
    if command.type = cmdInsert then
      match json.unmarshalPayload command.payload with
      | none => content
      | some payload => insertContent payload content
    else content

/-! ### The state machine -/

/-- Times and durations are nanoseconds. -/
structure SnapshotMetrics where
  lastSnapshotDuration : Int64
  lastSnapshotSize : Int64
  lastSnapshotRecords : UInt64
  lastSnapshotTime : Int64
  lastRestoreDuration : Int64
  lastRestoreTime : Int64
  snapshotCount : UInt64
  restoreCount : UInt64
deriving DecidableEq, Repr

def SnapshotMetrics.zero : SnapshotMetrics := ⟨0, 0, 0, 0, 0, 0, 0, 0⟩

/-- Channels are numbered in the order in which they are made; `closedChs` are the
    ones that were closed. -/
structure StateMachine where
  raftAddr : Bytes
  nodeId : Bytes
  fsmIndex : UInt64
  store : Store
  abandonCh : Nat
  closedChs : List Nat
  metrics : SnapshotMetrics
deriving DecidableEq

def newStateMachine (raftAddr nodeId dir : Bytes) (stamp : Stamp) :
    Disk (Except Err StateMachine) := do
  match ← newStore dir stamp with
  | .error e => return .error e
  | .ok store => return .ok ⟨raftAddr, nodeId, 0, store, 0, [], .zero⟩

namespace StateMachine

def updateFsmIndex (r : StateMachine) (index : UInt64) : StateMachine :=
  if r.fsmIndex < index then { r with fsmIndex := index } else r

def readLocal (r : StateMachine) (fs : FS KV) (key : Bytes) : CommandResponse :=
  .ofRead (query r.store fs key)

/-- Reads of an open store, in terms of the content of its database. -/
theorem readLocal_eq (r : StateMachine) {fs : FS KV} {content : KV}
    (hclosed : r.store.closed = false)
    (hlookup : fs[r.store.db]? = some (.dir (.database content))) (key : Bytes) :
    r.readLocal fs key = ⟨content[buildColumnFamilyKey cfDefault key]?.getD [], none⟩ := by
  simp [readLocal, query, getBytes, hclosed, hlookup, CommandResponse.ofRead]

/-- `Apply` of a log entry. -/
def apply (json : Json) (r : StateMachine) (index : UInt64) (data : Bytes) :
    Disk (CommandResponse × StateMachine) := do
  if r.store.closed then return (⟨[], some .closed⟩, r)
  else
    let r := { r with fsmIndex := index }
    return (← applyCommand json r.store data, r)

/-- What `Snapshot` captures: a Pebble snapshot, which later writes do not change,
    and the index. -/
structure Captured where
  snapshot : KV
  lastIndex : UInt64
  startTime : Int64
deriving DecidableEq

def snapshot (r : StateMachine) (fs : FS KV) (now : Int64) : Except Err Captured :=
  if r.store.closed then .error .closed
  else match fs[r.store.db]? with
    | some (.dir (.database content)) => .ok ⟨content, r.fsmIndex, now⟩
    | _ => .error (.fs .corrupt)

/-- `fsmSnapshot.Persist`; `created` goes into the header, `now` into the metrics. -/
def persist (gz : Gzip) (faults : SaveFaults) (r : StateMachine) (captured : Captured)
    (created now : Int64) (sink : Sink) : Except Err Unit × StateMachine × Sink :=
  match saveSnapShot gz faults r.nodeId captured.lastIndex created captured.snapshot sink with
  | (.error e, sink) => (.error e, r, sink)
  | (.ok result, sink) =>
      (.ok (), { r with metrics := { r.metrics with
        snapshotCount := r.metrics.snapshotCount + 1
        lastSnapshotDuration := now - captured.startTime
        lastSnapshotSize := result.size
        lastSnapshotRecords := result.records
        lastSnapshotTime := now } }, sink)

theorem persist_store {gz : Gzip} {faults : SaveFaults} {r r' : StateMachine} {captured : Captured}
    {created now : Int64} {sink sink' : Sink} {result : Except Err Unit}
    (h : r.persist gz faults captured created now sink = (result, r', sink')) :
    r'.store = r.store := by
  unfold persist at h
  split at h
  · cases h
    rfl
  · cases h
    rfl

/-- Put a new channel in place and close the old one. -/
def abandon (r : StateMachine) : StateMachine :=
  { r with abandonCh := r.abandonCh + 1, closedChs := r.abandonCh :: r.closedChs }

/-- The part of `Restore` after a successful recovery. -/
def adopt (r : StateMachine) (header : SnapshotHeader) (startTime now : Int64) : StateMachine :=
  let r := if header.lastIndex > 0 then { r with fsmIndex := header.lastIndex } else r
  let r := { r with metrics := { r.metrics with
    restoreCount := r.metrics.restoreCount + 1
    lastRestoreDuration := now - startTime
    lastRestoreTime := now } }
  r.abandon

@[simp] theorem adopt_store (r : StateMachine) (header : SnapshotHeader) (startTime now : Int64) :
    (r.adopt header startTime now).store = r.store := by
  unfold adopt
  split <;> rfl

@[simp] theorem adopt_abandonCh (r : StateMachine) (header : SnapshotHeader)
    (startTime now : Int64) : (r.adopt header startTime now).abandonCh = r.abandonCh + 1 := by
  unfold adopt
  split <;> rfl

@[simp] theorem adopt_closedChs (r : StateMachine) (header : SnapshotHeader)
    (startTime now : Int64) :
    (r.adopt header startTime now).closedChs = r.abandonCh :: r.closedChs := by
  unfold adopt
  split <;> rfl

/-- The index of the header is adopted, unless it is zero and the machine's is not. -/
theorem adopt_fsmIndex {r : StateMachine} {header : SnapshotHeader} {startTime now : Int64}
    (h : header.lastIndex ≠ 0 ∨ r.fsmIndex = 0) :
    (r.adopt header startTime now).fsmIndex = header.lastIndex := by
  unfold adopt
  split
  · rfl
  · rename_i hguard
    have hzero : header.lastIndex = 0 := UInt64.not_lt.mp hguard |> UInt64.le_zero_iff.mp
    rw [hzero]
    exact h.resolve_left fun hne => hne hzero

def restore (gz : Gzip) (r : StateMachine) (stamp : Stamp) (startTime now : Int64)
    (reader : Bytes) : Disk (Except Err Unit × StateMachine) := do
  if r.store.closed then return (.error .closed, r)
  else
    match ← recoverSnapShot gz r.store stamp reader with
    | (.error e, store) => return (.error e, { r with store := store })
    | (.ok header, store) =>
        return (.ok (), { r with store := store }.adopt header startTime now)

theorem restore_of_recovered {gz : Gzip} {r : StateMachine} {stamp : Stamp}
    {startTime now : Int64} {reader : Bytes} {env : Env Site} {fs fs' : FS KV}
    {header : SnapshotHeader} {s' : Store} (hclosed : r.store.closed = false)
    (hrun : recoverSnapShot gz r.store stamp reader env fs = (.value (.ok header, s'), fs')) :
    r.restore gz stamp startTime now reader env fs =
      (.value (.ok (), { r with store := s' }.adopt header startTime now), fs') := by
  simp [restore, hclosed, Proc.bind_run, hrun]

end StateMachine

end RaftExample
