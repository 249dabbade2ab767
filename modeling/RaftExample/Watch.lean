import RaftExample.Interleaving
import RaftExample.Replication

/-!
# Watching a key

`GRPCService.Watch`, `BlockingQuery` and `raftServer.Query` for local reads, one stream
next to the goroutines of raft and of the FSM.  Every access to something shared is a
step of its own: reading the value, reading the applied index, fetching the abandon
channel, choosing a ready case of the `select`, and, on the other side, handing an entry
to the FSM, counting it as applied, applying it, replacing the store in `Restore`, and the
two halves of `abandon`.
-/

namespace RaftExample

open Interleaving

/-! ### The node -/

/-- How far a `Restore` has come. -/
inductive RestorePhase where
  | idle
  /-- The store was replaced. -/
  | restored
  /-- A new channel is in place, the old one is not closed yet. -/
  | swapped (oldCh : Nat)
deriving DecidableEq, Repr

/-- What the stream shares with the rest of the node.  `log` are the entries raft has
    handed to the FSM goroutine, `appliedIndex` is how far raft has counted them as
    applied, `processed` is how many of them the FSM has applied to the store. -/
structure WatchedNode where
  content : KV
  log : List Bytes
  processed : Nat
  appliedIndex : Nat
  abandonCh : Nat
  closedChs : List Nat
  restoring : RestorePhase

/-- A node without entries. -/
def WatchedNode.new : WatchedNode := ⟨∅, [], 0, 0, 0, [], .idle⟩

/-- `ReadLocal` on an open store. -/
def WatchedNode.read (node : WatchedNode) (key : Bytes) : Bytes :=
  node.content[buildColumnFamilyKey cfDefault key]?.getD []

/-! ### The stream -/

structure WatchResponse where
  value : Bytes
  currentIndex : Nat
  abandoned : Bool
deriving DecidableEq, Repr

/-- Where the stream is.  `first` marks the query at the start of a `BlockingQuery`,
    the others are made when the ticker fires. -/
inductive WatchPC where
  | top
  | reading (first : Bool)
  | indexing (first : Bool) (value : Bytes)
  | fetching (value : Bytes) (currentIndex : Nat)
  | parked (value : Bytes) (currentIndex : Nat) (ch : Nat)
  | sending (resp : WatchResponse)
  | done
deriving DecidableEq, Repr

/-- What an observer of the stream and of `abandon` sees. -/
inductive WatchEvent where
  | read
  | sent (resp : WatchResponse)
  | abandoned
deriving DecidableEq, Repr

/-- The history is a ghost, with the latest event first. -/
structure WatchState where
  node : WatchedNode
  pc : WatchPC
  minIndex : Nat
  history : List WatchEvent

/-- A stream before its first step. -/
def WatchState.start (node : WatchedNode) (minIndex : Nat) : WatchState :=
  ⟨node, .top, minIndex, []⟩

inductive WatchAction where
  -- raft and the FSM goroutine
  | handOver (data : Bytes)
  | process
  | restore (content : KV)
  | setAppliedIndex (index : Nat)
  | swapCh
  | closeCh
  -- the stream
  | cancel
  | query
  | readLocal
  | readFails
  | readIndex
  | fetchCh
  | timeout
  | wake
  | tick
  | send
  | sendFails

/-- Steps of raft and the FSM.  Raft counts entries once it has handed them over, and after
    a `Restore` it sets the applied index to that of the snapshot.  A `Restore` runs on the
    goroutine that applies entries. -/
def WatchedNode.step (json : Json) (action : WatchAction) (node : WatchedNode) :
    Option WatchedNode :=
  match action with
  | .handOver data => some { node with log := node.log ++ [data] }
  | .process =>
      match node.restoring, node.log[node.processed]? with
      | .idle, some data =>
          some { node with content := appliedContent json data node.content
                           processed := node.processed + 1 }
      | _, _ => none
  | .restore content =>
      match node.restoring with
      | .idle => some { node with content := content, restoring := .restored }
      | _ => none
  | .setAppliedIndex index => some { node with appliedIndex := index }
  | .swapCh =>
      match node.restoring with
      | .restored => some { node with abandonCh := node.abandonCh + 1
                                      restoring := .swapped node.abandonCh }
      | _ => none
  | .closeCh =>
      match node.restoring with
      | .swapped oldCh => some { node with closedChs := oldCh :: node.closedChs
                                           restoring := .idle }
      | _ => none
  | _ => none

/-- After a query: return its result, or wait. -/
def afterIndex (minIndex : Nat) (first : Bool) (value : Bytes) (currentIndex : Nat) : WatchPC :=
  if (first = true ∧ minIndex = 0) ∨ minIndex ≤ currentIndex then
    .sending ⟨value, currentIndex, false⟩
  else .fetching value currentIndex

/-- The next `min_index` of the loop in `Watch`, in 64 bits. -/
def nextMinIndex (resp : WatchResponse) : Nat :=
  if resp.abandoned then 0 else (resp.currentIndex + 1) % 2 ^ 64

/-- Steps of the stream. -/
def WatchState.streamStep (key : Bytes) (action : WatchAction) (s : WatchState) :
    Option WatchState :=
  match action, s.pc with
  | .cancel, .top => some { s with pc := .done }
  | .query, .top => some { s with pc := .reading true }
  | .readLocal, .reading first =>
      some { s with pc := .indexing first (s.node.read key), history := .read :: s.history }
  | .readFails, .reading _ => some { s with pc := .done }
  | .readIndex, .indexing first value =>
      some { s with pc := afterIndex s.minIndex first value s.node.appliedIndex }
  | .fetchCh, .fetching value currentIndex =>
      some { s with pc := .parked value currentIndex s.node.abandonCh }
  | .timeout, .parked value currentIndex _ =>
      some { s with pc := .sending ⟨value, currentIndex, false⟩ }
  | .wake, .parked _ _ ch =>
      if ch ∈ s.node.closedChs then some { s with pc := .sending ⟨[], 0, true⟩ } else none
  | .tick, .parked _ _ _ => some { s with pc := .reading false }
  | .send, .sending resp =>
      some { s with pc := .top, minIndex := nextMinIndex resp, history := .sent resp :: s.history }
  | .sendFails, .sending _ => some { s with pc := .done }
  | _, _ => none

/-- The events of the node an observer sees: `abandon` is over when the old channel is
    closed. -/
def noted (action : WatchAction) (history : List WatchEvent) : List WatchEvent :=
  match action with
  | .closeCh => .abandoned :: history
  | _ => history

/-- One step of the node or of the stream. -/
def WatchState.step (json : Json) (key : Bytes) (action : WatchAction) (s : WatchState) :
    Option WatchState :=
  match s.node.step json action with
  | some node => some { s with node := node, history := noted action s.history }
  | none => s.streamStep key action

/-- A node without entries; the stream starts whenever its first step is taken. -/
def WatchState.Initial (s : WatchState) : Prop :=
  s.node = .new ∧ s.pc = .top ∧ s.history = []

/-! ### What a step can do -/

/-- The steps of the node, one by one. -/
inductive NodeStep (json : Json) (node : WatchedNode) : WatchAction → WatchedNode → Prop
  | handOver (data : Bytes) : NodeStep json node (.handOver data)
      { node with log := node.log ++ [data] }
  | process {data : Bytes} (hidle : node.restoring = .idle)
      (hdata : node.log[node.processed]? = some data) : NodeStep json node .process
      { node with content := appliedContent json data node.content
                  processed := node.processed + 1 }
  | restore (content : KV) (hidle : node.restoring = .idle) :
      NodeStep json node (.restore content) { node with content := content, restoring := .restored }
  | setAppliedIndex (index : Nat) : NodeStep json node (.setAppliedIndex index)
      { node with appliedIndex := index }
  | swapCh (hrestored : node.restoring = .restored) : NodeStep json node .swapCh
      { node with abandonCh := node.abandonCh + 1, restoring := .swapped node.abandonCh }
  | closeCh {oldCh : Nat} (hswapped : node.restoring = .swapped oldCh) :
      NodeStep json node .closeCh
        { node with closedChs := oldCh :: node.closedChs, restoring := .idle }

/-- The steps of the stream, one by one. -/
inductive StreamStep (key : Bytes) (s : WatchState) : WatchAction → WatchState → Prop
  | cancel (hpc : s.pc = .top) : StreamStep key s .cancel { s with pc := .done }
  | query (hpc : s.pc = .top) : StreamStep key s .query { s with pc := .reading true }
  | readLocal {first : Bool} (hpc : s.pc = .reading first) : StreamStep key s .readLocal
      { s with pc := .indexing first (s.node.read key), history := .read :: s.history }
  | readFails {first : Bool} (hpc : s.pc = .reading first) :
      StreamStep key s .readFails { s with pc := .done }
  | readIndex {first : Bool} {value : Bytes} (hpc : s.pc = .indexing first value) :
      StreamStep key s .readIndex
        { s with pc := afterIndex s.minIndex first value s.node.appliedIndex }
  | fetchCh {value : Bytes} {currentIndex : Nat} (hpc : s.pc = .fetching value currentIndex) :
      StreamStep key s .fetchCh { s with pc := .parked value currentIndex s.node.abandonCh }
  | timeout {value : Bytes} {currentIndex ch : Nat} (hpc : s.pc = .parked value currentIndex ch) :
      StreamStep key s .timeout { s with pc := .sending ⟨value, currentIndex, false⟩ }
  | wake {value : Bytes} {currentIndex ch : Nat} (hpc : s.pc = .parked value currentIndex ch)
      (hclosed : ch ∈ s.node.closedChs) :
      StreamStep key s .wake { s with pc := .sending ⟨[], 0, true⟩ }
  | tick {value : Bytes} {currentIndex ch : Nat} (hpc : s.pc = .parked value currentIndex ch) :
      StreamStep key s .tick { s with pc := .reading false }
  | send {resp : WatchResponse} (hpc : s.pc = .sending resp) : StreamStep key s .send
      { s with pc := .top, minIndex := nextMinIndex resp, history := .sent resp :: s.history }
  | sendFails {resp : WatchResponse} (hpc : s.pc = .sending resp) :
      StreamStep key s .sendFails { s with pc := .done }

section Steps

variable {json : Json} {key : Bytes} {node node' : WatchedNode} {s s' : WatchState}
  {action : WatchAction}

theorem WatchedNode.step_spec (hstep : node.step json action = some node') :
    NodeStep json node action node' := by
  cases action with
  | handOver data =>
    obtain rfl := Option.some.inj hstep
    exact .handOver data
  | process =>
    simp only [WatchedNode.step] at hstep
    split at hstep
    · rename_i data hidle hdata
      obtain rfl := Option.some.inj hstep
      exact .process hidle hdata
    · simp at hstep
  | restore content =>
    simp only [WatchedNode.step] at hstep
    split at hstep
    · rename_i hidle
      obtain rfl := Option.some.inj hstep
      exact .restore content hidle
    · simp at hstep
  | setAppliedIndex index =>
    obtain rfl := Option.some.inj hstep
    exact .setAppliedIndex index
  | swapCh =>
    simp only [WatchedNode.step] at hstep
    split at hstep
    · rename_i hrestored
      obtain rfl := Option.some.inj hstep
      exact .swapCh hrestored
    · simp at hstep
  | closeCh =>
    simp only [WatchedNode.step] at hstep
    split at hstep
    · rename_i oldCh hswapped
      obtain rfl := Option.some.inj hstep
      exact .closeCh hswapped
    · simp at hstep
  | _ => simp [WatchedNode.step] at hstep

theorem WatchState.streamStep_spec (hstep : s.streamStep key action = some s') :
    StreamStep key s action s' := by
  unfold WatchState.streamStep at hstep
  split at hstep
  · rename_i hpc
    obtain rfl := Option.some.inj hstep
    exact .cancel hpc
  · rename_i hpc
    obtain rfl := Option.some.inj hstep
    exact .query hpc
  · rename_i hpc
    obtain rfl := Option.some.inj hstep
    exact .readLocal hpc
  · rename_i hpc
    obtain rfl := Option.some.inj hstep
    exact .readFails hpc
  · rename_i hpc
    obtain rfl := Option.some.inj hstep
    exact .readIndex hpc
  · rename_i hpc
    obtain rfl := Option.some.inj hstep
    exact .fetchCh hpc
  · rename_i hpc
    obtain rfl := Option.some.inj hstep
    exact .timeout hpc
  · rename_i hpc
    split at hstep
    · rename_i hclosed
      obtain rfl := Option.some.inj hstep
      exact .wake hpc hclosed
    · simp at hstep
  · rename_i hpc
    obtain rfl := Option.some.inj hstep
    exact .tick hpc
  · rename_i hpc
    obtain rfl := Option.some.inj hstep
    exact .send hpc
  · rename_i hpc
    obtain rfl := Option.some.inj hstep
    exact .sendFails hpc
  · simp at hstep

/-- A step is one of the node, which the stream only sees, or one of the stream, which
    leaves the node alone. -/
theorem WatchState.step_cases (hstep : s.step json key action = some s') :
    (∃ node', NodeStep json s.node action node' ∧
      s' = { s with node := node', history := noted action s.history }) ∨
      StreamStep key s action s' := by
  unfold WatchState.step at hstep
  cases hnode : s.node.step json action with
  | some node' =>
    rw [hnode] at hstep
    exact .inl ⟨node', WatchedNode.step_spec hnode, (Option.some.inj hstep).symm⟩
  | none =>
    rw [hnode] at hstep
    exact .inr (WatchState.streamStep_spec hstep)

end Steps

/-! ### The state machine behind the node -/

/-- A state machine and its disk, seen through what a stream can observe. -/
structure WatchedNode.Shows (cwd : Loc) (r : StateMachine) (fs : FS KV) (node : WatchedNode) :
    Prop where
  opened : r.store.closed = false
  serving : ∃ name, Serving cwd r.store fs name node.content
  abandonCh : r.abandonCh = node.abandonCh
  closedChs : r.closedChs = node.closedChs

section Shows

variable {json : Json} {gz : Gzip} {cwd : Loc} {r : StateMachine} {fs : FS KV} {node : WatchedNode}

theorem WatchedNode.Shows.readLocal (h : node.Shows cwd r fs) (key : Bytes) :
    r.readLocal fs key = ⟨node.read key, none⟩ := by
  obtain ⟨name, hserving⟩ := h.serving
  exact r.readLocal_eq h.opened hserving.lookup key

/-- `Apply` is the step `process`. -/
theorem WatchedNode.Shows.apply (h : node.Shows cwd r fs) {data : Bytes} (index : UInt64) :
    ∃ resp r' fs', r.apply json index data (.fair cwd) fs = (.value (resp, r'), fs') ∧
      WatchedNode.Shows cwd r' fs' { node with
        content := appliedContent json data node.content, processed := node.processed + 1 } := by
  obtain ⟨name, hserving⟩ := h.serving
  obtain ⟨resp, fs', hrun, hserving'⟩ := apply_fair index data h.opened hserving
  exact ⟨resp, _, fs', hrun, h.opened, ⟨name, hserving'⟩, h.abandonCh, h.closedChs⟩

/-- A successful `Restore` is the steps `restore`, `swapCh` and `closeCh`. -/
theorem WatchedNode.Shows.restore (h : node.Shows cwd r fs) (hidle : node.restoring = .idle)
    {stamp : Stamp} {startTime now : Int64} {stream : Bytes} {header : SnapshotHeader}
    {records : List (Bytes × Bytes)} (haccepts : Accepts gz stream header records)
    (hfresh : fs[targetOf (.fair cwd) r.store stamp]? = none) :
    ∃ r' fs' restored swapped closed,
      r.restore gz stamp startTime now stream (.fair cwd) fs = (.value (.ok (), r'), fs') ∧
      NodeStep json node (.restore (applyBatch records ∅)) restored ∧
      NodeStep json restored .swapCh swapped ∧ NodeStep json swapped .closeCh closed ∧
      closed.Shows cwd r' fs' := by
  obtain ⟨name, hserving⟩ := h.serving
  obtain ⟨s', fs', hrun, hclosed, hserving'⟩ :=
    recoverSnapShot_of_accepts (Env.fair_allOk cwd) hserving.toPointsTo hfresh haccepts
  refine ⟨_, fs', _, _, _, StateMachine.restore_of_recovered h.opened hrun, .restore _ hidle,
    .swapCh rfl, .closeCh rfl, ?_, ?_, ?_, ?_⟩
  · simpa [hclosed] using h.opened
  · rw [StateMachine.adopt_store]
    exact ⟨stampName stamp, hserving'⟩
  · simp [h.abandonCh]
  · simp [h.abandonCh, h.closedChs]

end Shows

end RaftExample
