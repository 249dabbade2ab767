import RaftExample.WatchUpdates

/-!
# Watching a key without a stream

`WatchKey` is the loop of `Watch` with a callback in place of the stream, written a second
time.  It passes `lastIndex + 1` to `BlockingQuery`, so it starts at index one, and after an
abandoned result it starts at one again where `Watch` asks for an answer at once.  Apart
from that difference it calls back with what a stream that starts at index one would send.
-/

namespace RaftExample

open Interleaving

/-! ### The loop -/

/-- `lastIndex + 1` after a callback, in 64 bits. -/
def nextKeyIndex (resp : WatchResponse) : Nat :=
  if resp.abandoned then 1 else (resp.currentIndex + 1) % 2 ^ 64

/-- A step of the node or of `WatchKey`.  The callback is the `send` of the stream. -/
def WatchState.keyStep (json : Json) (key : Bytes) (action : WatchAction) (s : WatchState) :
    Option WatchState :=
  match action, s.pc with
  | .send, .sending resp =>
      some { s with pc := .top, minIndex := nextKeyIndex resp, history := .sent resp :: s.history }
  | _, _ => s.step json key action

/-! ### The same schedules -/

/-- The last response was an abandoned one. -/
def afterAbandon : List WatchEvent → Bool
  | [] => false
  | .sent resp :: _ => resp.abandoned
  | _ :: older => afterAbandon older

/-- A query that follows an abandoned response finds an applied index. -/
def counted (s : WatchState) : WatchAction → Bool
  | .readIndex => !afterAbandon s.history || decide (0 < s.node.appliedIndex)
  | _ => true

/-- Not yet past the first index of a `BlockingQuery`, or with its result. -/
def WatchPC.fresh : WatchPC → Bool
  | .top | .reading true | .indexing true _ | .sending _ | .done => true
  | _ => false

/-- What can be seen of a watcher. -/
def WatchState.observed (s : WatchState) : WatchedNode × WatchPC × List WatchEvent :=
  (s.node, s.pc, s.history)

/-- `WatchKey` and `Watch` differ in the index they wait for at most after an abandoned
    response, until the next query is over. -/
structure Alike (k w : WatchState) : Prop where
  node : w.node = k.node
  pc : w.pc = k.pc
  history : w.history = k.history
  minIndex : k.minIndex = w.minIndex ∨
    (k.minIndex = 1 ∧ w.minIndex = 0 ∧ afterAbandon k.history = true ∧ k.pc.fresh = true)

section Alike

variable {json : Json} {key : Bytes} {k w : WatchState} {action : WatchAction}

theorem Alike.counted_eq (h : Alike k w) : counted k action = counted w action := by
  cases action with
  | readIndex => simp only [counted, h.history, h.node]
  | _ => rfl

/-- Both move on to the same place, and what sets them apart stays. -/
theorem Alike.move (h : Alike k w) {node : WatchedNode} {pc : WatchPC} {history : List WatchEvent}
    (hfresh : k.pc.fresh = true → pc.fresh = true)
    (hhistory : afterAbandon history = afterAbandon k.history) :
    Alike ⟨node, pc, k.minIndex, history⟩ ⟨node, pc, w.minIndex, history⟩ := by
  refine ⟨rfl, rfl, rfl, h.minIndex.imp id ?_⟩
  rintro ⟨hk, hw, hafter, hpc⟩
  exact ⟨hk, hw, hhistory.trans hafter, hfresh hpc⟩

theorem WatchState.keyStep_eq (hsend : action ≠ .send) :
    k.keyStep json key action = k.step json key action := by
  cases action with
  | send => exact absurd rfl hsend
  | _ => rfl

/-- After a query: where the two wait for different indices, both have an answer. -/
theorem Alike.readIndex (h : Alike k w) {first : Bool} {value : Bytes}
    (hpc : k.pc = .indexing first value) (hcounted : counted k .readIndex = true) :
    Alike { k with pc := afterIndex k.minIndex first value k.node.appliedIndex }
      { w with pc := afterIndex w.minIndex first value w.node.appliedIndex } := by
  rcases h.minIndex with hsame | ⟨hk, hw, hafter, hfresh⟩
  · refine ⟨h.node, ?_, h.history, .inl hsame⟩
    simp only [hsame, h.node]
  · have hindex : 0 < k.node.appliedIndex := by simpa [counted, hafter] using hcounted
    obtain rfl : first = true := by
      cases first with
      | true => rfl
      | false => simp [hpc, WatchPC.fresh] at hfresh
    have hanswer : afterIndex k.minIndex true value k.node.appliedIndex =
        .sending ⟨value, k.node.appliedIndex, false⟩ := if_pos (.inr (by omega))
    have hanswer' : afterIndex w.minIndex true value w.node.appliedIndex =
        .sending ⟨value, k.node.appliedIndex, false⟩ := by
      rw [h.node]
      exact if_pos (.inl ⟨rfl, hw⟩)
    rw [hanswer, hanswer']
    exact ⟨h.node, rfl, h.history, .inr ⟨hk, hw, hafter, rfl⟩⟩

/-- The one step in which they differ. -/
theorem Alike.send (h : Alike k w) (resp : WatchResponse) :
    Alike { k with pc := .top, minIndex := nextKeyIndex resp, history := .sent resp :: k.history }
      { w with pc := .top, minIndex := nextMinIndex resp, history := .sent resp :: w.history } := by
  refine ⟨h.node, rfl, by rw [h.history], ?_⟩
  cases habandoned : resp.abandoned with
  | true => simp [nextKeyIndex, nextMinIndex, afterAbandon, WatchPC.fresh, habandoned]
  | false => simp [nextKeyIndex, nextMinIndex, habandoned]

theorem Alike.streamStep (h : Alike k w) (hcounted : counted k action = true)
    (hsend : action ≠ .send) :
    Option.Rel Alike (k.streamStep key action) (w.streamStep key action) := by
  unfold WatchState.streamStep
  rw [h.pc, h.history, h.node]
  split
  · exact .some (h.move (fun _ => rfl) rfl)
  · exact .some (h.move (fun _ => rfl) rfl)
  · rename_i first hpc
    refine .some (h.move ?_ rfl)
    rw [hpc]
    cases first <;> exact id
  · exact .some (h.move (fun _ => rfl) rfl)
  · rename_i first value hpc
    have hread := h.readIndex hpc hcounted
    rw [h.history, h.node] at hread
    exact .some hread
  · rename_i hpc
    exact .some (h.move (by simp [hpc, WatchPC.fresh]) rfl)
  · exact .some (h.move (fun _ => rfl) rfl)
  · split
    · exact .some (h.move (fun _ => rfl) rfl)
    · exact .none
  · rename_i hpc
    exact .some (h.move (by simp [hpc, WatchPC.fresh]) rfl)
  · exact absurd rfl hsend
  · exact .some (h.move (fun _ => rfl) rfl)
  · exact .none

theorem afterAbandon_noted (history : List WatchEvent) :
    afterAbandon (noted action history) = afterAbandon history := by
  cases action <;> rfl

theorem Alike.step (h : Alike k w) (hcounted : counted k action = true) :
    Option.Rel Alike (k.keyStep json key action) (w.step json key action) := by
  by_cases hsend : action = .send
  · subst hsend
    unfold WatchState.keyStep WatchState.step WatchState.streamStep
    simp only [WatchedNode.step, h.pc]
    cases k.pc with
    | sending resp => exact .some (h.send resp)
    | _ => exact .none
  · rw [WatchState.keyStep_eq hsend]
    unfold WatchState.step
    rw [h.node]
    cases k.node.step json action with
    | some node =>
      refine .some ?_
      rw [h.pc, h.history]
      exact h.move id (afterAbandon_noted _)
    | none => exact h.streamStep hcounted hsend

end Alike

/-- In every schedule in which a query after an abandoned response finds an applied index,
    `WatchKey` takes the steps of a stream that `Watch` starts at index one, and calls back
    with what that stream sends. -/
theorem watchKey_follows_watch (json : Json) (key : Bytes) (node : WatchedNode)
    (actions : List WatchAction) :
    (run (WatchState.keyStep json key) (fun s action => counted s action = true) actions
        (.start node 1)).map WatchState.observed =
      (run (WatchState.step json key) (fun s action => counted s action = true) actions
        (.start node 1)).map WatchState.observed := by
  have hstart : Alike (.start node 1) (.start node 1) := ⟨rfl, rfl, rfl, .inl rfl⟩
  have hallowed : ∀ (k w : WatchState) action, Alike k w →
      (counted k action = true ↔ counted w action = true) := by
    intro k w action h
    rw [h.counted_eq]
  have hstep : ∀ (k w : WatchState) action, Alike k w → counted k action = true →
      Option.Rel Alike (k.keyStep json key action) (w.step json key action) :=
    fun _ _ _ h hcounted => h.step hcounted
  refine map_eq_of_rel (run_rel hallowed hstep actions hstart) fun k w h => ?_
  simp only [WatchState.observed, h.node, h.pc, h.history]

/-- A restore of an empty store is announced to a watcher on a node without entries. -/
def restoredEmpty : List WatchAction :=
  [.query, .readLocal, .readIndex, .fetchCh, .restore ∅, .swapCh, .closeCh, .wake, .send,
    .query, .readLocal, .readIndex]

-- the stream then answers at once, `WatchKey` waits for the first entry
example :
    (run (WatchState.keyStep goJson [107]) (fun _ _ => True) restoredEmpty
      (.start .new 1)).map WatchState.pc = some (.fetching [] 0) ∧
    (run (WatchState.step goJson [107]) (fun _ _ => True) restoredEmpty
      (.start .new 1)).map WatchState.pc =
        some (.sending ⟨[], 0, false⟩) := by
  decide +kernel

/-! ### The indices of the responses -/

/-- The indices of the responses, the latest first. -/
def sentIndices : List WatchEvent → List Nat
  | [] => []
  | .sent resp :: older => resp.currentIndex :: sentIndices older
  | _ :: older => sentIndices older

/-- A stream, and how each of its responses came about.  `timedOut` is whether the
    `BlockingQuery` at hand has run into its timeout, and `responses` lists the index of
    each response with what that was for its own `BlockingQuery`, the latest first.  Both
    are ghosts. -/
structure TaggedStream where
  stream : WatchState
  timedOut : Bool
  responses : List (Nat × Bool)

/-- What the ghosts make of an action of the stream. -/
def TaggedStream.after (t : TaggedStream) (action : WatchAction) (s : WatchState) :
    TaggedStream where
  stream := s
  timedOut :=
    match action with
    | .query => false
    | .timeout => true
    | _ => t.timedOut
  responses :=
    match action, t.stream.pc with
    | .send, .sending resp => (resp.currentIndex, t.timedOut) :: t.responses
    | _, _ => t.responses

def TaggedStream.step (json : Json) (key : Bytes) (action : WatchAction) (t : TaggedStream) :
    Option TaggedStream :=
  (t.stream.step json key action).map (t.after action)

def TaggedStream.Initial (t : TaggedStream) : Prop := t.stream.Initial ∧ t.responses = []

/-- The applied index stays below the last 64-bit number. -/
def inRange : WatchAction → Bool
  | .setAppliedIndex index => decide (index + 1 < 2 ^ 64)
  | _ => true

/-- The indices never go back, and a response whose `BlockingQuery` has not run into its
    timeout has a larger one than all before it. -/
def Ascending (responses : List (Nat × Bool)) : Prop :=
  responses.Pairwise fun later earlier =>
    earlier.1 ≤ later.1 ∧ (later.2 = false → earlier.1 < later.1)

theorem Ascending.cons {index : Nat} {timedOut : Bool} {responses : List (Nat × Bool)}
    (h : Ascending responses)
    (hlast : ∀ last ∈ responses.head?, last.1 ≤ index ∧ (timedOut = false → last.1 < index)) :
    Ascending ((index, timedOut) :: responses) := by
  refine List.pairwise_cons.mpr ⟨?_, h⟩
  cases responses with
  | nil => simp
  | cons last older =>
    obtain ⟨hle, hlt⟩ := hlast last rfl
    intro earlier hearlier
    rcases List.mem_cons.mp hearlier with rfl | holder
    · exact ⟨hle, hlt⟩
    · have hbefore := ((List.pairwise_cons.mp h).1 earlier holder).1
      exact ⟨Nat.le_trans hbefore hle, fun hnone => Nat.lt_of_le_of_lt hbefore (hlt hnone)⟩

/-- The index a watcher holds is applied, and not below that of its last response. -/
def HoldsIndex (timedOut : Bool) (applied : Nat) (last : Option (Nat × Bool)) : WatchPC → Prop
  | .fetching _ index | .parked _ index _ => index ≤ applied ∧ ∀ r ∈ last, r.1 ≤ index
  | .sending resp => resp.abandoned = false ∧ resp.currentIndex ≤ applied ∧
      ∀ r ∈ last, r.1 ≤ resp.currentIndex ∧ (timedOut = false → r.1 < resp.currentIndex)
  | _ => True

structure TaggedStream.Indexed (t : TaggedStream) : Prop where
  unclosed : t.stream.node.closedChs = []
  range : t.stream.node.appliedIndex + 1 < 2 ^ 64
  pc : HoldsIndex t.timedOut t.stream.node.appliedIndex t.responses.head? t.stream.pc
  last : ∀ r ∈ t.responses.head?,
    r.1 ≤ t.stream.node.appliedIndex ∧ t.stream.minIndex = r.1 + 1
  history : sentIndices t.stream.history = t.responses.map Prod.fst
  sent : Ascending t.responses

section Indexed

variable {json : Json} {key : Bytes} {t : TaggedStream} {s' : WatchState} {action : WatchAction}

theorem HoldsIndex.mono {timedOut : Bool} {applied applied' : Nat} {last : Option (Nat × Bool)}
    {pc : WatchPC} (h : HoldsIndex timedOut applied last pc) (hle : applied ≤ applied') :
    HoldsIndex timedOut applied' last pc := by
  cases pc with
  | fetching value index => exact ⟨Nat.le_trans h.1 hle, h.2⟩
  | parked value index ch => exact ⟨Nat.le_trans h.1 hle, h.2⟩
  | sending resp => exact ⟨h.1, Nat.le_trans h.2.1 hle, h.2.2⟩
  | _ => trivial

theorem TaggedStream.Indexed.nodeStep {node' : WatchedNode} (h : t.Indexed)
    (hnone : noRestore t.stream action = true) (hrange : inRange action = true)
    (hstep : NodeStep json t.stream.node action node') :
    (t.after action
      { t.stream with node := node', history := noted action t.stream.history }).Indexed := by
  cases hstep with
  | handOver data => exact ⟨h.unclosed, h.range, h.pc, h.last, h.history, h.sent⟩
  | process hidle hdata => exact ⟨h.unclosed, h.range, h.pc, h.last, h.history, h.sent⟩
  | setAppliedIndex index =>
    have hcounts : t.stream.node.appliedIndex ≤ index ∧ index ≤ t.stream.node.log.length := by
      simpa [noRestore] using hnone
    have hbelow : index + 1 < 2 ^ 64 := of_decide_eq_true hrange
    refine ⟨h.unclosed, hbelow, h.pc.mono hcounts.1, ?_, h.history, h.sent⟩
    intro r hr
    exact ⟨Nat.le_trans (h.last r hr).1 hcounts.1, (h.last r hr).2⟩
  | _ => simp [noRestore] at hnone

/-- The result of a query: with an answer the index is above that of the last one. -/
theorem TaggedStream.Indexed.readIndex (h : t.Indexed) (first : Bool) (value : Bytes) :
    HoldsIndex t.timedOut t.stream.node.appliedIndex t.responses.head?
      (afterIndex t.stream.minIndex first value t.stream.node.appliedIndex) := by
  unfold afterIndex
  split
  · rename_i hanswer
    refine ⟨rfl, Nat.le_refl _, fun r hr => ?_⟩
    obtain ⟨hle, hmin⟩ := h.last r hr
    have hreached : t.stream.minIndex ≤ t.stream.node.appliedIndex :=
      hanswer.resolve_left (by omega)
    exact ⟨hle, fun _ => (by omega : r.1 < t.stream.node.appliedIndex)⟩
  · exact ⟨Nat.le_refl _, fun r hr => (h.last r hr).1⟩

theorem TaggedStream.Indexed.send (h : t.Indexed) {resp : WatchResponse}
    (hpc : t.stream.pc = .sending resp) :
    (t.after .send { t.stream with
      pc := .top, minIndex := nextMinIndex resp
      history := .sent resp :: t.stream.history }).Indexed := by
  have hheld := h.pc
  rw [hpc] at hheld
  obtain ⟨habandoned, happlied, hlast⟩ := hheld
  have hresponses : (t.after .send { t.stream with
      pc := .top, minIndex := nextMinIndex resp
      history := .sent resp :: t.stream.history }).responses =
        (resp.currentIndex, t.timedOut) :: t.responses := by
    simp only [TaggedStream.after, hpc]
  refine ⟨h.unclosed, h.range, trivial, ?_, ?_, ?_⟩
  · intro r hr
    rw [hresponses] at hr
    obtain rfl := Option.some.inj hr
    have hrange := h.range
    refine ⟨happlied, ?_⟩
    simp only [TaggedStream.after, nextMinIndex, habandoned, Bool.false_eq_true, if_false]
    exact Nat.mod_eq_of_lt (by omega)
  · rw [hresponses, List.map_cons, ← h.history]
    rfl
  · rw [hresponses]
    exact h.sent.cons hlast

theorem TaggedStream.Indexed.streamStep (h : t.Indexed) (hstep : StreamStep key t.stream action s') :
    (t.after action s').Indexed := by
  obtain ⟨hunclosed, hrange, hheld, hlast, hhistory, hsent⟩ := id h
  cases hstep with
  | cancel hpc => exact ⟨hunclosed, hrange, trivial, hlast, hhistory, hsent⟩
  | query hpc => exact ⟨hunclosed, hrange, trivial, hlast, hhistory, hsent⟩
  | readLocal hpc => exact ⟨hunclosed, hrange, trivial, hlast, hhistory, hsent⟩
  | readFails hpc => exact ⟨hunclosed, hrange, trivial, hlast, hhistory, hsent⟩
  | readIndex hpc => exact ⟨hunclosed, hrange, h.readIndex _ _, hlast, hhistory, hsent⟩
  | fetchCh hpc =>
    rw [hpc] at hheld
    exact ⟨hunclosed, hrange, hheld, hlast, hhistory, hsent⟩
  | timeout hpc =>
    -- from here on the query is marked, and its response may repeat the last index
    rw [hpc] at hheld
    refine ⟨hunclosed, hrange, ⟨rfl, hheld.1, fun r hr => ⟨hheld.2 r hr, ?_⟩⟩, hlast, hhistory,
      hsent⟩
    simp [TaggedStream.after]
  | wake hpc hclosed => simp [hunclosed] at hclosed
  | tick hpc => exact ⟨hunclosed, hrange, trivial, hlast, hhistory, hsent⟩
  | send hpc => exact h.send hpc
  | sendFails hpc => exact ⟨hunclosed, hrange, trivial, hlast, hhistory, hsent⟩

theorem TaggedStream.Initial.indexed (h : t.Initial) : t.Indexed := by
  obtain ⟨⟨hnode, hpc, hhistory⟩, hresponses⟩ := h
  refine ⟨by rw [hnode]; rfl, by rw [hnode]; decide, by rw [hpc]; trivial, ?_, ?_, ?_⟩
  · simp [hresponses]
  · rw [hhistory, hresponses]
    rfl
  · rw [hresponses]
    exact List.Pairwise.nil

/-- Without a `Restore`, and as long as the applied index is below the last 64-bit number:
    the indices of the responses of a stream never go back, and a response has the index of
    an earlier one only if its own `BlockingQuery` has run into its timeout. -/
theorem watch_indices_ascend
    (hreached : Reached (TaggedStream.step json key) (fun t action =>
      noRestore t.stream action = true ∧ inRange action = true) TaggedStream.Initial t) :
    sentIndices t.stream.history = t.responses.map Prod.fst ∧ Ascending t.responses := by
  have hindexed : t.Indexed := by
    refine hreached.invariant (fun _ hinit => hinit.indexed) ?_
    rintro t action t' h ⟨hnone, hrange⟩ hstep
    obtain ⟨s', hstream, rfl⟩ := Option.map_eq_some_iff.mp hstep
    rcases WatchState.step_cases hstream with ⟨node', hnode, rfl⟩ | hstream
    · exact h.nodeStep hnone hrange hnode
    · exact h.streamStep hstream
  exact ⟨hindexed.history, hindexed.sent⟩

end Indexed

/-- An entry, and a `BlockingQuery` that finds it at once. -/
def answeredEntry (index : Nat) : List WatchAction :=
  [.handOver soloEntry, .setAppliedIndex index, .query, .readLocal, .readIndex, .send]

/-- Two entries with a response each, and a third response because of a timeout. -/
theorem watch_indices_ascend_timedOut :
    ∃ t, run (TaggedStream.step goJson [107]) (fun t action =>
        noRestore t.stream action = true ∧ inRange action = true)
        (answeredEntry 1 ++ answeredEntry 2 ++
          [.query, .readLocal, .readIndex, .fetchCh, .timeout, .send])
        ⟨.start .new 1, false, []⟩ = some t ∧
      t.responses = [(2, true), (2, false), (1, false)] ∧ Ascending t.responses := by
  have hends : (run (TaggedStream.step goJson [107]) (fun t action =>
      noRestore t.stream action = true ∧ inRange action = true)
      (answeredEntry 1 ++ answeredEntry 2 ++
        [.query, .readLocal, .readIndex, .fetchCh, .timeout, .send])
      ⟨.start .new 1, false, []⟩).any (fun t =>
        t.responses = [(2, true), (2, false), (1, false)]) = true := by decide +kernel
  obtain ⟨t, hrun, hend⟩ := (Option.any_eq_true ..).mp hends
  exact ⟨t, hrun, of_decide_eq_true hend,
    (watch_indices_ascend (reached_run (.start ⟨⟨rfl, rfl, rfl⟩, rfl⟩) hrun)).2⟩

end RaftExample
