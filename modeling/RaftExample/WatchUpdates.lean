import RaftExample.Watch

/-!
# Updates a watcher has seen

A response says: this is the value, and the node has applied everything up to this
index.  The value is read before the index, and the index counts entries the FSM has
not applied yet, so an update of the key may be covered by the index and missing from
the value.  It is missing only when such an update was waiting for the FSM at the moment
of the read, or was handed over between the read of the value and that of the index.
-/

namespace RaftExample

open Overwrites Interleaving

/-! ### What a response promises -/

/-- The entry is an `Insert` of this key. -/
def inserts (json : Json) (key data : Bytes) : Bool :=
  (writesOf json data (buildColumnFamilyKey cfDefault key)).isSome

/-- The value is that of a state which has applied every `Insert` of the key up to this
    index.  The first entry of the log has index one. -/
def Covers (json : Json) (key : Bytes) (log : List Bytes) (value : Bytes) (index : Nat) : Prop :=
  ∃ n ≤ log.length, value = valueAt json key log n ∧
    ∀ i < index, ∀ data, log[i]? = some data → inserts json key data = true → i < n

/-! ### The schedules that skip nothing -/

/-- No `Insert` of the key waits for the FSM when the value is read, and none is handed
    over before the index is. -/
def undisturbed (json : Json) (key : Bytes) (s : WatchState) : WatchAction → Bool
  | .readLocal => (s.node.log.drop s.node.processed).all fun data => !inserts json key data
  | .handOver data =>
      match s.pc with
      | .indexing _ _ => !inserts json key data
      | _ => true
  | _ => true

/-- Without a `Restore` raft counts the entries it has handed over, and never fewer than
    before. -/
def noRestore (s : WatchState) : WatchAction → Bool
  | .restore _ | .swapCh | .closeCh => false
  | .setAppliedIndex index =>
      decide (s.node.appliedIndex ≤ index ∧ index ≤ s.node.log.length)
  | _ => true

/-- A value such that no later entry of the log touches the key. -/
def UpToDate (json : Json) (key : Bytes) (log : List Bytes) (value : Bytes) : Prop :=
  ∃ n ≤ log.length, value = valueAt json key log n ∧
    ∀ i, n ≤ i → ∀ data, log[i]? = some data → inserts json key data = false

section Updates

variable {json : Json} {key : Bytes} {log : List Bytes} {value data : Bytes} {index : Nat}
  {s s' : WatchState} {action : WatchAction}

theorem UpToDate.covers (h : UpToDate json key log value) (index : Nat) :
    Covers json key log value index := by
  obtain ⟨n, hn, hvalue, hlater⟩ := h
  refine ⟨n, hn, hvalue, ?_⟩
  intro i _ data hdata hinserts
  by_contra hle
  rw [hlater i (Nat.le_of_not_lt hle) data hdata] at hinserts
  simp at hinserts

theorem UpToDate.append (h : UpToDate json key log value) (hdata : inserts json key data = false) :
    UpToDate json key (log ++ [data]) value := by
  obtain ⟨n, hn, hvalue, hlater⟩ := h
  refine ⟨n, by rw [List.length_append]; omega, by rw [valueAt_append _ hn]; exact hvalue, ?_⟩
  intro i hi other hother
  rcases getElem?_concat_cases hother with hold | ⟨-, rfl⟩
  · exact hlater i hi other hold
  · exact hdata

/-! ### The invariant -/

/-- A promise about entries that exist is not affected by later ones. -/
def SeenUpTo (json : Json) (key : Bytes) (log : List Bytes) (value : Bytes) (index : Nat) : Prop :=
  index ≤ log.length ∧ Covers json key log value index

theorem SeenUpTo.append (h : SeenUpTo json key log value index) :
    SeenUpTo json key (log ++ [data]) value index := by
  obtain ⟨hindex, n, hn, hvalue, hseen⟩ := h
  refine ⟨by rw [List.length_append]; omega, n, by rw [List.length_append]; omega, by rw [valueAt_append _ hn]; exact hvalue, ?_⟩
  intro i hi other hother
  rw [List.getElem?_append_left (by omega)] at hother
  exact hseen i hi other hother

/-- What the stream holds at each of its places. -/
def HoldsSeen (json : Json) (key : Bytes) (log : List Bytes) : WatchPC → Prop
  | .indexing _ value => UpToDate json key log value
  | .fetching value index => SeenUpTo json key log value index
  | .parked value index _ => SeenUpTo json key log value index
  | .sending resp => resp.abandoned = false →
      SeenUpTo json key log resp.value resp.currentIndex
  | _ => True

structure WatchState.Seen (json : Json) (key : Bytes) (s : WatchState) : Prop where
  appliedIndex : s.node.appliedIndex ≤ s.node.log.length
  processed : s.node.processed ≤ s.node.log.length
  content : s.node.content = replay json (s.node.log.take s.node.processed)
  pc : HoldsSeen json key s.node.log s.pc
  sent : ∀ resp, .sent resp ∈ s.history → resp.abandoned = false →
    SeenUpTo json key s.node.log resp.value resp.currentIndex

theorem HoldsSeen.append {pc : WatchPC} (h : HoldsSeen json key log pc)
    (hindexing : ∀ first value, pc = .indexing first value → inserts json key data = false) :
    HoldsSeen json key (log ++ [data]) pc := by
  cases pc with
  | indexing first value => exact UpToDate.append h (hindexing first value rfl)
  | fetching value index => exact SeenUpTo.append h
  | parked value index ch => exact SeenUpTo.append h
  | sending resp => exact fun habandoned => SeenUpTo.append (h habandoned)
  | _ => trivial

theorem WatchState.Seen.handOver (h : s.Seen json key)
    (hallowed : undisturbed json key s (.handOver data) = true) :
    WatchState.Seen json key { s with node := { s.node with log := s.node.log ++ [data] } } where
  appliedIndex := by
    have := h.appliedIndex
    simp only [List.length_append, List.length_singleton]
    omega
  processed := by
    have := h.processed
    simp only [List.length_append, List.length_singleton]
    omega
  content := by
    simp only [List.take_append_of_le_length h.processed]
    exact h.content
  pc := by
    apply h.pc.append
    intro first value hpc
    simpa [undisturbed, hpc] using hallowed
  sent := fun resp hresp habandoned => (h.sent resp hresp habandoned).append

theorem WatchState.Seen.nodeStep {node' : WatchedNode} (h : s.Seen json key)
    (hnone : noRestore s action = true) (hallowed : undisturbed json key s action = true)
    (hstep : NodeStep json s.node action node') :
    WatchState.Seen json key { s with node := node', history := noted action s.history } := by
  cases hstep with
  | handOver data => exact h.handOver hallowed
  | @process data hidle hdata =>
    refine ⟨h.appliedIndex, ?_, ?_, h.pc, h.sent⟩
    · exact (List.getElem?_eq_some_iff.mp hdata).1
    · simp only [replay_take_succ json hdata, ← h.content]
  | setAppliedIndex index =>
    have hindex : s.node.appliedIndex ≤ index ∧ index ≤ s.node.log.length := by
      simpa [noRestore] using hnone
    exact ⟨hindex.2, h.processed, h.content, h.pc, h.sent⟩
  | _ => simp [noRestore] at hnone

/-- The value of an undisturbed read. -/
theorem WatchState.Seen.read (h : s.Seen json key)
    (hallowed : undisturbed json key s .readLocal = true) :
    UpToDate json key s.node.log (s.node.read key) := by
  refine ⟨s.node.processed, h.processed, ?_, ?_⟩
  · rw [WatchedNode.read, h.content, lookup_replay_take]
  · intro i hi data hdata
    have hmem : data ∈ s.node.log.drop s.node.processed := by
      apply List.mem_of_getElem? (i := i - s.node.processed)
      rw [List.getElem?_drop, Nat.add_sub_cancel' hi, hdata]
    simpa using List.all_eq_true.mp hallowed data hmem

theorem WatchState.Seen.streamStep (h : s.Seen json key)
    (hallowed : undisturbed json key s action = true) (hstep : StreamStep key s action s') :
    s'.Seen json key := by
  obtain ⟨happlied, hprocessed, hcontent, hpc', hsent⟩ := id h
  cases hstep with
  | cancel hpc => exact ⟨happlied, hprocessed, hcontent, trivial, hsent⟩
  | query hpc => exact ⟨happlied, hprocessed, hcontent, trivial, hsent⟩
  | readLocal hpc =>
    refine ⟨happlied, hprocessed, hcontent, h.read hallowed, ?_⟩
    intro resp hresp
    rcases List.mem_cons.mp hresp with hread | hresp
    · simp at hread
    · exact hsent resp hresp
  | readFails hpc => exact ⟨happlied, hprocessed, hcontent, trivial, hsent⟩
  | @readIndex first value hpc =>
    rw [hpc] at hpc'
    have hseen : SeenUpTo json key s.node.log value s.node.appliedIndex :=
      ⟨happlied, UpToDate.covers hpc' _⟩
    refine ⟨happlied, hprocessed, hcontent, ?_, hsent⟩
    simp only [afterIndex]
    split
    · exact fun _ => hseen
    · exact hseen
  | fetchCh hpc =>
    rw [hpc] at hpc'
    exact ⟨happlied, hprocessed, hcontent, hpc', hsent⟩
  | timeout hpc =>
    rw [hpc] at hpc'
    exact ⟨happlied, hprocessed, hcontent, fun _ => hpc', hsent⟩
  | wake hpc hclosed =>
    exact ⟨happlied, hprocessed, hcontent, fun habandoned => by simp at habandoned, hsent⟩
  | tick hpc => exact ⟨happlied, hprocessed, hcontent, trivial, hsent⟩
  | send hpc =>
    rw [hpc] at hpc'
    refine ⟨happlied, hprocessed, hcontent, trivial, ?_⟩
    intro resp hresp
    rcases List.mem_cons.mp hresp with heq | hresp
    · injection heq with heq
      subst heq
      exact hpc'
    · exact hsent resp hresp
  | sendFails hpc => exact ⟨happlied, hprocessed, hcontent, trivial, hsent⟩

theorem WatchState.Seen.step (h : s.Seen json key) (hnone : noRestore s action = true)
    (hallowed : undisturbed json key s action = true)
    (hstep : s.step json key action = some s') : s'.Seen json key := by
  rcases WatchState.step_cases hstep with ⟨node', hnode, rfl⟩ | hstream
  · exact h.nodeStep hnone hallowed hnode
  · exact h.streamStep hallowed hstream

theorem WatchState.Initial.seen (h : s.Initial) : s.Seen json key := by
  obtain ⟨hnode, hpc, hhistory⟩ := h
  refine ⟨by rw [hnode]; exact Nat.le_refl _, by rw [hnode]; exact Nat.le_refl _, by rw [hnode]; rfl,
    by rw [hpc]; trivial, ?_⟩
  intro resp hresp
  simp [hhistory] at hresp

/-- In every run without a `Restore` that keeps to these schedules, every response that is
    not marked abandoned carries the value of a state that has applied every `Insert` of
    the key up to the index it carries. -/
theorem watch_skips_nothing
    (hreached : Reached (WatchState.step json key)
      (fun s a => noRestore s a = true ∧ undisturbed json key s a = true) WatchState.Initial s)
    {resp : WatchResponse} (hsent : .sent resp ∈ s.history) (hresp : resp.abandoned = false) :
    Covers json key s.node.log resp.value resp.currentIndex := by
  have hseen : s.Seen json key :=
    hreached.invariant (fun _ hinit => hinit.seen) fun _ _ _ h hallowed hstep =>
      h.step hallowed.1 hallowed.2 hstep
  exact (hseen.sent resp hsent hresp).2

end Updates

/-! ### Schedules -/

/-- The entry is applied before the stream reads, and is covered. -/
theorem watch_skips_nothing_applied :
    ∃ s, run (WatchState.step goJson [107])
        (fun s a => noRestore s a = true ∧ undisturbed goJson [107] s a = true)
        [.handOver soloEntry, .setAppliedIndex 1, .process, .query, .readLocal, .readIndex, .send]
        (.start .new 1) =
          some s ∧
      s.history = [.sent ⟨[118], 1, false⟩, .read] ∧
      Covers goJson [107] s.node.log [118] 1 := by
  obtain ⟨s, hrun, hhistory⟩ : ∃ s, run (WatchState.step goJson [107])
      (fun s a => noRestore s a = true ∧ undisturbed goJson [107] s a = true)
      [.handOver soloEntry, .setAppliedIndex 1, .process, .query, .readLocal, .readIndex, .send]
        (.start .new 1) =
        some s ∧ s.history = [.sent ⟨[118], 1, false⟩, .read] :=
    ⟨_, rfl, by decide +kernel⟩
  have hsent : .sent ⟨[118], 1, false⟩ ∈ s.history := by simp [hhistory]
  exact ⟨s, hrun, hhistory, watch_skips_nothing
    (reached_run (.start ⟨rfl, rfl, rfl⟩) hrun) hsent rfl⟩

/-- The entry is handed over and applied between the two reads: the response has the old
    value and the index of the new one. -/
theorem watch_skips_update :
    ∃ s, Reached (WatchState.step goJson [107]) (fun s a => noRestore s a = true)
        WatchState.Initial s ∧
      .sent ⟨[], 1, false⟩ ∈ s.history ∧ ¬ Covers goJson [107] s.node.log [] 1 := by
  obtain ⟨s, hrun, hhistory, hlog⟩ : ∃ s, run (WatchState.step goJson [107])
      (fun s a => noRestore s a = true)
      [.query, .readLocal, .handOver soloEntry, .process, .setAppliedIndex 1, .readIndex, .send]
      (.start .new 1) =
        some s ∧ s.history = [.sent ⟨[], 1, false⟩, .read] ∧ s.node.log = [soloEntry] :=
    ⟨_, rfl, by decide +kernel, rfl⟩
  refine ⟨s, reached_run (.start ⟨rfl, rfl, rfl⟩) hrun, by simp [hhistory], ?_⟩
  rw [hlog]
  rintro ⟨n, hn, hvalue, hseen⟩
  have hpos := hseen 0 (by decide) soloEntry rfl (by decide)
  obtain rfl : n = 1 := by
    simp only [List.length_singleton] at hn
    omega
  exact absurd hvalue (by decide)

end RaftExample
