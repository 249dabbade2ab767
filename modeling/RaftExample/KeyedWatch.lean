import RaftExample.WatchUpdates

/-!
# Waking for one key

`WatchKeyBlocking` makes one blocking query: it returns where the loop of `Watch` would
send.  What it waits for is that raft's applied index reaches `minIndex`, and that index
moves with every entry, whatever key it writes, and before the FSM has applied the entry.
The call wakes for its key only if the entry that reaches `minIndex` is an `Insert` of the
key and the FSM is done with it when the call looks at the index.
-/

namespace RaftExample

open Interleaving

/-! ### One call -/

/-- What `WatchKeyBlocking` returns, once it does. -/
def WatchPC.returned : WatchPC → Option WatchResponse
  | .sending resp => some resp
  | _ => none

/-- A node that has just been started, or has completed a `Restore`: the FSM is done with
    every entry of the log, which lists all of them from index one on. -/
structure WatchState.CaughtUp (s : WatchState) : Prop where
  processed : s.node.processed = s.node.log.length
  appliedIndex : s.node.appliedIndex ≤ s.node.log.length
  restoring : s.node.restoring = .idle
  channels : ∀ ch ∈ s.node.closedChs, ch < s.node.abandonCh
  pc : s.pc = .top

/-- An applied `Insert` of the key has an index of at least `bound`. -/
def AppliedFrom (json : Json) (key : Bytes) (node : WatchedNode) (bound : Nat) : Prop :=
  ∃ i < node.processed, bound ≤ i + 1 ∧ node.log[i]?.any (inserts json key) = true

instance (json : Json) (key : Bytes) (node : WatchedNode) (bound : Nat) :
    Decidable (AppliedFrom json key node bound) := by
  unfold AppliedFrom
  infer_instance

/-- A call without timeout, cancellation, error or `Restore`, made when no `Insert` of the
    key from `minIndex` on has been applied.  Raft may count an entry later than it hands
    it over. -/
def undisturbedCall (json : Json) (key : Bytes) (s : WatchState) : WatchAction → Prop
  | .query => 0 < s.minIndex ∧ ¬ AppliedFrom json key s.node s.minIndex
  | .setAppliedIndex index => index ≤ s.node.log.length
  | .handOver _ | .process | .readLocal | .readIndex | .fetchCh | .wake | .tick => True
  | _ => False

instance (json : Json) (key : Bytes) (s : WatchState) (action : WatchAction) :
    Decidable (undisturbedCall json key s action) := by
  unfold undisturbedCall
  split <;> infer_instance

/-- The entry with index `minIndex`, whether it is handed over before the call or after
    its start, is an `Insert` of the key; when the call looks at the applied index, the FSM
    is done with that entry or has not been handed it. -/
def reachedByKey (json : Json) (key : Bytes) (s : WatchState) : WatchAction → Bool
  | .handOver data => decide (s.node.log.length + 1 ≠ s.minIndex) || inserts json key data
  | .query => s.node.log[s.minIndex - 1]?.all (inserts json key)
  | .readIndex => decide (s.node.log.length < s.minIndex) ||
      decide (s.minIndex ≤ s.node.processed)
  | _ => true

section KeyedWatch

variable {json : Json} {key : Bytes} {bound : Nat} {node node' : WatchedNode}
  {s s' : WatchState} {action : WatchAction}

/-! ### The invariant -/

theorem AppliedFrom.handOver (h : AppliedFrom json key node bound) (data : Bytes) :
    AppliedFrom json key { node with log := node.log ++ [data] } bound := by
  obtain ⟨i, hi, hbound, hinserts⟩ := h
  have hlen : i < node.log.length := by
    by_contra hle
    simp [List.getElem?_eq_none (Nat.le_of_not_lt hle)] at hinserts
  exact ⟨i, hi, hbound, by rw [List.getElem?_append_left hlen]; exact hinserts⟩

theorem AppliedFrom.process (h : AppliedFrom json key node bound) (content : KV) :
    AppliedFrom json key { node with content := content, processed := node.processed + 1 } bound := by
  obtain ⟨i, hi, found⟩ := h
  exact ⟨i, Nat.lt_succ_of_lt hi, found⟩

/-- The entry with index `minIndex` is an `Insert` of the key, if there is one yet. -/
def Awaits (json : Json) (key : Bytes) (minIndex : Nat) (log : List Bytes) : Prop :=
  0 < minIndex ∧ ∀ data, log[minIndex - 1]? = some data → inserts json key data = true

theorem Awaits.handOver {minIndex : Nat} {log : List Bytes} (h : Awaits json key minIndex log)
    {data : Bytes} (hkeyed : log.length + 1 = minIndex → inserts json key data = true) :
    Awaits json key minIndex (log ++ [data]) := by
  refine ⟨h.1, fun other hother => ?_⟩
  rcases getElem?_concat_cases hother with hold | ⟨hlast, rfl⟩
  · exact h.2 other hold
  · exact hkeyed (by have := h.1; omega)

/-- What the call knows at each of its places. -/
def HoldsKeyed (json : Json) (key : Bytes) (minIndex : Nat) (node : WatchedNode) :
    WatchPC → Prop
  | .reading _ | .indexing _ _ | .fetching _ _ => Awaits json key minIndex node.log
  | .parked _ _ ch => Awaits json key minIndex node.log ∧ ch = node.abandonCh
  | .sending _ => AppliedFrom json key node minIndex
  | _ => True

theorem HoldsKeyed.mono {minIndex : Nat} {pc : WatchPC}
    (h : HoldsKeyed json key minIndex node pc) (hch : node'.abandonCh = node.abandonCh)
    (hawaits : Awaits json key minIndex node.log → Awaits json key minIndex node'.log)
    (happlied : AppliedFrom json key node minIndex → AppliedFrom json key node' minIndex) :
    HoldsKeyed json key minIndex node' pc := by
  cases pc with
  | reading first => exact hawaits h
  | indexing first value => exact hawaits h
  | fetching value index => exact hawaits h
  | parked value index ch => exact ⟨hawaits h.1, h.2.trans hch.symm⟩
  | sending resp => exact happlied h
  | _ => trivial

structure WatchState.Keyed (json : Json) (key : Bytes) (s : WatchState) : Prop where
  processed : s.node.processed ≤ s.node.log.length
  counted : s.node.appliedIndex ≤ s.node.log.length
  channels : ∀ ch ∈ s.node.closedChs, ch < s.node.abandonCh
  pc : HoldsKeyed json key s.minIndex s.node s.pc

theorem WatchState.CaughtUp.keyed (h : s.CaughtUp) : s.Keyed json key where
  processed := h.processed.le
  counted := h.appliedIndex
  channels := h.channels
  pc := by
    rw [h.pc]
    trivial

theorem WatchState.Keyed.nodeStep (h : s.Keyed json key)
    (hcall : undisturbedCall json key s action) (hkeyed : reachedByKey json key s action = true)
    (hstep : NodeStep json s.node action node') :
    WatchState.Keyed json key { s with node := node', history := noted action s.history } := by
  cases hstep with
  | handOver data =>
    have hlen : s.node.log.length ≤ (s.node.log ++ [data]).length := by
      rw [List.length_append]
      exact Nat.le_add_right ..
    have hinserts : s.node.log.length + 1 = s.minIndex → inserts json key data = true := by
      intro hindex
      simpa [reachedByKey, hindex] using hkeyed
    exact ⟨h.processed.trans hlen, h.counted.trans hlen, h.channels,
      h.pc.mono rfl (fun hawaits => hawaits.handOver hinserts) fun hwoken => hwoken.handOver data⟩
  | @process data hidle hdata =>
    exact ⟨(List.getElem?_eq_some_iff.mp hdata).1, h.counted, h.channels,
      h.pc.mono rfl id fun hwoken => hwoken.process _⟩
  | setAppliedIndex index => exact ⟨h.processed, hcall, h.channels, h.pc.mono rfl id id⟩
  | restore content hidle => exact hcall.elim
  | swapCh hrestored => exact hcall.elim
  | closeCh hswapped => exact hcall.elim

/-- The applied index has reached `minIndex`: the entry that did it is an `Insert` of the
    key, and the FSM is done with it. -/
theorem WatchState.Keyed.woken (h : s.Keyed json key)
    (hawaits : Awaits json key s.minIndex s.node.log)
    (hkeyed : reachedByKey json key s .readIndex = true)
    (hreached : s.minIndex ≤ s.node.appliedIndex) : AppliedFrom json key s.node s.minIndex := by
  obtain ⟨hpos, hentry⟩ := hawaits
  have hcounted := h.counted
  have hdone : s.minIndex ≤ s.node.processed := by
    simp only [reachedByKey, Bool.or_eq_true, decide_eq_true_eq] at hkeyed
    omega
  have hlen : s.minIndex - 1 < s.node.log.length := by omega
  refine ⟨s.minIndex - 1, by omega, by omega, ?_⟩
  rw [List.getElem?_eq_getElem hlen]
  exact hentry _ (List.getElem?_eq_getElem hlen)

theorem WatchState.Keyed.streamStep (h : s.Keyed json key)
    (hcall : undisturbedCall json key s action) (hkeyed : reachedByKey json key s action = true)
    (hstep : StreamStep key s action s') : s'.Keyed json key := by
  obtain ⟨hprocessed, hcounted, hchannels, hpc'⟩ := id h
  cases hstep with
  | query hpc =>
    refine ⟨hprocessed, hcounted, hchannels, hcall.1, fun data hdata => ?_⟩
    simpa [reachedByKey, hdata] using hkeyed
  | readLocal hpc =>
    rw [hpc] at hpc'
    exact ⟨hprocessed, hcounted, hchannels, hpc'⟩
  | @readIndex first value hpc =>
    rw [hpc] at hpc'
    have hawaits : Awaits json key s.minIndex s.node.log := hpc'
    refine ⟨hprocessed, hcounted, hchannels, ?_⟩
    simp only [afterIndex]
    split
    · rename_i hreturns
      apply h.woken hawaits hkeyed
      rcases hreturns with ⟨-, hzero⟩ | hreached
      · have hpos := hawaits.1
        omega
      · exact hreached
    · exact hawaits
  | fetchCh hpc =>
    rw [hpc] at hpc'
    exact ⟨hprocessed, hcounted, hchannels, hpc', rfl⟩
  | wake hpc hclosed =>
    -- the channel the call waits on is the current one, which only a restore closes
    rw [hpc] at hpc'
    have hopen := hchannels _ hclosed
    rw [hpc'.2] at hopen
    omega
  | tick hpc =>
    rw [hpc] at hpc'
    exact ⟨hprocessed, hcounted, hchannels, hpc'.1⟩
  | cancel hpc => exact hcall.elim
  | readFails hpc => exact hcall.elim
  | timeout hpc => exact hcall.elim
  | send hpc => exact hcall.elim
  | sendFails hpc => exact hcall.elim

theorem WatchState.Keyed.step (h : s.Keyed json key) (hcall : undisturbedCall json key s action)
    (hkeyed : reachedByKey json key s action = true)
    (hstep : s.step json key action = some s') : s'.Keyed json key := by
  rcases WatchState.step_cases hstep with ⟨node', hnode, rfl⟩ | hstream
  · exact h.nodeStep hcall hkeyed hnode
  · exact h.streamStep hcall hkeyed hstream

/-- In every run in which the entry with index `minIndex` is an `Insert` of the key and is
    not waiting for the FSM when the call looks at the applied index: once the call has
    returned, an `Insert` of the key with an index of at least `minIndex` has been
    applied. -/
theorem watch_wakes_for_key
    (hreached : Reached (WatchState.step json key)
      (fun s a => undisturbedCall json key s a ∧ reachedByKey json key s a = true)
      WatchState.CaughtUp s)
    {resp : WatchResponse} (hreturned : s.pc.returned = some resp) :
    AppliedFrom json key s.node s.minIndex := by
  have hkeyed : s.Keyed json key :=
    hreached.invariant (fun _ hinit => hinit.keyed) fun _ _ _ h hallowed hstep =>
      h.step hallowed.1 hallowed.2 hstep
  have hpc := hkeyed.pc
  revert hpc hreturned
  cases s.pc with
  | sending resp' => exact fun _ hwoken => hwoken
  | _ => simp [WatchPC.returned]

end KeyedWatch

/-! ### Schedules -/

/-- The call starts and finds nothing; then an `Insert` comes, and the call looks again. -/
def wokenSchedule : List WatchAction :=
  [.query, .readLocal, .readIndex, .fetchCh, .handOver soloEntry, .process, .setAppliedIndex 1,
    .tick, .readLocal, .readIndex]

theorem start_new_caughtUp : (WatchState.start .new 1).CaughtUp where
  processed := rfl
  appliedIndex := Nat.le_refl 0
  restoring := rfl
  channels := by
    intro ch hch
    simp [WatchState.start, WatchedNode.new] at hch
  pc := rfl

/-- A call for index one on a new node, and then an `Insert` of its key. -/
theorem watch_wakes_for_key_polled :
    ∃ s, run (WatchState.step goJson [107])
        (fun s a => undisturbedCall goJson [107] s a ∧ reachedByKey goJson [107] s a = true)
        wokenSchedule (.start .new 1) = some s ∧
      s.pc.returned = some ⟨[118], 1, false⟩ ∧ AppliedFrom goJson [107] s.node s.minIndex := by
  obtain ⟨s, hrun, hreturned⟩ : ∃ s, run (WatchState.step goJson [107])
      (fun s a => undisturbedCall goJson [107] s a ∧ reachedByKey goJson [107] s a = true)
      wokenSchedule (.start .new 1) = some s ∧ s.pc.returned = some ⟨[118], 1, false⟩ :=
    ⟨_, rfl, by decide +kernel⟩
  exact ⟨s, hrun, hreturned, watch_wakes_for_key
    (reached_run (.start start_new_caughtUp) hrun) hreturned⟩

/-- The same call for another key: the `Insert` wakes it although it is none of that key. -/
theorem watch_wakes_for_other_key :
    ∃ s, Reached (WatchState.step goJson [108])
        (fun s a => undisturbedCall goJson [108] s a) WatchState.CaughtUp s ∧
      s.node.log = [soloEntry] ∧ inserts goJson [107] soloEntry = true ∧
      s.minIndex = 1 ∧ s.pc.returned = some ⟨[], 1, false⟩ ∧
      ¬ AppliedFrom goJson [108] s.node s.minIndex := by
  obtain ⟨s, hrun, hlog, hmin, hreturned, hnone⟩ : ∃ s, run (WatchState.step goJson [108])
      (fun s a => undisturbedCall goJson [108] s a) wokenSchedule (.start .new 1) = some s ∧
        s.node.log = [soloEntry] ∧ s.minIndex = 1 ∧ s.pc.returned = some ⟨[], 1, false⟩ ∧
        ¬ AppliedFrom goJson [108] s.node s.minIndex :=
    ⟨_, rfl, rfl, rfl, by decide +kernel, by decide +kernel⟩
  exact ⟨s, reached_run (.start start_new_caughtUp) hrun, hlog, by decide +kernel, hmin,
    hreturned, hnone⟩

end RaftExample
