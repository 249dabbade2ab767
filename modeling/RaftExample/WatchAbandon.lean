import RaftExample.Watch

/-!
# Announcing a restore to a watcher

After `abandon` the first response of the stream should be the one marked abandoned.
The channel is fetched anew for every `select`, so an `abandon` that completes while the
stream is between its query and its `select`, or anywhere else but waiting on the old
channel, goes unnoticed; and a `select` that waits on the closed channel may take its
ticker or its timeout instead.  Apart from these schedules every restore is announced.
-/

namespace RaftExample

open Interleaving

/-! ### What is owed to the watcher -/

/-- With the latest event first: an `abandon` since the last response, after a read. -/
def owed : List WatchEvent → Bool
  | [] => false
  | .sent _ :: _ => false
  | .read :: older => owed older
  | .abandoned :: older => decide (.read ∈ older) || owed older

/-- Every response that was owed an announcement is one. -/
def Announced : List WatchEvent → Prop
  | [] => True
  | .sent resp :: older => (owed older = true → resp.abandoned = true) ∧ Announced older
  | _ :: older => Announced older

/-- The next response is marked abandoned, unless the stream ends: the stream has taken
    the case of the abandon channel, or waits on a channel that is closed. -/
def Announcing (closedChs : List Nat) : WatchPC → Bool
  | .parked _ _ ch => decide (ch ∈ closedChs)
  | .sending resp => resp.abandoned
  | .done => true
  | _ => false

theorem owed_append {between older : List WatchEvent} (hbetween : ∀ resp, .sent resp ∉ between)
    (hread : .read ∈ older) : owed (between ++ .abandoned :: older) = true := by
  induction between with
  | nil => simp [owed, hread]
  | cons event between ih =>
    have hrest : owed (between ++ .abandoned :: older) = true := by
      apply ih
      intro resp hresp
      exact hbetween resp (List.mem_cons_of_mem _ hresp)
    cases event with
    | read => exact hrest
    | sent resp => exact absurd List.mem_cons_self (hbetween resp)
    | abandoned =>
      simp only [List.cons_append, owed, hrest, Bool.or_true]

theorem read_mem_of_owed {history : List WatchEvent} (h : owed history = true) :
    .read ∈ history := by
  induction history with
  | nil => simp [owed] at h
  | cons event older ih =>
    cases event with
    | read => exact List.mem_cons_self
    | sent resp => simp [owed] at h
    | abandoned =>
      simp only [owed, Bool.or_eq_true, decide_eq_true_eq] at h
      exact List.mem_cons_of_mem _ (h.elim id ih)

theorem Announced.of_append {newer older : List WatchEvent} (h : Announced (newer ++ older)) :
    Announced older := by
  induction newer with
  | nil => exact h
  | cons event newer ih =>
    cases event with
    | read => exact ih h
    | sent resp => exact ih h.2
    | abandoned => exact ih h

/-! ### The schedules that announce -/

/-- `abandon` completes before the first query of the stream, or when the next response
    is bound to be marked abandoned; and a `select` that waits on a closed channel takes
    that case. -/
def announces (s : WatchState) : WatchAction → Bool
  | .closeCh =>
      match s.node.restoring with
      | .swapped oldCh =>
          decide (.read ∉ s.history) || Announcing (oldCh :: s.node.closedChs) s.pc
      | _ => true
  | .timeout | .tick => !Announcing s.node.closedChs s.pc
  | _ => true

section Announcement

variable {json : Json} {key : Bytes} {s s' : WatchState} {action : WatchAction}

structure WatchState.OnTime (s : WatchState) : Prop where
  announced : Announced s.history
  announcing : owed s.history = true → Announcing s.node.closedChs s.pc = true

/-- Steps of the node before `abandon` is over leave the stream and its channels alone. -/
theorem NodeStep.closedChs {node node' : WatchedNode} (hstep : NodeStep json node action node')
    (hclose : action ≠ .closeCh) : node'.closedChs = node.closedChs := by
  cases hstep with
  | closeCh hswapped => exact absurd rfl hclose
  | _ => rfl

theorem WatchState.OnTime.nodeStep {node' : WatchedNode} (h : s.OnTime)
    (hallowed : announces s action = true) (hstep : NodeStep json s.node action node') :
    WatchState.OnTime { s with node := node', history := noted action s.history } := by
  by_cases hclose : action = .closeCh
  · subst hclose
    cases hstep with
    | @closeCh oldCh hswapped =>
      refine ⟨h.announced, ?_⟩
      intro howed
      simp only [announces, hswapped, Bool.or_eq_true, decide_eq_true_eq] at hallowed
      rcases hallowed with hnone | hbound
      · rcases List.mem_cons.mp (read_mem_of_owed howed) with hevent | hread
        · simp at hevent
        · exact absurd hread hnone
      · exact hbound
  · have hnoted : noted action s.history = s.history := by
      cases action with
      | closeCh => exact absurd rfl hclose
      | _ => rfl
    refine ⟨by simpa [hnoted] using h.announced, ?_⟩
    intro howed
    simp only [hnoted] at howed
    rw [hstep.closedChs hclose]
    exact h.announcing howed

theorem WatchState.OnTime.streamStep (h : s.OnTime) (hallowed : announces s action = true)
    (hstep : StreamStep key s action s') : s'.OnTime := by
  have hannounced := h.announced
  have hbound := h.announcing
  cases hstep with
  | cancel hpc => exact ⟨hannounced, fun _ => rfl⟩
  | query hpc =>
    rw [hpc] at hbound
    exact ⟨hannounced, hbound⟩
  | readLocal hpc =>
    rw [hpc] at hbound
    exact ⟨hannounced, hbound⟩
  | readFails hpc => exact ⟨hannounced, fun _ => rfl⟩
  | readIndex hpc =>
    rw [hpc] at hbound
    exact ⟨hannounced, fun howed => absurd (hbound howed) (by simp [Announcing])⟩
  | fetchCh hpc =>
    rw [hpc] at hbound
    exact ⟨hannounced, fun howed => absurd (hbound howed) (by simp [Announcing])⟩
  | timeout hpc =>
    refine ⟨hannounced, fun howed => ?_⟩
    simp [announces, hbound howed] at hallowed
  | wake hpc hclosed => exact ⟨hannounced, fun _ => rfl⟩
  | tick hpc =>
    refine ⟨hannounced, fun howed => ?_⟩
    simp [announces, hbound howed] at hallowed
  | send hpc =>
    rw [hpc] at hbound
    exact ⟨⟨hbound, hannounced⟩, fun howed => by simp [owed] at howed⟩
  | sendFails hpc => exact ⟨hannounced, fun _ => rfl⟩

theorem WatchState.OnTime.step (h : s.OnTime) (hallowed : announces s action = true)
    (hstep : s.step json key action = some s') : s'.OnTime := by
  rcases WatchState.step_cases hstep with ⟨node', hnode, rfl⟩ | hstream
  · exact h.nodeStep hallowed hnode
  · exact h.streamStep hallowed hstream

theorem WatchState.Initial.onTime (h : s.Initial) : s.OnTime := by
  obtain ⟨-, -, hhistory⟩ := h
  constructor
  · rw [hhistory]
    trivial
  · intro howed
    simp [hhistory, owed] at howed

/-- In every run that keeps to these schedules: when a `Restore` has completed `abandon`
    after the stream made its first read, the first response sent afterwards is marked
    abandoned. -/
theorem restore_announced
    (hreached : Reached (WatchState.step json key) (fun s a => announces s a = true)
      WatchState.Initial s) :
    ∀ newer resp between older,
      s.history = newer ++ .sent resp :: (between ++ .abandoned :: older) →
      (∀ other, .sent other ∉ between) → .read ∈ older → resp.abandoned = true := by
  have hontime : s.OnTime :=
    hreached.invariant (fun _ hinit => hinit.onTime) fun _ _ _ h hallowed hstep =>
      h.step hallowed hstep
  intro newer resp between older hhistory hbetween hread
  have hannounced := hontime.announced
  rw [hhistory] at hannounced
  exact hannounced.of_append.1 (owed_append hbetween hread)

end Announcement

/-! ### Schedules -/

/-- A stream that waits for index one is woken by a restore. -/
def announcedSchedule : List WatchAction :=
  [.query, .readLocal, .readIndex, .fetchCh, .restore ∅, .swapCh, .closeCh, .wake, .send]

theorem restore_announced_waiting :
    ∃ s, run (WatchState.step goJson [107]) (fun s a => announces s a = true)
        announcedSchedule (.start .new 1) = some s ∧
      s.history = [.sent ⟨[], 0, true⟩, .abandoned, .read] ∧
      ∀ newer resp between older,
        s.history = newer ++ .sent resp :: (between ++ .abandoned :: older) →
        (∀ other, .sent other ∉ between) → .read ∈ older → resp.abandoned = true := by
  obtain ⟨s, hrun, hhistory⟩ : ∃ s, run (WatchState.step goJson [107])
      (fun s a => announces s a = true) announcedSchedule (.start .new 1) = some s ∧
      s.history = [.sent ⟨[], 0, true⟩, .abandoned, .read] :=
    ⟨_, rfl, rfl⟩
  exact ⟨s, hrun, hhistory, restore_announced
    (reached_run (.start ⟨rfl, rfl, rfl⟩) hrun)⟩

/-- The restore completes between the query and the `select`: the stream waits on the new
    channel and sends the old value when it times out. -/
theorem restore_unannounced :
    ∃ s, Reached (WatchState.step goJson [107]) (fun _ _ => True) WatchState.Initial s ∧
      s.history = [.sent ⟨[], 0, false⟩, .abandoned, .read] := by
  obtain ⟨s, hrun, hhistory⟩ : ∃ s, run (WatchState.step goJson [107]) (fun _ _ => True)
      [.query, .readLocal, .readIndex, .restore ∅, .swapCh, .closeCh, .fetchCh, .timeout, .send]
      (.start .new 1) = some s ∧ s.history = [.sent ⟨[], 0, false⟩, .abandoned, .read] :=
    ⟨_, rfl, rfl⟩
  exact ⟨s, reached_run (.start ⟨rfl, rfl, rfl⟩) hrun, hhistory⟩

end RaftExample
