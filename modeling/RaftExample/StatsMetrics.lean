import RaftExample.RWLock
import RaftExample.StateMachine

/-!
# The metrics in `Stats`

`Persist` and `Restore` run in different goroutines and update the metrics field by field,
`Stats` copies them for any number of clients.  All of them hold `metricsLock`.  So the
numbers that `Stats` reports belong together: they describe the snapshots and restores up to
some moment of the call.
-/

namespace RaftExample

open Interleaving RWLock

/-! ### Updates -/

/-- A successful `Persist` or `Restore`, with what it reports. -/
inductive MetricsUpdate where
  | persisted (duration size : Int64) (records : UInt64) (time : Int64)
  | restored (duration time : Int64)
deriving DecidableEq, Repr

/-- The assignments under the lock, in their order. -/
def MetricsUpdate.body : MetricsUpdate → List (SnapshotMetrics → SnapshotMetrics)
  | .persisted duration size records time =>
      [fun m => { m with snapshotCount := m.snapshotCount + 1 },
        fun m => { m with lastSnapshotDuration := duration },
        fun m => { m with lastSnapshotSize := size },
        fun m => { m with lastSnapshotRecords := records },
        fun m => { m with lastSnapshotTime := time }]
  | .restored duration time =>
      [fun m => { m with restoreCount := m.restoreCount + 1 },
        fun m => { m with lastRestoreDuration := duration },
        fun m => { m with lastRestoreTime := time }]

/-- `metrics := r.metrics`, field by field. -/
def metricsParts : List (SnapshotMetrics → SnapshotMetrics → SnapshotMetrics) :=
  [fun m copy => { copy with lastSnapshotDuration := m.lastSnapshotDuration },
    fun m copy => { copy with lastSnapshotSize := m.lastSnapshotSize },
    fun m copy => { copy with lastSnapshotRecords := m.lastSnapshotRecords },
    fun m copy => { copy with lastSnapshotTime := m.lastSnapshotTime },
    fun m copy => { copy with lastRestoreDuration := m.lastRestoreDuration },
    fun m copy => { copy with lastRestoreTime := m.lastRestoreTime },
    fun m copy => { copy with snapshotCount := m.snapshotCount },
    fun m copy => { copy with restoreCount := m.restoreCount }]

def metricsCode : Code MetricsUpdate SnapshotMetrics :=
  ⟨MetricsUpdate.body, metricsParts, .zero⟩

theorem metricsCode_complete : metricsCode.Complete := fun _ _ => rfl

/-- `Persist` in one step is a whole critical section. -/
theorem persist_metrics {gz : Gzip} {faults : SaveFaults} {r r' : StateMachine}
    {captured : StateMachine.Captured} {created now : Int64} {sink sink' : Sink}
    (h : r.persist gz faults captured created now sink = (.ok (), r', sink')) :
    ∃ size records, r'.metrics = Code.assignAll
      (MetricsUpdate.body (.persisted (now - captured.startTime) size records now)) r.metrics := by
  unfold StateMachine.persist at h
  split at h
  · cases h
  · rename_i result sink'' hsave
    cases h
    exact ⟨result.size, result.records, rfl⟩

/-- So is `Restore`. -/
theorem adopt_metrics (r : StateMachine) (header : SnapshotHeader) (startTime now : Int64) :
    (r.adopt header startTime now).metrics =
      Code.assignAll (MetricsUpdate.body (.restored (now - startTime) now)) r.metrics := by
  unfold StateMachine.adopt
  split <;> rfl

/-! ### What metrics say -/

/-- The reports of the snapshots: duration, size, records, time. -/
def snapshotsOf (updates : List MetricsUpdate) : List (Int64 × Int64 × UInt64 × Int64) :=
  updates.filterMap fun
    | .persisted duration size records time => some (duration, size, records, time)
    | .restored _ _ => none

/-- The reports of the restores: duration, time. -/
def restoresOf (updates : List MetricsUpdate) : List (Int64 × Int64) :=
  updates.filterMap fun
    | .persisted _ _ _ _ => none
    | .restored duration time => some (duration, time)

/-- The metrics describe these updates: how many there were, modulo the width of the
    counters, and what the last ones reported. -/
structure SnapshotMetrics.Describes (m : SnapshotMetrics) (updates : List MetricsUpdate) : Prop where
  snapshotCount : m.snapshotCount = .ofNat (snapshotsOf updates).length
  restoreCount : m.restoreCount = .ofNat (restoresOf updates).length
  lastSnapshot : (m.lastSnapshotDuration, m.lastSnapshotSize, m.lastSnapshotRecords,
    m.lastSnapshotTime) = (snapshotsOf updates).getLastD (0, 0, 0, 0)
  lastRestore : (m.lastRestoreDuration, m.lastRestoreTime) = (restoresOf updates).getLastD (0, 0)

theorem SnapshotMetrics.Describes.persisted {m : SnapshotMetrics} {updates : List MetricsUpdate}
    (h : m.Describes updates) (duration size : Int64) (records : UInt64) (time : Int64) :
    (Code.assignAll (MetricsUpdate.body (.persisted duration size records time)) m).Describes
      (updates ++ [.persisted duration size records time]) := by
  have hsnapshots : snapshotsOf (updates ++ [.persisted duration size records time]) =
      snapshotsOf updates ++ [(duration, size, records, time)] := List.filterMap_append ..
  have hrestores : restoresOf (updates ++ [.persisted duration size records time]) =
      restoresOf updates := (List.filterMap_append ..).trans (List.append_nil _)
  constructor
  · rw [hsnapshots, List.length_append, List.length_singleton, UInt64.ofNat_add, ← h.snapshotCount]
    rfl
  · rw [hrestores]
    exact h.restoreCount
  · rw [hsnapshots, List.getLastD_concat]
    rfl
  · rw [hrestores]
    exact h.lastRestore

theorem SnapshotMetrics.Describes.restored {m : SnapshotMetrics} {updates : List MetricsUpdate}
    (h : m.Describes updates) (duration time : Int64) :
    (Code.assignAll (MetricsUpdate.body (.restored duration time)) m).Describes
      (updates ++ [.restored duration time]) := by
  have hsnapshots : snapshotsOf (updates ++ [.restored duration time]) = snapshotsOf updates :=
    (List.filterMap_append ..).trans (List.append_nil _)
  have hrestores : restoresOf (updates ++ [.restored duration time]) =
      restoresOf updates ++ [(duration, time)] := List.filterMap_append ..
  constructor
  · rw [hsnapshots]
    exact h.snapshotCount
  · rw [hrestores, List.length_append, List.length_singleton, UInt64.ofNat_add, ← h.restoreCount]
    rfl
  · rw [hsnapshots]
    exact h.lastSnapshot
  · rw [hrestores, List.getLastD_concat]
    rfl

theorem describes_after (updates : List MetricsUpdate) :
    (metricsCode.after .zero updates).Describes updates := by
  induction updates using List.reverseRecOn with
  | nil => exact ⟨rfl, rfl, rfl, rfl⟩
  | append_singleton updates update ih =>
    rw [Code.after_concat]
    cases update with
    | persisted duration size records time => exact ih.persisted duration size records time
    | restored duration time => exact ih.restored duration time

/-- What a call of `Stats` reports describes the updates up to some moment of the call. -/
theorem stats_describe_one_moment {s : Guarded MetricsUpdate SnapshotMetrics}
    (hreached : Reached (Guarded.step metricsCode) (fun _ _ => True) (· = ⟨.zero, [], []⟩) s)
    {since : Nat} {metrics : SnapshotMetrics} (hmem : .returned since metrics ∈ s.threads) :
    ∃ n, since ≤ n ∧ n ≤ s.finished.length ∧ metrics.Describes (s.finished.take n) := by
  obtain ⟨n, hsince, hn, rfl⟩ := returned_of_reached metricsCode_complete hreached hmem
  exact ⟨n, hsince, hn, describes_after _⟩

/-- A call of `Stats` that has to wait for a `Persist`, with a `Restore` waiting as well. -/
def statsBetween : List (Action MetricsUpdate) :=
  [.beginWrite (.persisted 7 100 3 50), .lock 0, .assign 0, .assign 0, .beginRead,
    .beginWrite (.restored 9 60), .assign 0, .assign 0, .assign 0, .unlock 0, .rLock 1, .copy 1,
    .copy 1, .copy 1, .copy 1, .copy 1, .copy 1, .copy 1, .copy 1, .rUnlock 1, .lock 2]

theorem stats_describe_one_moment_between :
    ∃ s metrics, run (Guarded.step metricsCode) (fun _ _ => True) statsBetween ⟨.zero, [], []⟩ =
        some s ∧ .returned 0 metrics ∈ s.threads ∧
      ∃ n ≤ 1, metrics.Describes (s.finished.take n) := by
  obtain ⟨s, metrics, hrun, hmem, hlength⟩ : ∃ s metrics,
      run (Guarded.step metricsCode) (fun _ _ => True) statsBetween ⟨.zero, [], []⟩ = some s ∧
      .returned 0 metrics ∈ s.threads ∧ s.finished.length = 1 :=
    ⟨_, _, rfl, .tail _ (.head _), rfl⟩
  obtain ⟨n, -, hn, hdescribes⟩ := stats_describe_one_moment (reached_run (.start rfl) hrun) hmem
  exact ⟨s, metrics, hrun, hmem, n, hlength ▸ hn, hdescribes⟩

end RaftExample
