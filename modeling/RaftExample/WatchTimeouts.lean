import Mathlib.Tactic.Ring
import RaftExample.Watch

/-!
# The timeout of a watch

A client of `Watch` chooses the timeout in seconds.  The service turns it into
nanoseconds with a multiplication in 64 bits and looks at the sign of the product only.
Beyond 292 years the product wraps around, and what is left of it may be the default,
another long time, or next to nothing.  In the last case the stream sends a response
every few hundred nanoseconds although nothing happens.
-/

namespace RaftExample

open Interleaving

/-! ### Durations -/

/-- `time.Second`, in nanoseconds. -/
def second : Int64 := 1000000000

def blockingQueryTimeout : Int64 := 5 * 60 * second

/-- The timeout `Watch` passes on. -/
def watchTimeout (timeoutSeconds : Int64) : Int64 :=
  let timeout := timeoutSeconds * second
  if timeout ≤ 0 then blockingQueryTimeout else timeout

/-- The timeout `BlockingQuery` gives to `context.WithTimeout`. -/
def contextTimeout (timeout : Int64) : Int64 :=
  if timeout = 0 then blockingQueryTimeout else timeout

/-- What a client may expect of its timeout: the default for none, and otherwise as many
    seconds as it asked for, or the longest duration there is. -/
def Honours (timeoutSeconds timeout : Int64) : Prop :=
  if timeoutSeconds ≤ 0 then timeout = blockingQueryTimeout
  else min (timeoutSeconds.toInt * 10 ^ 9) Int64.maxValue.toInt ≤ timeout.toInt

section Durations

variable {timeoutSeconds : Int64}

theorem toInt_mul_second (timeoutSeconds : Int64) :
    (timeoutSeconds * second).toInt = (timeoutSeconds.toInt * 10 ^ 9).bmod (2 ^ 64) := by
  rw [Int64.toInt_mul]
  rfl

/-- The second default of `BlockingQuery` is never needed. -/
theorem contextTimeout_watchTimeout :
    contextTimeout (watchTimeout timeoutSeconds) = watchTimeout timeoutSeconds := by
  rw [contextTimeout, if_neg]
  unfold watchTimeout
  simp only
  split
  · decide
  · rename_i hpos
    intro hzero
    exact hpos (by rw [hzero]; decide)

theorem watchTimeout_of_nonpos (h : (timeoutSeconds.toInt * 10 ^ 9).bmod (2 ^ 64) ≤ 0) :
    watchTimeout timeoutSeconds = blockingQueryTimeout := by
  rw [← toInt_mul_second] at h
  exact if_pos (Int64.le_iff_toInt_le.mpr h)

theorem watchTimeout_of_pos (h : 0 < (timeoutSeconds.toInt * 10 ^ 9).bmod (2 ^ 64)) :
    (watchTimeout timeoutSeconds).toInt = (timeoutSeconds.toInt * 10 ^ 9).bmod (2 ^ 64) := by
  rw [← toInt_mul_second] at h ⊢
  have hneg : ¬ timeoutSeconds * second ≤ 0 := by
    rw [Int64.le_iff_toInt_le, Int64.toInt_zero]
    omega
  exact congrArg Int64.toInt (if_neg hneg)

/-- Up to 292 years nothing wraps. -/
theorem mul_second_bmod_of_small (h : timeoutSeconds.toInt ≤ 9223372036)
    (h' : -9223372036 ≤ timeoutSeconds.toInt) :
    (timeoutSeconds.toInt * 10 ^ 9).bmod (2 ^ 64) = timeoutSeconds.toInt * 10 ^ 9 := by
  apply Int.bmod_eq_of_le
  · omega
  · omega

/-- A product is a multiple of 512, and the longest duration is not. -/
theorem mul_second_bmod_lt_maxValue (n : Int) :
    (n * 10 ^ 9).bmod (2 ^ 64) < Int64.maxValue.toInt := by
  have hbound := @Int.bmod_lt (n * 10 ^ 9) (2 ^ 64) (by decide)
  obtain ⟨k, hk⟩ := @Int.dvd_bmod_sub_self (n * 10 ^ 9) (2 ^ 64)
  have hmax : Int64.maxValue.toInt = 9223372036854775807 := by decide
  omega

/-- The product is the default for one in `2 ^ 55` requests. -/
theorem mul_second_bmod_eq_default_iff (n : Int) :
    (n * 10 ^ 9).bmod (2 ^ 64) = 300 * 10 ^ 9 ↔ 2 ^ 55 ∣ n - 300 := by
  have hdvd := @Int.dvd_bmod_sub_self (n * 10 ^ 9) (2 ^ 64)
  constructor
  · intro h
    have hfactor : (300 * 10 ^ 9 - n * 10 ^ 9 : Int) = 2 ^ 9 * (5 ^ 9 * (300 - n)) := by ring
    have hpow : ((2 ^ 64 : Nat) : Int) = 2 ^ 9 * 2 ^ 55 := by norm_num
    rw [h, hfactor, hpow] at hdvd
    -- what is left of `10 ^ 9` without its factor `2 ^ 9` is odd
    have hodd : (2 : Int) ^ 55 ∣ 5 ^ 9 * (300 - n) := Int.dvd_of_mul_dvd_mul_left (by decide) hdvd
    have hdiff := Int.dvd_of_dvd_mul_right_of_gcd_one hodd (by decide +kernel)
    rw [← Int.dvd_neg, Int.neg_sub]
    exact hdiff
  · rintro ⟨j, hj⟩
    have hupper := @Int.bmod_lt (n * 10 ^ 9) (2 ^ 64) (by decide)
    have hlower := @Int.le_bmod (n * 10 ^ 9) (2 ^ 64) (by decide)
    obtain ⟨k, hk⟩ := hdvd
    omega

theorem honours_iff_of_nonpos (h : timeoutSeconds ≤ 0) :
    Honours timeoutSeconds (contextTimeout (watchTimeout timeoutSeconds)) ↔
      (timeoutSeconds.toInt * 10 ^ 9).bmod (2 ^ 64) ≤ 0 ∨ 2 ^ 55 ∣ timeoutSeconds.toInt - 300 := by
  have hdefault : blockingQueryTimeout.toInt = 300 * 10 ^ 9 := by decide
  rw [contextTimeout_watchTimeout, Honours, if_pos h, ← mul_second_bmod_eq_default_iff]
  rcases lt_or_ge 0 ((timeoutSeconds.toInt * 10 ^ 9).bmod (2 ^ 64)) with hpos | hneg
  · rw [← Int64.toInt_inj, watchTimeout_of_pos hpos, hdefault]
    omega
  · simp only [watchTimeout_of_nonpos hneg, hneg, true_or]

theorem honours_iff_of_pos (h : 0 < timeoutSeconds) :
    Honours timeoutSeconds (contextTimeout (watchTimeout timeoutSeconds)) ↔
      timeoutSeconds.toInt ≤ 9223372036 := by
  have hseconds : 0 < timeoutSeconds.toInt := by
    simpa using Int64.lt_iff_toInt_lt.mp h
  have hdefault : blockingQueryTimeout.toInt = 300 * 10 ^ 9 := by decide
  have hmax : Int64.maxValue.toInt = 9223372036854775807 := by decide
  rw [contextTimeout_watchTimeout, Honours, if_neg (Int64.not_le.mpr h)]
  constructor
  · intro hhonours
    by_contra hlarge
    -- more than the longest duration is asked for, and neither the product nor the
    -- default is the longest duration
    rw [Int.min_eq_right (by omega)] at hhonours
    rcases lt_or_ge 0 ((timeoutSeconds.toInt * 10 ^ 9).bmod (2 ^ 64)) with hpos | hneg
    · rw [watchTimeout_of_pos hpos] at hhonours
      have hlt := mul_second_bmod_lt_maxValue timeoutSeconds.toInt
      omega
    · rw [watchTimeout_of_nonpos hneg] at hhonours
      omega
  · intro hsmall
    have hexact := mul_second_bmod_of_small hsmall (by omega)
    rw [watchTimeout_of_pos (by omega), hexact]
    exact Int.min_le_left ..

/-- Which requests are honoured. -/
theorem honours_iff (timeoutSeconds : Int64) :
    Honours timeoutSeconds (contextTimeout (watchTimeout timeoutSeconds)) ↔
      (0 < timeoutSeconds → timeoutSeconds.toInt ≤ 9223372036) ∧
      (timeoutSeconds ≤ 0 → (timeoutSeconds.toInt * 10 ^ 9).bmod (2 ^ 64) ≤ 0 ∨
        2 ^ 55 ∣ timeoutSeconds.toInt - 300) := by
  by_cases hsign : timeoutSeconds ≤ 0
  · have hnot : ¬ 0 < timeoutSeconds := Int64.not_lt.mpr hsign
    simp only [honours_iff_of_nonpos hsign, hnot, hsign, false_implies, true_implies, true_and]
  · have hpos : 0 < timeoutSeconds := Int64.not_le.mp hsign
    simp only [honours_iff_of_pos hpos, hpos, hsign, false_implies, true_implies, and_true]

end Durations

/-! ### The stream against the clock -/

/-- A stream, the time, and whether the client is still there.  `asked` is when the
    current `BlockingQuery` began; `timedOut` is a ghost, how long each of those took that
    were ended by their deadline. -/
structure TimedWatch where
  watch : WatchState
  now : Int
  asked : Int
  cancelled : Bool
  timedOut : List Int

inductive TimedAction where
  | pass (duration : Nat)
  | cancelCtx
  | act (action : WatchAction)

/-- A step of the stream or of the node, time passing, or the client going away.  The
    deadline is set when a `BlockingQuery` begins; the case of its `select` is ready when
    the deadline has passed or the client is gone.  The loop of `Watch` goes on only
    while the client is there. -/
def TimedWatch.step (json : Json) (key : Bytes) (timeoutSeconds : Int64) (action : TimedAction)
    (s : TimedWatch) : Option TimedWatch :=
  match action with
  | .pass duration => some { s with now := s.now + duration }
  | .cancelCtx => some { s with cancelled := true }
  | .act action =>
    match s.watch.step json key action with
    | none => none
    | some watch =>
      match action with
      | .query => if s.cancelled then none else some { s with watch := watch, asked := s.now }
      | .cancel => if s.cancelled then some { s with watch := watch } else none
      | .timeout =>
          if s.cancelled then some { s with watch := watch }
          else if s.asked + (contextTimeout (watchTimeout timeoutSeconds)).toInt ≤ s.now then
            some { s with watch := watch, timedOut := (s.now - s.asked) :: s.timedOut }
          else none
      | _ => some { s with watch := watch }

/-- The stream begins, whatever the state of the node. -/
def TimedWatch.Started (s : TimedWatch) : Prop :=
  s.watch.pc = .top ∧ s.cancelled = false ∧ s.timedOut = []

/-- The states of all timed runs of a watch with this timeout. -/
def TimedWatch.Reached (json : Json) (key : Bytes) (timeoutSeconds : Int64) : TimedWatch → Prop :=
  Interleaving.Reached (TimedWatch.step json key timeoutSeconds) (fun _ _ => True)
    TimedWatch.Started

/-- No `BlockingQuery` of the stream is over before it has waited for a second, unless
    it has something to report or the client is gone. -/
def WaitsBeforeTimeouts (json : Json) (key : Bytes) (timeoutSeconds : Int64) : Prop :=
  ∀ s, TimedWatch.Reached json key timeoutSeconds s → ∀ took ∈ s.timedOut, second.toInt ≤ took

section Timed

variable {json : Json} {key : Bytes} {timeoutSeconds : Int64} {s s' : TimedWatch}

/-- A step leaves the stream and the node alone or is one of theirs, and it records a
    timeout only when the deadline has passed. -/
theorem TimedWatch.step_cases {action : TimedAction}
    (hstep : s.step json key timeoutSeconds action = some s') :
    (s'.watch = s.watch ∨ ∃ action, s.watch.step json key action = some s'.watch) ∧
    (s'.timedOut = s.timedOut ∨
      ∃ took, s'.timedOut = took :: s.timedOut ∧
        (contextTimeout (watchTimeout timeoutSeconds)).toInt ≤ took) := by
  cases action with
  | pass duration =>
    obtain rfl := Option.some.inj hstep
    exact ⟨.inl rfl, .inl rfl⟩
  | cancelCtx =>
    obtain rfl := Option.some.inj hstep
    exact ⟨.inl rfl, .inl rfl⟩
  | act action =>
    simp only [TimedWatch.step] at hstep
    split at hstep
    · simp at hstep
    · rename_i watch hwatch
      split at hstep
      · split at hstep
        · simp at hstep
        · obtain rfl := Option.some.inj hstep
          exact ⟨.inr ⟨_, hwatch⟩, .inl rfl⟩
      · split at hstep
        · obtain rfl := Option.some.inj hstep
          exact ⟨.inr ⟨_, hwatch⟩, .inl rfl⟩
        · simp at hstep
      · split at hstep
        · obtain rfl := Option.some.inj hstep
          exact ⟨.inr ⟨_, hwatch⟩, .inl rfl⟩
        · split at hstep
          · rename_i hdeadline
            obtain rfl := Option.some.inj hstep
            exact ⟨.inr ⟨_, hwatch⟩, .inr ⟨s.now - s.asked, rfl, by omega⟩⟩
          · simp at hstep
      · obtain rfl := Option.some.inj hstep
        exact ⟨.inr ⟨_, hwatch⟩, .inl rfl⟩

/-- The timed runs are runs of the stream. -/
theorem TimedWatch.Reached.untimed (hreached : TimedWatch.Reached json key timeoutSeconds s) :
    Interleaving.Reached (WatchState.step json key) (fun _ _ => True) (fun watch => watch.pc = .top)
      s.watch := by
  induction hreached with
  | start hstarted => exact .start hstarted.1
  | step _ _ hstep ih =>
    rcases (TimedWatch.step_cases hstep).1 with hsame | ⟨action, hwatch⟩
    · rw [hsame]
      exact ih
    · exact ih.step trivial hwatch

/-- Every `BlockingQuery` that was ended by its deadline has waited for it. -/
def TimedWatch.Waited (timeoutSeconds : Int64) (s : TimedWatch) : Prop :=
  ∀ took ∈ s.timedOut, (contextTimeout (watchTimeout timeoutSeconds)).toInt ≤ took

theorem TimedWatch.Waited.step {action : TimedAction} (h : s.Waited timeoutSeconds)
    (hstep : s.step json key timeoutSeconds action = some s') : s'.Waited timeoutSeconds := by
  unfold TimedWatch.Waited
  rcases (TimedWatch.step_cases hstep).2 with hsame | ⟨took, hmore, htook⟩
  · rw [hsame]
    exact h
  · rw [hmore]
    exact List.forall_mem_cons.mpr ⟨htook, h⟩

theorem TimedWatch.Reached.waited (hreached : TimedWatch.Reached json key timeoutSeconds s) :
    s.Waited timeoutSeconds := by
  refine Interleaving.Reached.invariant hreached ?_ fun s action s' h _ hstep => h.step hstep
  intro s hstarted took htook
  simp [hstarted.2.2] at htook

/-- An honoured timeout is no less than a second. -/
theorem Honours.second_le {timeout : Int64} (h : Honours timeoutSeconds timeout) :
    second.toInt ≤ timeout.toInt := by
  have hsecond : second.toInt = 10 ^ 9 := by decide
  have hmax : Int64.maxValue.toInt = 9223372036854775807 := by decide
  unfold Honours at h
  split at h
  · rw [h]
    decide
  · rename_i hpos
    have hseconds : 0 < timeoutSeconds.toInt := by
      simpa using Int64.lt_iff_toInt_lt.mp (Int64.not_le.mp hpos)
    omega

/-- For every `timeout_seconds` of a request: the duration that reaches
    `context.WithTimeout` is the one the client may expect, and no stream with it times
    out before a second has passed, exactly if the request is for at most 9223372036
    seconds and, if it is negative, its product with `10 ^ 9` does not wrap to a positive
    number other than the default. -/
theorem watch_timeout_honoured_iff (json : Json) (key : Bytes) (timeoutSeconds : Int64) :
    Honours timeoutSeconds (contextTimeout (watchTimeout timeoutSeconds)) ∧
        WaitsBeforeTimeouts json key timeoutSeconds ↔
      (0 < timeoutSeconds → timeoutSeconds.toInt ≤ 9223372036) ∧
      (timeoutSeconds ≤ 0 → (timeoutSeconds.toInt * 10 ^ 9).bmod (2 ^ 64) ≤ 0 ∨
        2 ^ 55 ∣ timeoutSeconds.toInt - 300) := by
  rw [← honours_iff]
  constructor
  · exact fun h => h.1
  · intro h
    refine ⟨h, ?_⟩
    intro s hreached took htook
    exact h.second_le.trans (hreached.waited took htook)

end Timed

/-! ### A request that wraps -/

/-- A number of seconds that is 512 nanoseconds to the service. -/
def wrappedSeconds : Int64 := 20211507185753197

/-- A stream on an idle node that waits for the first entry, after some timeouts. -/
structure TimedWatch.Idle (n : Nat) (s : TimedWatch) : Prop where
  node : s.watch.node = .new
  top : s.watch.pc = .top
  minIndex : s.watch.minIndex = 1
  present : s.cancelled = false
  now : s.now = 512 * n
  timedOut : s.timedOut = List.replicate n 512
  sent : s.watch.history.count (.sent ⟨[], 0, false⟩) = n

/-- One turn of the loop of `Watch`. -/
def idleTurn : List TimedAction :=
  [.act .query, .act .readLocal, .act .readIndex, .act .fetchCh, .pass 512, .act .timeout,
    .act .send]

theorem TimedWatch.Idle.turn {json : Json} {key : Bytes} {n : Nat} {s : TimedWatch}
    (h : s.Idle n) : ∃ s', run (TimedWatch.step json key wrappedSeconds) (fun _ _ => True) idleTurn s =
      some s' ∧ s'.Idle (n + 1) := by
  obtain ⟨⟨node, pc, minIndex, history⟩, now, asked, cancelled, timedOut⟩ := s
  obtain ⟨hnode, htop, hmin, hpresent, hnow, htimedOut, hsent⟩ := h
  simp only at hnode htop hmin hpresent hnow htimedOut hsent
  subst hnode htop hmin hpresent hnow htimedOut
  have htimeout : (contextTimeout (watchTimeout wrappedSeconds)).toInt = 512 := by decide
  refine ⟨⟨⟨.new, .top, 1, .sent ⟨[], 0, false⟩ :: .read :: history⟩,
    512 * n + 512, 512 * n, false, 512 :: List.replicate n 512⟩, ?_, ?_⟩
  · simp [idleTurn, run, TimedWatch.step, WatchState.step, WatchedNode.step, WatchState.streamStep,
      htimeout, WatchedNode.new, WatchedNode.read, afterIndex, nextMinIndex]
  · refine ⟨rfl, rfl, rfl, rfl, ?_, rfl, ?_⟩
    · simp only
      omega
    · simp [hsent]

/-- As many responses as one likes, one every 512 nanoseconds. -/
theorem TimedWatch.exists_idle (json : Json) (key : Bytes) (n : Nat) :
    ∃ s, TimedWatch.Reached json key wrappedSeconds s ∧ s.Idle n := by
  induction n with
  | zero =>
    refine ⟨⟨.start .new 1, 0, 0, false, []⟩, .start ⟨rfl, rfl, rfl⟩, ?_⟩
    exact ⟨rfl, rfl, rfl, rfl, rfl, rfl, rfl⟩
  | succ n ih =>
    obtain ⟨s, hreached, hidle⟩ := ih
    obtain ⟨s', hrun, hidle'⟩ := hidle.turn
    exact ⟨s', reached_run hreached hrun, hidle'⟩

/-- Three requests that are not honoured.  The first makes a stream on an idle node send
    any number `n` of responses within `512 * n` nanoseconds.  The second asks for more
    than the default and gets the default.  The third is negative and does not. -/
theorem watch_timeout_wraps :
    (¬ Honours wrappedSeconds (contextTimeout (watchTimeout wrappedSeconds)) ∧
      ∀ n : Nat, ∃ s, TimedWatch.Reached goJson [97] wrappedSeconds s ∧ s.now = 512 * n ∧
        s.timedOut = List.replicate n 512 ∧
        s.watch.history.count (.sent ⟨[], 0, false⟩) = n) ∧
    (contextTimeout (watchTimeout 9223372037) = blockingQueryTimeout ∧
      ¬ Honours 9223372037 (contextTimeout (watchTimeout 9223372037))) ∧
    ((contextTimeout (watchTimeout (-9223372037))).toInt = 9223372036709551616 ∧
      ¬ Honours (-9223372037) (contextTimeout (watchTimeout (-9223372037)))) := by
  refine ⟨⟨by unfold Honours; decide, ?_⟩, ⟨by decide, by unfold Honours; decide⟩,
    ⟨by decide, by unfold Honours; decide⟩⟩
  intro n
  obtain ⟨s, hreached, hidle⟩ := TimedWatch.exists_idle goJson [97] n
  exact ⟨s, hreached, hidle.now, hidle.timedOut, hidle.sent⟩

end RaftExample
