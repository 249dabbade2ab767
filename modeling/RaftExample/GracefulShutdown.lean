import RaftExample.ConnectionCache

/-!
# Graceful shutdown

`Close` first closes every cached connection and then lets the server drain.  So a handler
that runs at that time may lose its connection, and one that comes between the two steps
puts a connection into a cache nobody will close.  If no request is forwarded from the
moment `CloseAllConns` takes the lock, neither happens.
-/

namespace RaftExample

open Interleaving

/-! ### The schedules in which nothing is forwarded any more -/

/-- The handlers return before the deadline of ten seconds. -/
def inTime : ShutdownAction → Bool
  | .engine .deadline => false
  | _ => true

/-- No request is being forwarded when `CloseAllConns` takes the lock, and none is
    forwarded later. -/
def forwardsOver (s : ShutdownState) : ShutdownAction → Bool
  | .engine .lockConns => s.handlers.all fun pc => !pc.forwarding
  | .handler _ .lookup => !s.engine.pastLock
  | _ => true

/-- No handler is about to use, or is using, a connection the engine has closed. -/
def ShutdownState.Unbroken (s : ShutdownState) : Prop :=
  ∀ conn, .invoking conn ∈ s.handlers → conn ∉ s.closedByEngine

/-- Every connection that was ever cached is closed, and none is cached any more. -/
def ShutdownState.Tidy (s : ShutdownState) : Prop :=
  (∀ conn < s.made, conn ∈ s.closed) ∧ s.connCache = ∅

/-! ### The invariant -/

/-- After `CloseAllConns` has taken the lock nobody forwards, before that the engine has
    closed nothing, and once it is through the cache is empty. -/
structure ShutdownState.Ok (s : ShutdownState) : Prop where
  unforwarded : s.engine.pastLock = true →
    ∀ (i : Nat) (pc : HandlerPC), s.handlers[i]? = some pc → pc.forwarding = false
  untouched : s.engine.pastLock = false → s.closedByEngine = []
  emptied : s.engine.pastClose = true → s.connCache = ∅

section Invariant

variable {s s' : ShutdownState} {i : Nat} {pc old : HandlerPC}

theorem ClosePC.pastLock_of_pastClose {pc : ClosePC} (h : pc.pastClose = true) : pc.pastLock = true := by
  cases pc <;> simp_all [ClosePC.pastClose, ClosePC.pastLock]

namespace ShutdownState.Ok

/-- A handler that forwards tells that `CloseAllConns` is still to come. -/
theorem before (h : s.Ok) (hpc : s.handlers[i]? = some old) (hforwarding : old.forwarding = true) :
    s.engine.pastLock = false := by
  by_contra hpast
  have hnot := h.unforwarded (by simpa using hpast) i old hpc
  rw [hnot] at hforwarding
  simp at hforwarding

/-- A handler moves, and leaves the cache alone once `CloseAllConns` has begun. -/
theorem move (h : s.Ok) {connCache : ConnCache} {made : Nat} {closed : List Conn}
    {connCacheMu : Option Locker} (hforwarding : s.engine.pastLock = true → pc.forwarding = false)
    (hcache : s.engine.pastLock = true → connCache = s.connCache) :
    Ok ⟨connCache, made, closed, s.closedByEngine, connCacheMu, s.handlers.set i pc, s.engine⟩ where
  unforwarded hpast j q hq := by
    rcases getElem?_set_cases hq with ⟨rfl, rfl⟩ | ⟨-, hq⟩
    · exact hforwarding hpast
    · exact h.unforwarded hpast j q hq
  untouched := h.untouched
  emptied hpast := (hcache (ClosePC.pastLock_of_pastClose hpast)).trans (h.emptied hpast)

/-- A handler moves that was not forwarding, or is not afterwards. -/
theorem setHandler (h : s.Ok) (hforwarding : s.engine.pastLock = true → pc.forwarding = false) :
    (s.setHandler i pc).Ok :=
  h.move hforwarding fun _ => rfl

/-- A handler that forwards does with the cache and the lock what it likes. -/
theorem moveForwarding (h : s.Ok) (hpc : s.handlers[i]? = some old) (hold : old.forwarding = true)
    {connCache : ConnCache} {made : Nat} {closed : List Conn} {connCacheMu : Option Locker} :
    Ok ⟨connCache, made, closed, s.closedByEngine, connCacheMu, s.handlers.set i pc, s.engine⟩ := by
  have hbefore := h.before hpc hold
  refine h.move ?_ ?_
  · simp [hbefore]
  · simp [hbefore]

theorem handlerStep {action : HandlerAction} (h : s.Ok) (hstep : HandlerStep s i action s')
    (hover : forwardsOver s (.handler i action) = true) : s'.Ok := by
  cases hstep with
  | serveLocally => exact h.setHandler fun _ => rfl
  | resolve addr => exact h.setHandler fun _ => rfl
  | unresolved => exact h.setHandler fun _ => rfl
  | hit hpc =>
    refine h.setHandler fun hpast => ?_
    simp [forwardsOver, hpast] at hover
  | miss hpc =>
    refine h.setHandler fun hpast => ?_
    simp [forwardsOver, hpast] at hover
  | inspectUsable hpc => exact h.moveForwarding hpc rfl
  | inspectFailed hpc => exact h.moveForwarding hpc rfl
  | lock hpc => exact h.moveForwarding hpc rfl
  | recheckMissing hpc => exact h.moveForwarding hpc rfl
  | recheckUsable hpc => exact h.moveForwarding hpc rfl
  | recheckFailed hpc => exact h.moveForwarding hpc rfl
  | dial hpc => exact h.moveForwarding hpc rfl
  | dialFails hpc => exact h.moveForwarding hpc rfl
  | invokeReturns => exact h.setHandler fun _ => rfl
  | answer => exact h.setHandler fun _ => rfl

/-- After `CloseAllConns` nothing depends on how far `Close` has come. -/
theorem advance {pc : ClosePC} (h : s.Ok) (hfrom : s.engine.pastClose = true)
    (hto : pc.pastClose = true) : Ok { s with engine := pc } where
  unforwarded _ := h.unforwarded (ClosePC.pastLock_of_pastClose hfrom)
  untouched hbefore := by simp [ClosePC.pastLock_of_pastClose hto] at hbefore
  emptied _ := h.emptied hfrom

theorem closeStep {action : CloseAction} (h : s.Ok) (hstep : CloseStep s action s')
    (hover : forwardsOver s (.engine action) = true) : s'.Ok := by
  cases hstep with
  | close hpc =>
    have hbefore : s.engine.pastLock = false := by rw [hpc]; rfl
    exact ⟨by simp [ClosePC.pastLock], fun _ => h.untouched hbefore, by simp [ClosePC.pastClose]⟩
  | lockConns hpc hfree =>
    have hidle : ∀ (i : Nat) (pc : HandlerPC), s.handlers[i]? = some pc → pc.forwarding = false := by
      intro i pc hi
      simpa using List.all_eq_true.mp hover pc (List.mem_of_getElem? hi)
    exact ⟨fun _ => hidle, by simp [ClosePC.pastLock], by simp [ClosePC.pastClose]⟩
  | closeConn hpc hcached =>
    have hpast : s.engine.pastLock = true := by rw [hpc]; rfl
    exact ⟨h.unforwarded, by simp [hpast], by simp [hpc, ClosePC.pastClose]⟩
  | unlockConns hpc hempty =>
    have hpast : s.engine.pastLock = true := by rw [hpc]; rfl
    exact ⟨fun _ => h.unforwarded hpast, by simp [ClosePC.pastLock], fun _ => hempty⟩
  | gracefulStop hpc => exact h.advance (by rw [hpc]; rfl) rfl
  | drained hpc => exact h.advance (by rw [hpc]; rfl) rfl
  | deadline hpc => exact h.advance hpc rfl
  | finish hpc => exact h.advance (by rw [hpc]; rfl) rfl

theorem arrive (h : s.Ok) : Ok { s with handlers := s.handlers ++ [.running] } where
  unforwarded hpast i pc hi := by
    rcases getElem?_concat_cases hi with hi | ⟨-, rfl⟩
    · exact h.unforwarded hpast i pc hi
    · rfl
  untouched := h.untouched
  emptied := h.emptied

theorem step {action : ShutdownAction} (h : s.Ok) (hover : forwardsOver s action = true)
    (hstep : s.step action = some s') : s'.Ok := by
  cases action with
  | arrive =>
    simp only [ShutdownState.step] at hstep
    split at hstep
    · obtain rfl := Option.some.inj hstep
      exact h.arrive
    · simp at hstep
  | handler i action => exact h.handlerStep (handlerStep_spec hstep) hover
  | engine action => exact h.closeStep (closeStep_spec hstep) hover

theorem unbroken (h : s.Ok) : s.Unbroken := by
  intro conn hinvoking hclosed
  obtain ⟨i, hi⟩ := List.mem_iff_getElem?.mp hinvoking
  rw [h.untouched (h.before hi rfl)] at hclosed
  simp at hclosed

/-- The connections are accounted for in every run; here the cache is empty. -/
theorem tidy (h : s.Ok) (hsound : s.Sound) (hreturned : s.engine = .returned) : s.Tidy := by
  have hempty := h.emptied (by rw [hreturned]; rfl)
  refine ⟨?_, hempty⟩
  intro conn hconn
  rcases hsound.ledger.accounted conn hconn with hclosed | ⟨addr, hcached⟩
  · exact hclosed
  · simp [hempty] at hcached

end ShutdownState.Ok

/-- The states of the runs in which the handlers return in time and no request is
    forwarded from the moment `CloseAllConns` takes the lock. -/
def ShutdownState.ReachedOver : ShutdownState → Prop :=
  Reached ShutdownState.step
    (fun s action => inTime action = true ∧ forwardsOver s action = true) (· = .new)

theorem ShutdownState.new_ok : ShutdownState.new.Ok where
  unforwarded := by simp [ShutdownState.new]
  untouched _ := rfl
  emptied _ := rfl

/-- In every such run, with any number of handlers before, during and after `Close`: no
    handler is left with a connection the shutdown has closed, and when `Close` has
    returned, every connection that was ever cached is closed and the cache is empty. -/
theorem shutdown_graceful (hreached : s.ReachedOver) :
    s.Unbroken ∧ (s.engine = .returned → s.Tidy) := by
  have hok : s.Ok := by
    refine hreached.invariant ?_ fun s action s' h hallowed hstep => h.step hallowed.2 hstep
    rintro s rfl
    exact ShutdownState.new_ok
  have hsound : s.Sound := by
    refine hreached.invariant ?_ fun s action s' h _ hstep => h.step hstep
    rintro s rfl
    exact ShutdownState.new_sound
  exact ⟨hok.unbroken, hok.tidy hsound⟩

end Invariant

/-! ### Three shutdowns -/

/-- A request is forwarded before the shutdown, and one arrives during it that is not. -/
theorem shutdown_graceful_forwardedBefore :
    ∃ s, run ShutdownState.step
        (fun s action => inTime action = true ∧ forwardsOver s action = true)
        (connects 0 ++ returns 0 ++ closesConns [leaderAddr] ++
          [.arrive, .handler 1 .serveLocally, .handler 1 .answer] ++ stops) .new = some s ∧
      s.made = 1 ∧ s.engine = .returned ∧ s.Unbroken ∧ s.Tidy := by
  have hends : (run ShutdownState.step
      (fun s action => inTime action = true ∧ forwardsOver s action = true)
      (connects 0 ++ returns 0 ++ closesConns [leaderAddr] ++
        [.arrive, .handler 1 .serveLocally, .handler 1 .answer] ++ stops) .new).any
      (fun s => s.made = 1 ∧ s.engine = .returned) = true := by decide +kernel
  obtain ⟨s, hrun, hend⟩ := (Option.any_eq_true ..).mp hends
  obtain ⟨hmade, hreturned⟩ := of_decide_eq_true hend
  obtain ⟨hunbroken, htidy⟩ := shutdown_graceful (reached_run (.start rfl) hrun)
  exact ⟨s, hrun, hmade, hreturned, hunbroken, htidy hreturned⟩

/-- Two shutdowns in time.  In the first a handler is calling the leader when its
    connection is closed.  In the second a handler comes between `CloseAllConns` and
    `GracefulStop`, and `Close` returns with its connection open and cached. -/
theorem shutdown_breaks_and_leaks :
    (∃ s s', run ShutdownState.step (fun _ action => inTime action = true)
        (connects 0 ++ closesConns [leaderAddr]) .new = some s ∧
      .invoking 0 ∈ s.handlers ∧ 0 ∈ s.closedByEngine ∧
      run ShutdownState.step (fun _ action => inTime action = true) (returns 0 ++ stops) s =
        some s' ∧ s'.engine = .returned) ∧
    ∃ s, run ShutdownState.step (fun _ action => inTime action = true)
        (closesConns [] ++ connects 0 ++ returns 0 ++ stops) .new = some s ∧
      s.engine = .returned ∧ s.connCache[leaderAddr]? = some 0 ∧ s.made = 1 ∧ s.closed = [] := by
  constructor
  · have hends : (run ShutdownState.step (fun _ action => inTime action = true)
        (connects 0 ++ closesConns [leaderAddr]) .new).any (fun s => .invoking 0 ∈ s.handlers ∧
          0 ∈ s.closedByEngine ∧ (run ShutdownState.step (fun _ action => inTime action = true)
            (returns 0 ++ stops) s).any (fun s' => s'.engine = .returned)) = true := by
      decide +kernel
    obtain ⟨s, hrun, hend⟩ := (Option.any_eq_true ..).mp hends
    obtain ⟨hinvoking, hclosed, hrest⟩ := of_decide_eq_true hend
    obtain ⟨s', hrun', hreturned⟩ := (Option.any_eq_true ..).mp hrest
    exact ⟨s, s', hrun, hinvoking, hclosed, hrun', of_decide_eq_true hreturned⟩
  · have hends : (run ShutdownState.step (fun _ action => inTime action = true)
        (closesConns [] ++ connects 0 ++ returns 0 ++ stops) .new).any (fun s =>
          s.engine = .returned ∧ s.connCache[leaderAddr]? = some 0 ∧ s.made = 1 ∧
            s.closed = []) = true := by
      decide +kernel
    obtain ⟨s, hrun, hend⟩ := (Option.any_eq_true ..).mp hends
    exact ⟨s, hrun, of_decide_eq_true hend⟩

end RaftExample
