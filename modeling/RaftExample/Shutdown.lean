import RaftExample.Forwarding
import RaftExample.Interleaving

/-!
# Handlers and shutdown

`Engine.Close` next to the gRPC handlers.  Handlers that forward a request get a
connection from `getOrCreateConn`, which looks into a cache under a read lock, again
under the write lock, and dials if it must.  `Close` closes every cached connection and
then lets the server drain.
-/

namespace RaftExample

open Interleaving

/-! ### Connections -/

/-- `connectivity.State` -/
inductive Connectivity where
  | idle
  | connecting
  | ready
  | transientFailure
  | shutdown
deriving DecidableEq, Repr

/-- The states in which `getOrCreateConn` returns a cached connection. -/
def Connectivity.usable : Connectivity → Bool
  | .idle | .connecting | .ready => true
  | .transientFailure | .shutdown => false

/-- Connections are numbered in the order in which they are made. -/
abbrev Conn := Nat

abbrev ConnCache := Std.ExtTreeMap Bytes Conn compare

/-! ### Handlers and the engine -/

/-- Where a handler is.  A handler that does not forward goes from `running` to
    `answering`. -/
inductive HandlerPC where
  | running
  /-- Knows the leader's address, is to enter `getOrCreateConn`. -/
  | resolved (addr : Bytes)
  /-- Found a connection under the read lock. -/
  | inspecting (addr : Bytes) (conn : Conn)
  /-- Wants the write lock. -/
  | waiting (addr : Bytes)
  /-- Has the write lock, is to look again. -/
  | locked (addr : Bytes)
  /-- Has the write lock, is to dial. -/
  | dialing (addr : Bytes)
  /-- `getOrCreateConn` has returned, `Invoke` has not. -/
  | invoking (conn : Conn)
  | answering
  | done
deriving DecidableEq, Repr

/-- Between entering `getOrCreateConn` and the end of `Invoke`. -/
def HandlerPC.forwarding : HandlerPC → Bool
  | .running | .resolved _ | .answering | .done => false
  | _ => true

def HandlerPC.holdsLock : HandlerPC → Bool
  | .locked _ | .dialing _ => true
  | _ => false

/-- Where `Engine.Close` is. -/
inductive ClosePC where
  | serving
  /-- `shutdownCh` is closed. -/
  | closing
  /-- In `CloseAllConns`, with the write lock. -/
  | closingConns
  /-- `GracefulStop` is about to run on its goroutine. -/
  | connsClosed
  | stopping
  | stopped
  | returned
deriving DecidableEq, Repr

/-- The server takes new calls until `GracefulStop` runs. -/
def ClosePC.accepts : ClosePC → Bool
  | .serving | .closing | .closingConns | .connsClosed => true
  | _ => false

/-- `CloseAllConns` has taken the lock. -/
def ClosePC.pastLock : ClosePC → Bool
  | .serving | .closing => false
  | _ => true

/-- `CloseAllConns` has returned. -/
def ClosePC.pastClose : ClosePC → Bool
  | .serving | .closing | .closingConns => false
  | _ => true

/-- Who has locked `connCacheMu` for writing. -/
inductive Locker where
  | handler (h : Nat)
  | engine
deriving DecidableEq, Repr

/-- The handlers in the order of their arrival.  `closedByEngine` is a ghost: the
    connections `CloseAllConns` has closed. -/
structure ShutdownState where
  connCache : ConnCache
  made : Nat
  closed : List Conn
  closedByEngine : List Conn
  connCacheMu : Option Locker
  handlers : List HandlerPC
  engine : ClosePC

def ShutdownState.new : ShutdownState := ⟨∅, 0, [], [], none, [], .serving⟩

inductive HandlerAction where
  | serveLocally
  | resolve (resolver : AddressResolver) (view : LeaderView)
  | lookup
  | inspect (state : Connectivity)
  | lock
  | recheck (state : Connectivity)
  | dial
  | dialFails
  | invokeReturns
  | answer

inductive CloseAction where
  | close
  | lockConns
  | closeConn (addr : Bytes)
  | unlockConns
  | gracefulStop
  | drained
  | deadline
  | finish
deriving DecidableEq, Repr

inductive ShutdownAction where
  | arrive
  | handler (h : Nat) (action : HandlerAction)
  | engine (action : CloseAction)

namespace ShutdownState

def setHandler (s : ShutdownState) (h : Nat) (pc : HandlerPC) : ShutdownState :=
  { s with handlers := s.handlers.set h pc }

/-- `GetState` can return this: a closed connection is shut down, and no other is. -/
def observes (s : ShutdownState) (conn : Conn) (state : Connectivity) : Bool :=
  decide (state = .shutdown) == decide (conn ∈ s.closed)

/-- The double check of `getOrCreateConn`.  A connection that has failed is closed and
    removed. -/
def recheck (s : ShutdownState) (h : Nat) (addr : Bytes) (state : Connectivity) :
    Option ShutdownState :=
  match s.connCache[addr]? with
  | none => some (s.setHandler h (.dialing addr))
  | some conn =>
      if s.observes conn state then
        if state.usable then
          some { s.setHandler h (.invoking conn) with connCacheMu := none }
        else
          some { s.setHandler h (.dialing addr) with
            connCache := s.connCache.erase addr, closed := conn :: s.closed }
      else none

/-- A step of a handler: `forwardRequestToLeader` with `getOrCreateConn`, and what the
    handler does otherwise. -/
def handlerStep (h : Nat) (action : HandlerAction) (s : ShutdownState) : Option ShutdownState :=
  match action, s.handlers[h]? with
  | .serveLocally, some .running => some (s.setHandler h .answering)
  | .resolve resolver view, some .running =>
      match leaderGRPCAddr resolver view with
      | .ok (some addr) => some (s.setHandler h (.resolved addr))
      | _ => some (s.setHandler h .answering)
  | .lookup, some (.resolved addr) =>
      if s.connCacheMu = none then
        match s.connCache[addr]? with
        | some conn => some (s.setHandler h (.inspecting addr conn))
        | none => some (s.setHandler h (.waiting addr))
      else none
  | .inspect state, some (.inspecting addr conn) =>
      if s.observes conn state then
        if state.usable then some (s.setHandler h (.invoking conn))
        else some (s.setHandler h (.waiting addr))
      else none
  | .lock, some (.waiting addr) =>
      if s.connCacheMu = none then
        some { s.setHandler h (.locked addr) with connCacheMu := some (.handler h) }
      else none
  | .recheck state, some (.locked addr) => s.recheck h addr state
  | .dial, some (.dialing addr) =>
      some { s.setHandler h (.invoking s.made) with
        connCache := s.connCache.insert addr s.made, made := s.made + 1, connCacheMu := none }
  | .dialFails, some (.dialing _) =>
      some { s.setHandler h .answering with connCacheMu := none }
  | .invokeReturns, some (.invoking _) => some (s.setHandler h .answering)
  | .answer, some .answering => some (s.setHandler h .done)
  | _, _ => none

/-- A step of `Engine.Close`.  The map is ranged over in any order.  `GracefulStop`
    returns when the handlers have; if the deadline is first, the server is stopped with
    handlers still running.  What follows, from the listener to the FSM, does not touch
    the cache. -/
def closeStep (action : CloseAction) (s : ShutdownState) : Option ShutdownState :=
  match action, s.engine with
  | .close, .serving => some { s with engine := .closing }
  | .lockConns, .closing =>
      if s.connCacheMu = none then
        some { s with engine := .closingConns, connCacheMu := some .engine }
      else none
  | .closeConn addr, .closingConns =>
      match s.connCache[addr]? with
      | some conn => some { s with
          connCache := s.connCache.erase addr
          closed := conn :: s.closed
          closedByEngine := conn :: s.closedByEngine }
      | none => none
  | .unlockConns, .closingConns =>
      if s.connCache.isEmpty then some { s with engine := .connsClosed, connCacheMu := none }
      else none
  | .gracefulStop, .connsClosed => some { s with engine := .stopping }
  | .drained, .stopping =>
      if s.handlers.all (· = .done) then some { s with engine := .stopped } else none
  | .deadline, .connsClosed => some { s with engine := .stopped }
  | .deadline, .stopping => some { s with engine := .stopped }
  | .finish, .stopped => some { s with engine := .returned }
  | _, _ => none

def step (action : ShutdownAction) (s : ShutdownState) : Option ShutdownState :=
  match action with
  | .arrive =>
      if s.engine.accepts then some { s with handlers := s.handlers ++ [.running] } else none
  | .handler h action => s.handlerStep h action
  | .engine action => s.closeStep action

end ShutdownState

/-! ### What a step can do -/

/-- The steps of a handler, one by one. -/
inductive HandlerStep (s : ShutdownState) (h : Nat) : HandlerAction → ShutdownState → Prop
  | serveLocally (hpc : s.handlers[h]? = some .running) :
      HandlerStep s h .serveLocally (s.setHandler h .answering)
  | resolve {resolver : AddressResolver} {view : LeaderView} (addr : Bytes)
      (hpc : s.handlers[h]? = some .running) :
      HandlerStep s h (.resolve resolver view) (s.setHandler h (.resolved addr))
  | unresolved {resolver : AddressResolver} {view : LeaderView}
      (hpc : s.handlers[h]? = some .running) :
      HandlerStep s h (.resolve resolver view) (s.setHandler h .answering)
  | hit {addr : Bytes} {conn : Conn} (hpc : s.handlers[h]? = some (.resolved addr)) :
      HandlerStep s h .lookup (s.setHandler h (.inspecting addr conn))
  | miss {addr : Bytes} (hpc : s.handlers[h]? = some (.resolved addr)) :
      HandlerStep s h .lookup (s.setHandler h (.waiting addr))
  | inspectUsable {addr : Bytes} {conn : Conn} {state : Connectivity}
      (hpc : s.handlers[h]? = some (.inspecting addr conn)) :
      HandlerStep s h (.inspect state) (s.setHandler h (.invoking conn))
  | inspectFailed {addr : Bytes} {conn : Conn} {state : Connectivity}
      (hpc : s.handlers[h]? = some (.inspecting addr conn)) :
      HandlerStep s h (.inspect state) (s.setHandler h (.waiting addr))
  | lock {addr : Bytes} (hpc : s.handlers[h]? = some (.waiting addr))
      (hfree : s.connCacheMu = none) : HandlerStep s h .lock
      { s.setHandler h (.locked addr) with connCacheMu := some (.handler h) }
  | recheckMissing {addr : Bytes} {state : Connectivity}
      (hpc : s.handlers[h]? = some (.locked addr)) (hmissing : s.connCache[addr]? = none) :
      HandlerStep s h (.recheck state) (s.setHandler h (.dialing addr))
  | recheckUsable {addr : Bytes} {conn : Conn} {state : Connectivity}
      (hpc : s.handlers[h]? = some (.locked addr)) : HandlerStep s h (.recheck state)
      { s.setHandler h (.invoking conn) with connCacheMu := none }
  | recheckFailed {addr : Bytes} {conn : Conn} {state : Connectivity}
      (hpc : s.handlers[h]? = some (.locked addr)) (hcached : s.connCache[addr]? = some conn) :
      HandlerStep s h (.recheck state) { s.setHandler h (.dialing addr) with
        connCache := s.connCache.erase addr, closed := conn :: s.closed }
  | dial {addr : Bytes} (hpc : s.handlers[h]? = some (.dialing addr)) :
      HandlerStep s h .dial { s.setHandler h (.invoking s.made) with
        connCache := s.connCache.insert addr s.made, made := s.made + 1, connCacheMu := none }
  | dialFails {addr : Bytes} (hpc : s.handlers[h]? = some (.dialing addr)) :
      HandlerStep s h .dialFails { s.setHandler h .answering with connCacheMu := none }
  | invokeReturns {conn : Conn} (hpc : s.handlers[h]? = some (.invoking conn)) :
      HandlerStep s h .invokeReturns (s.setHandler h .answering)
  | answer (hpc : s.handlers[h]? = some .answering) :
      HandlerStep s h .answer (s.setHandler h .done)

/-- The steps of `Engine.Close`, one by one. -/
inductive CloseStep (s : ShutdownState) : CloseAction → ShutdownState → Prop
  | close (hpc : s.engine = .serving) : CloseStep s .close { s with engine := .closing }
  | lockConns (hpc : s.engine = .closing) (hfree : s.connCacheMu = none) :
      CloseStep s .lockConns { s with engine := .closingConns, connCacheMu := some .engine }
  | closeConn {addr : Bytes} {conn : Conn} (hpc : s.engine = .closingConns)
      (hcached : s.connCache[addr]? = some conn) : CloseStep s (.closeConn addr)
      { s with connCache := s.connCache.erase addr, closed := conn :: s.closed,
               closedByEngine := conn :: s.closedByEngine }
  | unlockConns (hpc : s.engine = .closingConns) (hempty : s.connCache = ∅) :
      CloseStep s .unlockConns { s with engine := .connsClosed, connCacheMu := none }
  | gracefulStop (hpc : s.engine = .connsClosed) :
      CloseStep s .gracefulStop { s with engine := .stopping }
  | drained (hpc : s.engine = .stopping) : CloseStep s .drained { s with engine := .stopped }
  | deadline (hpc : s.engine.pastClose = true) :
      CloseStep s .deadline { s with engine := .stopped }
  | finish (hpc : s.engine = .stopped) : CloseStep s .finish { s with engine := .returned }

section Steps

variable {s s' : ShutdownState} {h : Nat}

theorem ShutdownState.handlerStep_spec {action : HandlerAction}
    (hstep : s.handlerStep h action = some s') : HandlerStep s h action s' := by
  unfold ShutdownState.handlerStep at hstep
  split at hstep
  · rename_i hpc
    obtain rfl := Option.some.inj hstep
    exact .serveLocally hpc
  · rename_i hpc
    split at hstep
    · obtain rfl := Option.some.inj hstep
      exact .resolve _ hpc
    · obtain rfl := Option.some.inj hstep
      exact .unresolved hpc
  · rename_i hpc
    split at hstep
    · split at hstep
      · obtain rfl := Option.some.inj hstep
        exact .hit hpc
      · obtain rfl := Option.some.inj hstep
        exact .miss hpc
    · simp at hstep
  · rename_i hpc
    split at hstep
    · split at hstep
      · obtain rfl := Option.some.inj hstep
        exact .inspectUsable hpc
      · obtain rfl := Option.some.inj hstep
        exact .inspectFailed hpc
    · simp at hstep
  · rename_i hpc
    split at hstep
    · rename_i hfree
      obtain rfl := Option.some.inj hstep
      exact .lock hpc hfree
    · simp at hstep
  · rename_i hpc
    unfold ShutdownState.recheck at hstep
    split at hstep
    · rename_i hmissing
      obtain rfl := Option.some.inj hstep
      exact .recheckMissing hpc hmissing
    · rename_i hcached
      split at hstep
      · split at hstep
        · obtain rfl := Option.some.inj hstep
          exact .recheckUsable hpc
        · obtain rfl := Option.some.inj hstep
          exact .recheckFailed hpc hcached
      · simp at hstep
  · rename_i hpc
    obtain rfl := Option.some.inj hstep
    exact .dial hpc
  · rename_i hpc
    obtain rfl := Option.some.inj hstep
    exact .dialFails hpc
  · rename_i hpc
    obtain rfl := Option.some.inj hstep
    exact .invokeReturns hpc
  · rename_i hpc
    obtain rfl := Option.some.inj hstep
    exact .answer hpc
  · simp at hstep

theorem ShutdownState.closeStep_spec {action : CloseAction}
    (hstep : s.closeStep action = some s') : CloseStep s action s' := by
  unfold ShutdownState.closeStep at hstep
  split at hstep
  · rename_i hpc
    obtain rfl := Option.some.inj hstep
    exact .close hpc
  · rename_i hpc
    split at hstep
    · rename_i hfree
      obtain rfl := Option.some.inj hstep
      exact .lockConns hpc hfree
    · simp at hstep
  · rename_i hpc
    split at hstep
    · rename_i hcached
      obtain rfl := Option.some.inj hstep
      exact .closeConn hpc hcached
    · simp at hstep
  · rename_i hpc
    split at hstep
    · rename_i hempty
      obtain rfl := Option.some.inj hstep
      exact .unlockConns hpc (Std.ExtTreeMap.isEmpty_iff.mp hempty)
    · simp at hstep
  · rename_i hpc
    obtain rfl := Option.some.inj hstep
    exact .gracefulStop hpc
  · rename_i hpc
    split at hstep
    · obtain rfl := Option.some.inj hstep
      exact .drained hpc
    · simp at hstep
  · rename_i hpc
    obtain rfl := Option.some.inj hstep
    exact .deadline (by rw [hpc]; rfl)
  · rename_i hpc
    obtain rfl := Option.some.inj hstep
    exact .deadline (by rw [hpc]; rfl)
  · rename_i hpc
    obtain rfl := Option.some.inj hstep
    exact .finish hpc
  · simp at hstep

end Steps

/-! ### Schedules -/

def leaderAddr : Bytes := [98]

def leaderAt : AddressResolver := ⟨fun _ => some leaderAddr⟩

/-- A handler gets a new connection to the leader. -/
def connects (h : Nat) : List ShutdownAction :=
  [.arrive, .handler h (.resolve leaderAt ⟨false, [99]⟩), .handler h .lookup, .handler h .lock,
    .handler h (.recheck .idle), .handler h .dial]

/-- Its call is answered. -/
def returns (h : Nat) : List ShutdownAction :=
  [.handler h .invokeReturns, .handler h .answer]

/-- `Close` up to the end of `CloseAllConns`, with these addresses in the cache. -/
def closesConns (addrs : List Bytes) : List ShutdownAction :=
  [.engine .close, .engine .lockConns] ++ addrs.map (fun addr => .engine (.closeConn addr)) ++
    [.engine .unlockConns]

/-- The rest of `Close`. -/
def stops : List ShutdownAction :=
  [.engine .gracefulStop, .engine .drained, .engine .finish]

end RaftExample
