import RaftExample.Shutdown

/-!
# The connection cache in every schedule

Whatever the schedule, and whether or not `Close` runs meanwhile: `getOrCreateConn` and
`CloseAllConns` close no connection twice, keep every open connection in the cache under
one address, and dial for no address that has one.  Their lock is never lost: every
handler and `Close` itself get through, however they are scheduled.
-/

namespace RaftExample

open Interleaving

/-- The states of all runs. -/
def ShutdownState.Possible : ShutdownState → Prop :=
  Reached ShutdownState.step (fun _ _ => True) (· = .new)

/-! ### Connections -/

/-- What the cache and the list of closed connections say about the connections made. -/
structure Ledger (connCache : ConnCache) (made : Nat) (closed : List Conn) : Prop where
  accounted : ∀ conn < made, conn ∈ closed ∨ ∃ addr : Bytes, connCache[addr]? = some conn
  known : ∀ conn ∈ closed, conn < made
  live : ∀ (addr : Bytes) (conn : Conn), connCache[addr]? = some conn → conn < made ∧ conn ∉ closed
  single : ∀ (addr other : Bytes) (conn : Conn), connCache[addr]? = some conn →
    connCache[other]? = some conn → other = addr
  nodup : closed.Nodup
  counted : made = closed.length + connCache.size

namespace Ledger

variable {connCache : ConnCache} {made : Nat} {closed : List Conn} {addr other : Bytes}
  {conn new : Conn}

theorem erase_cases (h : (connCache.erase addr)[other]? = some conn) :
    other ≠ addr ∧ connCache[other]? = some conn := by
  rw [Std.ExtTreeMap.getElem?_erase] at h
  split at h
  · simp at h
  · rename_i hne
    exact ⟨fun heq => hne (by simp [heq]), h⟩

theorem insert_cases (h : (connCache.insert addr new)[other]? = some conn) :
    (other = addr ∧ conn = new) ∨ connCache[other]? = some conn := by
  rw [Std.ExtTreeMap.getElem?_insert] at h
  split at h
  · rename_i heq
    exact .inl ⟨(by simpa using heq : addr = other).symm, (Option.some.inj h).symm⟩
  · exact .inr h

theorem contains_of_cached (h : connCache[addr]? = some conn) : connCache.contains addr = true := by
  rw [Std.ExtTreeMap.contains_eq_isSome_getElem?, h, Option.isSome_some]

/-- Removing a cached connection makes the cache smaller by one. -/
theorem size_erase_of_cached (h : connCache[addr]? = some conn) :
    (connCache.erase addr).size + 1 = connCache.size := by
  have hpos : connCache.size ≠ 0 := by
    intro hzero
    rw [Std.ExtTreeMap.eq_empty_iff_size_eq_zero.mpr hzero] at h
    simp at h
  rw [Std.ExtTreeMap.size_erase, if_pos (contains_of_cached h)]
  omega

/-- A cached connection is closed and removed. -/
theorem close (h : Ledger connCache made closed) (hcached : connCache[addr]? = some conn) :
    Ledger (connCache.erase addr) made (conn :: closed) where
  accounted c hc := by
    rcases h.accounted c hc with hclosed | ⟨other, hother⟩
    · exact .inl (List.mem_cons_of_mem _ hclosed)
    · by_cases heq : addr = other
      · subst heq
        rw [hcached] at hother
        exact .inl (by simp [Option.some.inj hother])
      · refine .inr ⟨other, ?_⟩
        rw [Std.ExtTreeMap.getElem?_erase, if_neg (by simpa using heq)]
        exact hother
  known c hc := by
    rcases List.mem_cons.mp hc with rfl | hclosed
    · exact (h.live addr c hcached).1
    · exact h.known c hclosed
  live other c hother := by
    obtain ⟨hne, hother⟩ := erase_cases hother
    obtain ⟨hmade, hopen⟩ := h.live other c hother
    refine ⟨hmade, fun hmem => ?_⟩
    rcases List.mem_cons.mp hmem with rfl | hclosed
    · exact hne (h.single addr other c hcached hother)
    · exact hopen hclosed
  single first second c hfirst hsecond :=
    h.single first second c (erase_cases hfirst).2 (erase_cases hsecond).2
  nodup := List.nodup_cons.mpr ⟨(h.live addr conn hcached).2, h.nodup⟩
  counted := by
    have hcounted := h.counted
    have hsize := size_erase_of_cached hcached
    rw [List.length_cons]
    omega

/-- A new connection is cached where there was none. -/
theorem dial (h : Ledger connCache made closed) (hvacant : connCache[addr]? = none) :
    Ledger (connCache.insert addr made) (made + 1) closed where
  accounted c hc := by
    rcases Nat.lt_succ_iff_lt_or_eq.mp hc with hold | rfl
    · refine (h.accounted c hold).imp id ?_
      rintro ⟨other, hother⟩
      have hne : addr ≠ other := by
        rintro rfl
        simp [hvacant] at hother
      refine ⟨other, ?_⟩
      rw [Std.ExtTreeMap.getElem?_insert, if_neg (by simpa using hne)]
      exact hother
    · exact .inr ⟨addr, Std.ExtTreeMap.getElem?_insert_self⟩
  known c hc := Nat.lt_succ_of_lt (h.known c hc)
  live other c hother := by
    rcases insert_cases hother with ⟨-, rfl⟩ | hother
    · exact ⟨Nat.lt_succ_self _, fun hclosed => Nat.lt_irrefl _ (h.known _ hclosed)⟩
    · obtain ⟨hmade, hopen⟩ := h.live other c hother
      exact ⟨Nat.lt_succ_of_lt hmade, hopen⟩
  single first second c hfirst hsecond := by
    rcases insert_cases hfirst with ⟨rfl, rfl⟩ | hold
    · rcases insert_cases hsecond with ⟨rfl, -⟩ | hold
      · rfl
      · exact absurd (h.live second _ hold).1 (Nat.lt_irrefl _)
    · rcases insert_cases hsecond with ⟨-, rfl⟩ | hold'
      · exact absurd (h.live first _ hold).1 (Nat.lt_irrefl _)
      · exact h.single first second c hold hold'
  nodup := h.nodup
  counted := by
    have hmissing : ¬ connCache.contains addr = true := by
      rw [Std.ExtTreeMap.contains_eq_isSome_getElem?, hvacant]
      simp
    rw [Std.ExtTreeMap.size_insert, if_neg hmissing, h.counted, Nat.add_assoc]

end Ledger

/-! ### The lock -/

/-- The lock is held by who the program counters say. -/
structure LockOk (connCacheMu : Option Locker) (handlers : List HandlerPC) (engine : ClosePC) :
    Prop where
  holder : ∀ (i : Nat) (pc : HandlerPC), handlers[i]? = some pc →
    (pc.holdsLock = true ↔ connCacheMu = some (.handler i))
  present : ∀ i : Nat, connCacheMu = some (.handler i) → i < handlers.length
  engine : connCacheMu = some .engine ↔ engine = .closingConns

namespace LockOk

variable {connCacheMu : Option Locker} {handlers : List HandlerPC} {engine engine' : ClosePC} {i : Nat}
  {pc old : HandlerPC}

/-- A handler moves and neither takes nor releases the lock. -/
theorem keep (h : LockOk connCacheMu handlers engine) (hi : handlers[i]? = some old)
    (hsame : pc.holdsLock = old.holdsLock) : LockOk connCacheMu (handlers.set i pc) engine where
  holder j q hq := by
    rcases getElem?_set_cases hq with ⟨rfl, rfl⟩ | ⟨-, hq⟩
    · rw [hsame]
      exact h.holder j old hi
    · exact h.holder j q hq
  present j hj := by
    rw [List.length_set]
    exact h.present j hj
  engine := h.engine

theorem acquire (h : LockOk none handlers engine) (hi : handlers[i]? = some old)
    (hpc : pc.holdsLock = true) : LockOk (some (.handler i)) (handlers.set i pc) engine where
  holder j q hq := by
    rcases getElem?_set_cases hq with ⟨rfl, rfl⟩ | ⟨hne, hq⟩
    · simp [hpc]
    · have hfree := h.holder j q hq
      simp only [reduceCtorEq, iff_false] at hfree
      simp [hfree, Ne.symm hne]
  present j hj := by
    obtain rfl := Locker.handler.inj (Option.some.inj hj)
    rw [List.length_set]
    exact (List.getElem?_eq_some_iff.mp hi).1
  engine := by
    have hengine := h.engine
    simp only [reduceCtorEq, false_iff] at hengine
    simp [hengine]

theorem release (h : LockOk connCacheMu handlers engine) (hi : handlers[i]? = some old)
    (hold : old.holdsLock = true) (hpc : pc.holdsLock = false) :
    LockOk none (handlers.set i pc) engine where
  holder j q hq := by
    have hmine := (h.holder i old hi).mp hold
    rcases getElem?_set_cases hq with ⟨rfl, rfl⟩ | ⟨hne, hq⟩
    · simp [hpc]
    · have hother := h.holder j q hq
      simp only [hmine, Option.some.injEq, Locker.handler.injEq, Ne.symm hne, iff_false] at hother
      simp [hother]
  present j hj := by simp at hj
  engine := by
    have hengine := h.engine
    simp only [(h.holder i old hi).mp hold, Option.some.injEq, reduceCtorEq, false_iff] at hengine
    simp [hengine]

/-- `Close` moves outside `CloseAllConns`. -/
theorem advance (h : LockOk connCacheMu handlers engine) (hfrom : engine ≠ .closingConns)
    (hto : engine' ≠ .closingConns) : LockOk connCacheMu handlers engine' where
  holder := h.holder
  present := h.present
  engine := by
    rw [h.engine]
    exact ⟨fun hin => absurd hin hfrom, fun hin => absurd hin hto⟩

theorem acquireEngine (h : LockOk none handlers engine) :
    LockOk (some .engine) handlers .closingConns where
  holder j q hq := by
    have hfree := h.holder j q hq
    simp only [reduceCtorEq, iff_false] at hfree
    simp [hfree]
  present j hj := by simp at hj
  engine := by simp

theorem releaseEngine (h : LockOk connCacheMu handlers .closingConns) :
    LockOk none handlers .connsClosed where
  holder j q hq := by
    have hother := h.holder j q hq
    simp only [h.engine.mpr rfl, Option.some.injEq, reduceCtorEq, iff_false] at hother
    simp [hother]
  present j hj := by simp at hj
  engine := by simp

/-- A new handler. -/
theorem arrive (h : LockOk connCacheMu handlers engine) :
    LockOk connCacheMu (handlers ++ [.running]) engine where
  holder j q hq := by
    rcases getElem?_concat_cases hq with hq | ⟨rfl, rfl⟩
    · exact h.holder j q hq
    · constructor
      · intro hholds
        simp [HandlerPC.holdsLock] at hholds
      · intro hmu
        exact absurd (h.present _ hmu) (Nat.lt_irrefl _)
  present j hj := by
    have hlt := h.present j hj
    rw [List.length_append]
    omega
  engine := h.engine

end LockOk

/-! ### The invariant -/

/-- The connections and the lock are in order, and a handler that is to dial has made room
    for its connection. -/
structure ShutdownState.Sound (s : ShutdownState) : Prop where
  ledger : Ledger s.connCache s.made s.closed
  lock : LockOk s.connCacheMu s.handlers s.engine
  vacant : ∀ (i : Nat) (addr : Bytes), s.handlers[i]? = some (.dialing addr) →
    s.connCache[addr]? = none

namespace ShutdownState.Sound

variable {s s' : ShutdownState} {i : Nat} {pc old : HandlerPC}

/-- A handler that does not hold the lock moves. -/
theorem setHandler (h : s.Sound) (hi : s.handlers[i]? = some old) (hold : old.holdsLock = false)
    (hpc : pc.holdsLock = false) : (s.setHandler i pc).Sound where
  ledger := h.ledger
  lock := h.lock.keep hi (hpc.trans hold.symm)
  vacant j addr hj := by
    rcases getElem?_set_cases hj with ⟨-, rfl⟩ | ⟨-, hj⟩
    · simp [HandlerPC.holdsLock] at hpc
    · exact h.vacant j addr hj

/-- The holder of the lock moves.  No other handler is to dial. -/
theorem moveHolder (h : s.Sound) (hi : s.handlers[i]? = some old) (hold : old.holdsLock = true)
    {connCache : ConnCache} {made : Nat} {closed : List Conn} {connCacheMu : Option Locker}
    (hledger : Ledger connCache made closed)
    (hlock : LockOk connCacheMu (s.handlers.set i pc) s.engine)
    (hvacant : ∀ addr : Bytes, pc = .dialing addr → connCache[addr]? = none) :
    Sound ⟨connCache, made, closed, s.closedByEngine, connCacheMu, s.handlers.set i pc, s.engine⟩ where
  ledger := hledger
  lock := hlock
  vacant j addr hj := by
    rcases getElem?_set_cases hj with ⟨-, hdialing⟩ | ⟨hne, hj⟩
    · exact hvacant addr hdialing.symm
    · have hmine := (h.lock.holder i old hi).mp hold
      have htheirs := (h.lock.holder j _ hj).mp rfl
      rw [hmine] at htheirs
      exact absurd (Locker.handler.inj (Option.some.inj htheirs)).symm hne

theorem handlerStep {action : HandlerAction} (h : s.Sound) (hstep : HandlerStep s i action s') :
    s'.Sound := by
  cases hstep with
  | serveLocally hpc => exact h.setHandler hpc rfl rfl
  | resolve addr hpc => exact h.setHandler hpc rfl rfl
  | unresolved hpc => exact h.setHandler hpc rfl rfl
  | hit hpc => exact h.setHandler hpc rfl rfl
  | miss hpc => exact h.setHandler hpc rfl rfl
  | inspectUsable hpc => exact h.setHandler hpc rfl rfl
  | inspectFailed hpc => exact h.setHandler hpc rfl rfl
  | lock hpc hfree =>
    have hlock := h.lock
    rw [hfree] at hlock
    refine ⟨h.ledger, hlock.acquire hpc rfl, ?_⟩
    intro j addr hj
    rcases getElem?_set_cases hj with ⟨-, hdialing⟩ | ⟨-, hj⟩
    · simp at hdialing
    · exact h.vacant j addr hj
  | recheckMissing hpc hmissing =>
    refine h.moveHolder hpc rfl h.ledger (h.lock.keep hpc rfl) ?_
    intro addr haddr
    obtain rfl := HandlerPC.dialing.inj haddr
    exact hmissing
  | recheckUsable hpc => exact h.moveHolder hpc rfl h.ledger (h.lock.release hpc rfl rfl) (by simp)
  | recheckFailed hpc hcached =>
    refine h.moveHolder hpc rfl (h.ledger.close hcached) (h.lock.keep hpc rfl) ?_
    intro addr haddr
    obtain rfl := HandlerPC.dialing.inj haddr
    simp
  | dial hpc =>
    exact h.moveHolder hpc rfl (h.ledger.dial (h.vacant i _ hpc)) (h.lock.release hpc rfl rfl)
      (by simp)
  | dialFails hpc => exact h.moveHolder hpc rfl h.ledger (h.lock.release hpc rfl rfl) (by simp)
  | invokeReturns hpc => exact h.setHandler hpc rfl rfl
  | answer hpc => exact h.setHandler hpc rfl rfl

/-- `Close` moves outside `CloseAllConns`. -/
theorem advance {engine' : ClosePC} (h : s.Sound) (hfrom : s.engine ≠ .closingConns)
    (hto : engine' ≠ .closingConns) : Sound { s with engine := engine' } :=
  ⟨h.ledger, h.lock.advance hfrom hto, h.vacant⟩

theorem closeStep {action : CloseAction} (h : s.Sound) (hstep : CloseStep s action s') :
    s'.Sound := by
  cases hstep with
  | close hpc => exact h.advance (by simp [hpc]) (by simp)
  | lockConns hpc hfree =>
    have hlock := h.lock
    rw [hfree] at hlock
    exact ⟨h.ledger, hlock.acquireEngine, h.vacant⟩
  | closeConn hpc hcached =>
    refine ⟨h.ledger.close hcached, h.lock, fun j addr hj => ?_⟩
    rw [Std.ExtTreeMap.getElem?_erase]
    split
    · rfl
    · exact h.vacant j addr hj
  | unlockConns hpc hempty =>
    have hlock := h.lock
    rw [hpc] at hlock
    exact ⟨h.ledger, hlock.releaseEngine, h.vacant⟩
  | gracefulStop hpc => exact h.advance (by simp [hpc]) (by simp)
  | drained hpc => exact h.advance (by simp [hpc]) (by simp)
  | deadline hpc =>
    refine h.advance ?_ (by simp)
    rintro hin
    simp [hin, ClosePC.pastClose] at hpc
  | finish hpc => exact h.advance (by simp [hpc]) (by simp)

theorem step {action : ShutdownAction} (h : s.Sound) (hstep : s.step action = some s') :
    s'.Sound := by
  cases action with
  | arrive =>
    simp only [ShutdownState.step] at hstep
    split at hstep
    · obtain rfl := Option.some.inj hstep
      refine ⟨h.ledger, h.lock.arrive, fun j addr hj => ?_⟩
      rcases getElem?_concat_cases hj with hj | ⟨-, hdialing⟩
      · exact h.vacant j addr hj
      · simp at hdialing
    · simp at hstep
  | handler i action => exact h.handlerStep (handlerStep_spec hstep)
  | engine action => exact h.closeStep (closeStep_spec hstep)

end ShutdownState.Sound

theorem ShutdownState.new_sound : ShutdownState.new.Sound where
  ledger := by
    refine ⟨?_, ?_, ?_, ?_, List.nodup_nil, rfl⟩ <;> simp [ShutdownState.new]
  lock := by
    refine ⟨?_, ?_, ?_⟩ <;> simp [ShutdownState.new]
  vacant := by simp [ShutdownState.new]

theorem ShutdownState.Possible.sound {s : ShutdownState} (h : s.Possible) : s.Sound := by
  refine h.invariant ?_ fun s action s' hs _ hstep => hs.step hstep
  rintro s rfl
  exact ShutdownState.new_sound

section Results

variable {s : ShutdownState}

/-- In every run: no connection is closed twice, a connection that was made and not closed
    is in the cache, under one address, and what is in the cache is not closed.  So there
    are as many open connections as addresses in the cache. -/
theorem open_connections_cached_once (hpossible : s.Possible) :
    s.closed.Nodup ∧ s.made = s.closed.length + s.connCache.size ∧
      ∀ conn, (conn < s.made ∧ conn ∉ s.closed) ↔
        ∃ addr : Bytes, s.connCache[addr]? = some conn ∧
          ∀ other : Bytes, s.connCache[other]? = some conn → other = addr := by
  have hledger := hpossible.sound.ledger
  refine ⟨hledger.nodup, hledger.counted, fun conn => ⟨?_, ?_⟩⟩
  · rintro ⟨hmade, hopen⟩
    obtain ⟨addr, haddr⟩ := (hledger.accounted conn hmade).resolve_left hopen
    exact ⟨addr, haddr, fun other hother => hledger.single addr other conn haddr hother⟩
  · rintro ⟨addr, haddr, -⟩
    exact hledger.live addr conn haddr

end Results

/-- The handlers of two requests to one address, neither of which finds a connection. -/
def racingHandlers : List ShutdownAction :=
  [.arrive, .arrive, .handler 0 (.resolve leaderAt ⟨false, [99]⟩),
    .handler 1 (.resolve leaderAt ⟨false, [99]⟩), .handler 0 .lookup, .handler 1 .lookup,
    .handler 1 .lock, .handler 1 (.recheck .idle), .handler 1 .dial, .handler 0 .lock,
    .handler 0 (.recheck .connecting)]

/-- Two handlers race for the lock: one connection is made. -/
theorem open_connections_cached_once_race :
    ∃ s, run ShutdownState.step (fun _ _ => True) racingHandlers .new = some s ∧
      s.handlers = [.invoking 0, .invoking 0] ∧ s.made = s.closed.length + s.connCache.size := by
  have hends : (run ShutdownState.step (fun _ _ => True) racingHandlers .new).any
      (fun s => s.handlers = [.invoking 0, .invoking 0]) = true := by decide +kernel
  obtain ⟨s, hrun, hend⟩ := (Option.any_eq_true ..).mp hends
  exact ⟨s, hrun, of_decide_eq_true hend,
    (open_connections_cached_once (reached_run (.start rfl) hrun)).2.1⟩

/-! ### Everybody gets through -/

/-- How many steps a handler may still take, at most. -/
def HandlerPC.rank : HandlerPC → Nat
  | .running => 8
  | .resolved _ => 7
  | .inspecting _ _ => 6
  | .waiting _ => 5
  | .locked _ => 4
  | .dialing _ => 3
  | .invoking _ => 2
  | .answering => 1
  | .done => 0

/-- The steps `Close` may still take, those that close connections apart. -/
def ClosePC.rank : ClosePC → Nat
  | .serving => 6
  | .closing => 5
  | .closingConns => 4
  | .connsClosed => 3
  | .stopping => 2
  | .stopped => 1
  | .returned => 0

/-- The work that is left.  A handler's step counts twice: a dial leaves a connection to
    close. -/
def ShutdownState.work (s : ShutdownState) : Nat :=
  2 * (s.handlers.map HandlerPC.rank).sum + s.connCache.size + s.engine.rank

/-- Everything but a new request. -/
def ShutdownAction.oldWork : ShutdownAction → Bool
  | .arrive => false
  | _ => true

namespace ShutdownState

variable {s s' : ShutdownState} {i : Nat}

theorem work_setHandler_lt {pc old : HandlerPC} (hi : s.handlers[i]? = some old)
    (hrank : pc.rank < old.rank) {connCache : ConnCache} (hsize : connCache.size ≤ s.connCache.size + 1)
    (made : Nat) (closed closedByEngine : List Conn) (connCacheMu : Option Locker) :
    work ⟨connCache, made, closed, closedByEngine, connCacheMu, s.handlers.set i pc, s.engine⟩ <
      s.work := by
  have hsum := sum_map_set (a := pc) (f := HandlerPC.rank) hi
  simp only [work]
  omega

theorem work_handlerStep {action : HandlerAction} (hstep : HandlerStep s i action s') :
    s'.work < s.work := by
  have hsame : s.connCache.size ≤ s.connCache.size + 1 := Nat.le_succ _
  have herase : ∀ addr, (s.connCache.erase addr).size ≤ s.connCache.size + 1 :=
    fun addr => Nat.le_succ_of_le Std.ExtTreeMap.size_erase_le
  cases hstep with
  | serveLocally hpc => exact work_setHandler_lt hpc (by decide) hsame _ _ _ _
  | resolve addr hpc => exact work_setHandler_lt hpc (by simp [HandlerPC.rank]) hsame _ _ _ _
  | unresolved hpc => exact work_setHandler_lt hpc (by decide) hsame _ _ _ _
  | hit hpc => exact work_setHandler_lt hpc (by simp [HandlerPC.rank]) hsame _ _ _ _
  | miss hpc => exact work_setHandler_lt hpc (by simp [HandlerPC.rank]) hsame _ _ _ _
  | inspectUsable hpc => exact work_setHandler_lt hpc (by simp [HandlerPC.rank]) hsame _ _ _ _
  | inspectFailed hpc => exact work_setHandler_lt hpc (by simp [HandlerPC.rank]) hsame _ _ _ _
  | lock hpc hfree => exact work_setHandler_lt hpc (by simp [HandlerPC.rank]) hsame _ _ _ _
  | recheckMissing hpc hmissing =>
    exact work_setHandler_lt hpc (by simp [HandlerPC.rank]) hsame _ _ _ _
  | recheckUsable hpc => exact work_setHandler_lt hpc (by simp [HandlerPC.rank]) hsame _ _ _ _
  | recheckFailed hpc hcached =>
    exact work_setHandler_lt hpc (by simp [HandlerPC.rank]) (herase _) _ _ _ _
  | dial hpc =>
    exact work_setHandler_lt hpc (by simp [HandlerPC.rank]) Std.ExtTreeMap.size_insert_le _ _ _ _
  | dialFails hpc => exact work_setHandler_lt hpc (by simp [HandlerPC.rank]) hsame _ _ _ _
  | invokeReturns hpc => exact work_setHandler_lt hpc (by simp [HandlerPC.rank]) hsame _ _ _ _
  | answer hpc => exact work_setHandler_lt hpc (by decide) hsame _ _ _ _

theorem work_closeStep {action : CloseAction} (hstep : s.closeStep action = some s') :
    s'.work < s.work := by
  cases closeStep_spec hstep with
  | closeConn hpc hcached =>
    have hsize := Ledger.size_erase_of_cached hcached
    simp only [work]
    omega
  | deadline hpc =>
    have hrank : ClosePC.stopped.rank < s.engine.rank := by
      cases hengine : s.engine <;> simp [closeStep, hengine] at hstep <;> simp [ClosePC.rank]
    simp only [work]
    omega
  | close hpc => simp [work, hpc, ClosePC.rank]
  | lockConns hpc hfree => simp [work, hpc, ClosePC.rank]
  | unlockConns hpc hempty => simp [work, hpc, ClosePC.rank]
  | gracefulStop hpc => simp [work, hpc, ClosePC.rank]
  | drained hpc => simp [work, hpc, ClosePC.rank]
  | finish hpc => simp [work, hpc, ClosePC.rank]

theorem work_step {action : ShutdownAction} (hold : action.oldWork = true)
    (hstep : s.step action = some s') : s'.work < s.work := by
  cases action with
  | arrive => simp [ShutdownAction.oldWork] at hold
  | handler i action => exact work_handlerStep (handlerStep_spec hstep)
  | engine action => exact work_closeStep hstep

/-- Nothing can happen any more unless a new request comes. -/
def Quiet (s : ShutdownState) : Prop := ∀ action : ShutdownAction, action.oldWork = true →
  s.step action = none

/-- `GetState` returns something. -/
theorem exists_observes (s : ShutdownState) (conn : Conn) : ∃ state, s.observes conn state = true := by
  by_cases hclosed : conn ∈ s.closed
  · exact ⟨.shutdown, by simp [observes, hclosed]⟩
  · exact ⟨.idle, by simp [observes, hclosed]⟩

namespace Quiet

/-- `CloseAllConns` is not running: it could close a connection, or return. -/
theorem not_closingConns (h : s.Quiet) : s.engine ≠ .closingConns := by
  intro hengine
  have hempty : s.connCache = ∅ := by
    apply Std.ExtTreeMap.ext_getElem?
    intro addr
    rw [Std.ExtTreeMap.getElem?_empty]
    cases hconn : s.connCache[addr]? with
    | none => rfl
    | some conn => simpa [step, closeStep, hengine, hconn] using h (.engine (.closeConn addr)) rfl
  simpa [step, closeStep, hengine, hempty] using h (.engine .unlockConns) rfl

/-- No handler has the lock: it could look into the cache, or give up its dial. -/
theorem not_holdsLock (h : s.Quiet) {pc : HandlerPC} (hi : s.handlers[i]? = some pc) :
    pc.holdsLock = false := by
  cases pc with
  | locked addr =>
    cases hconn : s.connCache[addr]? with
    | none => simpa [step, handlerStep, hi, recheck, hconn] using h (.handler i (.recheck .idle)) rfl
    | some conn =>
      obtain ⟨state, hstate⟩ := s.exists_observes conn
      have hnone := h (.handler i (.recheck state)) rfl
      simp only [step, handlerStep, hi, recheck, hconn, hstate, if_true] at hnone
      split at hnone <;> simp at hnone
  | dialing addr => simpa [step, handlerStep, hi] using h (.handler i .dialFails) rfl
  | _ => rfl

theorem unlocked (h : s.Quiet) (hsound : s.Sound) : s.connCacheMu = none := by
  cases hmu : s.connCacheMu with
  | none => rfl
  | some locker =>
    cases locker with
    | engine => exact absurd (hsound.lock.engine.mp hmu) h.not_closingConns
    | handler i =>
      have hi := List.getElem?_eq_getElem (hsound.lock.present i hmu)
      have hholds := (hsound.lock.holder i _ hi).mpr hmu
      rw [h.not_holdsLock hi] at hholds
      simp at hholds

/-- With the lock free every handler can go on. -/
theorem handler_done (h : s.Quiet) (hfree : s.connCacheMu = none) {pc : HandlerPC}
    (hi : s.handlers[i]? = some pc) : pc = .done := by
  have hholds := h.not_holdsLock hi
  cases pc with
  | done => rfl
  | running => simpa [step, handlerStep, hi] using h (.handler i .serveLocally) rfl
  | resolved addr =>
    have hnone := h (.handler i .lookup) rfl
    simp only [step, handlerStep, hi, hfree, if_true] at hnone
    split at hnone <;> simp at hnone
  | inspecting addr conn =>
    obtain ⟨state, hstate⟩ := s.exists_observes conn
    have hnone := h (.handler i (.inspect state)) rfl
    simp only [step, handlerStep, hi, hstate, if_true] at hnone
    split at hnone <;> simp at hnone
  | waiting addr => simpa [step, handlerStep, hi, hfree] using h (.handler i .lock) rfl
  | locked addr => simp [HandlerPC.holdsLock] at hholds
  | dialing addr => simp [HandlerPC.holdsLock] at hholds
  | invoking conn => simpa [step, handlerStep, hi] using h (.handler i .invokeReturns) rfl
  | answering => simpa [step, handlerStep, hi] using h (.handler i .answer) rfl

/-- With the lock free and no handler left `Close` can go on. -/
theorem engine_returned (h : s.Quiet) (hfree : s.connCacheMu = none)
    (hdone : ∀ pc ∈ s.handlers, pc = .done) : s.engine = .returned := by
  cases hengine : s.engine with
  | returned => rfl
  | serving => simpa [step, closeStep, hengine] using h (.engine .close) rfl
  | closing => simpa [step, closeStep, hengine, hfree] using h (.engine .lockConns) rfl
  | closingConns => exact absurd hengine h.not_closingConns
  | connsClosed => simpa [step, closeStep, hengine] using h (.engine .gracefulStop) rfl
  | stopping =>
    have hall : s.handlers.all (· = .done) = true := by simpa using hdone
    simpa only [step, closeStep, hengine, hall, if_true, reduceCtorEq] using h (.engine .drained) rfl
  | stopped => simpa [step, closeStep, hengine] using h (.engine .finish) rfl

end Quiet

/-- Whatever has happened, and in whatever order the rest is scheduled: as long as no new
    request comes, only so many steps are left, and when none can be taken any more, every
    handler has answered and `Close` has returned. -/
theorem shutdown_completes (hpossible : s.Possible) {actions : List ShutdownAction}
    (hrun : run step (fun _ action => action.oldWork = true) actions s = some s') :
    actions.length + s'.work ≤ s.work ∧
      (s'.Quiet → s'.engine = .returned ∧ ∀ pc ∈ s'.handlers, pc = .done) := by
  obtain ⟨hsound, hlength⟩ := length_add_le_of_run work
    (fun _ _ _ hs hold hstep => ⟨Sound.step hs hstep, work_step hold hstep⟩) hpossible.sound hrun
  refine ⟨hlength, fun hquiet => ?_⟩
  have hfree := hquiet.unlocked hsound
  have hdone : ∀ pc ∈ s'.handlers, pc = .done := by
    intro pc hpc
    obtain ⟨i, hi⟩ := List.mem_iff_getElem?.mp hpc
    exact hquiet.handler_done hfree hi
  exact ⟨hquiet.engine_returned hfree hdone, hdone⟩

theorem quiet_of_work (h : s.work = 0) : s.Quiet := by
  intro action hold
  cases hstep : s.step action with
  | none => rfl
  | some s' =>
    have hless := work_step hold hstep
    omega

/-- `Close` comes while two handlers share a connection. -/
theorem shutdown_completes_race :
    ∃ s s', run step (fun _ _ => True) racingHandlers .new = some s ∧
      run step (fun _ action => action.oldWork = true)
        (returns 1 ++ closesConns [leaderAddr] ++ returns 0 ++ stops) s = some s' ∧
      s'.engine = .returned ∧ ∀ pc ∈ s'.handlers, pc = .done := by
  have hends : (run step (fun _ _ => True) racingHandlers .new).any (fun s =>
      (run step (fun _ action => action.oldWork = true)
        (returns 1 ++ closesConns [leaderAddr] ++ returns 0 ++ stops) s).any
          (fun s' => s'.work = 0)) = true := by decide +kernel
  obtain ⟨s, hrun, hrest⟩ := (Option.any_eq_true ..).mp hends
  obtain ⟨s', hrun', hwork⟩ := (Option.any_eq_true ..).mp hrest
  have hpossible : s.Possible := reached_run (.start rfl) hrun
  exact ⟨s, s', hrun, hrun', (shutdown_completes hpossible hrun').2
    (quiet_of_work (of_decide_eq_true hwork))⟩

end ShutdownState

end RaftExample
