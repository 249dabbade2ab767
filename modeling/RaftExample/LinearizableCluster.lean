import RaftExample.Linearizability
import RaftExample.LinearizableReads
import RaftExample.MapRefinement

/-!
# The cluster is a linearizable map

All `Add`s and all `Get`s with `Linearizable`, on every server and with their forwarded
calls, as one history.  That a read includes what was acknowledged before it is not
enough for a map: a later read must not fall behind an earlier one either.  A server that
is deposed between `VerifyLeader` and `ReadLocal` may apply an entry before the new leader
does, and `Get` on the new leader then reads an older state.  If a read finds its server
still the last one elected, and the flag is as current as in `barrierCurrent`, the whole
history is that of one map.
-/

namespace RaftExample

open Interleaving Linearizability
open scoped List

/-! ### The map -/

/-- An `Add` is the log entry it proposes. -/
inductive MapOp where
  | entry (data : Bytes)
  | get (key : Bytes)
deriving DecidableEq, Repr

def mapObject (json : Json) : Object (Bytes → Bytes) MapOp Bytes where
  init _ := []
  next answers op :=
    match op with
    | .entry data => mapApply json answers data
    | .get _ => answers
  answer answers op :=
    match op with
    | .entry _ => []
    | .get key => answers key

/-- The map after the first `n` entries. -/
def mapAt (json : Json) (log : List Bytes) (n : Nat) : Bytes → Bytes :=
  (log.take n).foldl (mapApply json) fun _ => []

theorem answersOf_replay (json : Json) (log : List Bytes) :
    answersOf (replay json log) = log.foldl (mapApply json) fun _ => [] := by
  induction log using List.reverseRecOn with
  | nil =>
    funext key
    exact answersOf_empty key
  | append_singleton log data ih =>
    rw [replay, List.foldl_append, List.foldl_cons, List.foldl_nil, ← replay,
      answersOf_appliedContent, ih, List.foldl_append, List.foldl_cons, List.foldl_nil]

theorem mapAt_append {json : Json} {log : List Bytes} (later : List Bytes) {n : Nat}
    (hn : n ≤ log.length) : mapAt json (log ++ later) n = mapAt json log n := by
  rw [mapAt, List.take_append_of_le_length hn, mapAt]

/-! ### Histories -/

/-- An `Add` by the position of its entry, a `Get` by its number. -/
inductive CallId where
  | add (position : Nat)
  | get (k : Nat)
deriving DecidableEq, Repr

abbrev ClusterEvent := Event CallId MapOp Bytes

def GetPC.emits (k : Nat) : GetPC → List ClusterEvent
  | .returned value => [.respond (.get k) value]
  | _ => []

/-- What the callers see of an action.  An `Add` has begun at the latest when its entry is
    committed; a `Get` that is forwarded is one more call on the other server. -/
def Cluster.emits {ι : Type} [DecidableEq ι] (s : Cluster ι) :
    ClusterAction ι → List ClusterEvent
  | .commit data => [.invoke (.add s.committed.length) (.entry data)]
  | .acknowledge position =>
      if position ∈ s.acked then [] else [.respond (.add position) []]
  | .issue _ key => [.invoke (.get s.calls.length) (.get key)]
  | .forward k _ =>
      match s.calls[k]? with
      | some call => [.invoke (.get s.calls.length) (.get call.key)]
      | none => []
  | .get k action =>
      match (s.calls[k]?).bind (s.getStep action) with
      | some pc => pc.emits k
      | none => []
  | _ => []

/-- A cluster with its history. -/
structure Recorded (ι : Type) where
  cluster : Cluster ι
  history : List ClusterEvent

def Recorded.new {ι : Type} : Recorded ι := ⟨.new, []⟩

def Recorded.step {ι : Type} [DecidableEq ι] (json : Json) (action : ClusterAction ι)
    (r : Recorded ι) : Option (Recorded ι) :=
  (r.cluster.step json action).map fun s => ⟨s, r.history ++ r.cluster.emits action⟩

/-- A call that reads finds its server still the last one elected. -/
def Cluster.readsAsLeader {ι : Type} [DecidableEq ι] (s : Cluster ι) : ClusterAction ι → Bool
  | .get k .read =>
      match s.calls[k]? with
      | some call => decide (s.leaderOf s.stint = some call.server)
      | none => true
  | _ => true

/-! ### What a step can do -/

section Steps

variable {ι : Type} [DecidableEq ι]

/-- The steps with their events, one by one. -/
inductive RecordedStep (json : Json) (r : Recorded ι) : ClusterAction ι → Recorded ι → Prop
  | quiet {action : ClusterAction ι} {s : Cluster ι} (hcalls : s.calls = r.cluster.calls)
      (hcommitted : s.committed = r.cluster.committed) :
      RecordedStep json r action ⟨s, r.history⟩
  | commit (data : Bytes) : RecordedStep json r (.commit data) ⟨r.cluster.append data,
      r.history ++ [.invoke (.add r.cluster.committed.length) (.entry data)]⟩
  | acknowledge {position : Nat} {entry : CommittedEntry} {i : ι}
      (hentry : r.cluster.committed[position]? = some entry)
      (hleader : r.cluster.leaderOf entry.stint = some i)
      (happlied : position < (r.cluster.servers i).applied) :
      RecordedStep json r (.acknowledge position)
        ⟨{ r.cluster with acked := position :: r.cluster.acked },
          r.history ++ [.respond (.add position) []]⟩
  | issue (i : ι) (key : Bytes) : RecordedStep json r (.issue i key)
      ⟨{ r.cluster with calls := r.cluster.calls ++ [⟨i, key, r.cluster.acked, .issued⟩] },
        r.history ++ [.invoke (.get r.cluster.calls.length) (.get key)]⟩
  | forward {k : Nat} {call : GetCall ι} (target : ι) (hcall : r.cluster.calls[k]? = some call)
      (hissued : call.pc = .issued) : RecordedStep json r (.forward k target)
      ⟨{ r.cluster with calls :=
          r.cluster.calls.set k { call with pc := .forwarded r.cluster.calls.length } ++
            [⟨target, call.key, r.cluster.acked, .issued⟩] },
        r.history ++ [.invoke (.get r.cluster.calls.length) (.get call.key)]⟩
  | get {k : Nat} {action : GetAction} {call : GetCall ι} {pc : GetPC}
      (hcall : r.cluster.calls[k]? = some call) (hopen : ∀ value, call.pc ≠ .returned value)
      (hget : GetStep r.cluster call action pc) : RecordedStep json r (.get k action)
      ⟨{ r.cluster with calls := r.cluster.calls.set k { call with pc := pc } },
        r.history ++ pc.emits k⟩

variable {json : Json} {s : Cluster ι} {r r' : Recorded ι} {action : ClusterAction ι}

/-- A call that has returned takes no step. -/
theorem Cluster.getStep_open {action : GetAction} {call : GetCall ι} {pc : GetPC}
    (hstep : s.getStep action call = some pc) (value : Bytes) : call.pc ≠ .returned value := by
  intro hpc
  cases action <;> simp [Cluster.getStep, hpc] at hstep

theorem Recorded.step_spec (hstep : r.step json action = some r') :
    RecordedStep json r action r' := by
  obtain ⟨s', hcluster, rfl⟩ := Option.map_eq_some_iff.mp hstep
  have hspec := Cluster.step_spec hcluster
  cases action with
  | commit data =>
    simp only [Cluster.step] at hcluster
    split at hcluster
    · obtain rfl := Option.some.inj hcluster
      exact .commit data
    · simp at hcluster
  | acknowledge position =>
    simp only [Cluster.step] at hcluster
    split at hcluster
    · simp at hcluster
    · rename_i entry hentry
      split at hcluster
      · simp at hcluster
      · rename_i i hleader
        split at hcluster
        · rename_i happlied
          obtain rfl := Option.some.inj hcluster
          by_cases hacked : position ∈ r.cluster.acked
          · rw [Cluster.emits, if_pos hacked, List.append_nil]
            exact .quiet rfl rfl
          · rw [Cluster.emits, if_neg hacked]
            exact .acknowledge hentry hleader happlied
        · simp at hcluster
  | issue i key =>
    obtain rfl := Option.some.inj hcluster
    exact .issue i key
  | forward k target =>
    simp only [Cluster.step] at hcluster
    split at hcluster
    · simp at hcluster
    · rename_i call hcall
      split at hcluster
      · rename_i hissued
        obtain rfl := Option.some.inj hcluster
        simp only [Cluster.emits, hcall]
        exact .forward target hcall hissued.1
      · simp at hcluster
  | get k action =>
    simp only [Cluster.step] at hcluster
    split at hcluster
    · simp at hcluster
    · rename_i call hcall
      split at hcluster
      · simp at hcluster
      · rename_i pc hget
        obtain rfl := Option.some.inj hcluster
        simp only [Cluster.emits, hcall, Option.bind_some, hget]
        exact .get hcall (Cluster.getStep_open hget) (Cluster.getStep_spec hget)
  | _ =>
    -- the others belong to raft and to the leadership
    simp only [Cluster.emits, List.append_nil]
    cases hspec <;> exact .quiet rfl rfl

end Steps

/-! ### What is settled -/

section Settled

variable {ι : Type} {json : Json} {s s' : Cluster ι} {stint n : Nat}

/-- The first `n` entries are out of danger: the leader of the stint has applied them, and
    they were committed before the later stints. -/
structure Cluster.SecuredBy (s : Cluster ι) (stint n : Nat) : Prop where
  known : stint ≤ s.stint
  committed : n ≤ s.committed.length
  leader : ∀ i, s.leaderOf stint = some i → n ≤ (s.servers i).applied
  base : ∀ u, stint < u → u ≤ s.stint → n ≤ s.base u

/-- Whoever has caught up with a later stint has applied them. -/
theorem Cluster.SecuredBy.applied (h : s.SecuredBy stint n) {i : ι} {verified flag : Nat}
    (hstint : stint ≤ verified) (hleader : s.leaderOf verified = some i) (hflag : verified ≤ flag)
    (hcaught : s.CaughtUp i flag) : n ≤ (s.servers i).applied := by
  rcases Nat.eq_or_lt_of_le (Nat.le_trans hstint hflag) with hsame | hearlier
  · obtain rfl : stint = verified := by omega
    exact h.leader i hleader
  · exact Nat.le_trans (h.base flag hearlier hcaught.1) hcaught.2

/-- An acknowledged entry. -/
theorem Cluster.LogOk.secured (h : s.LogOk json) {p : Nat} {entry : CommittedEntry} {i : ι}
    (hentry : s.committed[p]? = some entry) (hleader : s.leaderOf entry.stint = some i)
    (happlied : p < (s.servers i).applied) : s.SecuredBy entry.stint (p + 1) where
  known := h.stints p entry hentry
  committed := (List.getElem?_eq_some_iff.mp hentry).1
  leader j hj := by
    obtain rfl := Option.some.inj (hleader.symm.trans hj)
    exact happlied
  base u hu hle := h.before p entry hentry u hu hle

/-- What the last server elected has applied. -/
theorem Cluster.LogOk.secured_applied (h : s.LogOk json) {i : ι}
    (hleader : s.leaderOf s.stint = some i) : s.SecuredBy s.stint (s.servers i).applied where
  known := Nat.le_refl _
  committed := by
    have happlied := h.applied i
    rwa [Cluster.log, List.length_map] at happlied
  leader j hj := by
    obtain rfl := Option.some.inj (hleader.symm.trans hj)
    exact Nat.le_refl _
  base u hu hle := absurd hle (Nat.not_le_of_lt hu)

variable [DecidableEq ι] {action : ClusterAction ι}

/-- A stint begins behind all that is committed. -/
theorem ClusterStep.committed_le_base (hstep : ClusterStep json s action s') {u : Nat}
    (hu : s.stint < u) (hle : u ≤ s'.stint) : s.committed.length ≤ s'.base u := by
  cases hstep with
  | gain i =>
    obtain rfl : u = s.stint + 1 := Nat.le_antisymm hle hu
    have hnew : (s.elect i).base (s.stint + 1) = s.committed.length := Function.update_self ..
    exact Nat.le_of_eq hnew.symm
  | _ => exact absurd hle (Nat.not_le_of_lt hu)

theorem ClusterStep.secured (hstep : ClusterStep json s action s') (h : s.SecuredBy stint n) :
    s'.SecuredBy stint n := by
  have hlater := hstep.later
  refine ⟨Nat.le_trans h.known hlater.stint, ?_, ?_, ?_⟩
  · exact Nat.le_trans h.committed hlater.committed.length_le
  · intro i hi
    rw [hlater.leaderOf stint h.known] at hi
    exact Nat.le_trans (h.leader i hi) (hlater.applied i)
  · intro u hu hle
    by_cases hold : u ≤ s.stint
    · rw [hlater.base u hold]
      exact h.base u hu hold
    · exact Nat.le_trans h.committed (hstep.committed_le_base (Nat.lt_of_not_le hold) hle)

end Settled

/-! ### The order of the calls -/

abbrev CallOrder := List (CallId × MapOp)

def isEntry (call : CallId × MapOp) : Bool :=
  match call.2 with
  | .entry _ => true
  | .get _ => false

/-- The calls that see at most the first `n` entries. -/
def first (n : Nat) (order : CallOrder) : List CallId := (upTo isEntry n order).map Prod.fst

/-- The calls of the entries of a log. -/
def entryCalls (log : List Bytes) : CallOrder := log.mapIdx fun p data => (.add p, .entry data)

/-- The call had returned when this `Get` began. -/
def Before (history : List ClusterEvent) (k : Nat) (id : CallId) : Prop :=
  ∃ ret op, [.respond id ret, .invoke (.get k) op] <+ history

section Order

variable {json : Json} {order before behind : CallOrder} {log : List Bytes} {n : Nat}
  {history : List ClusterEvent} {k : Nat} {id : CallId}

theorem mapObject_look {call : CallId × MapOp} (answers : Bytes → Bytes)
    (h : isEntry call = false) : (mapObject json).next answers call.2 = answers := by
  obtain ⟨id, op⟩ := call
  cases op with
  | entry data => simp [isEntry] at h
  | get key => rfl

/-- What is seen after the first `n` entries of an order. -/
theorem after_upTo (h : order.filter isEntry = entryCalls log) (n : Nat) :
    (mapObject json).after (mapObject json).init (upTo isEntry n order) = mapAt json log n := by
  have hops : ((entryCalls log).take n).map Prod.snd = (log.take n).map MapOp.entry := by
    apply List.ext_getElem?
    intro p
    simp [entryCalls, List.getElem?_take, Function.comp_def]
  rw [← Object.after_filter isEntry (fun answers _ => mapObject_look answers), filter_upTo, h]
  calc (mapObject json).after (mapObject json).init ((entryCalls log).take n)
      = (((entryCalls log).take n).map Prod.snd).foldl (mapObject json).next
          (mapObject json).init := by rw [List.foldl_map]; rfl
    _ = (log.take n).foldl (mapApply json) fun _ => [] := by rw [hops, List.foldl_map]; rfl

theorem first_of_le {m : Nat} (h : id ∈ first n order) (hle : n ≤ m) : id ∈ first m order := by
  obtain ⟨call, hcall, rfl⟩ := List.mem_map.mp h
  exact List.mem_map_of_mem (mem_upTo_of_le hcall hle)

theorem first_append (h : id ∈ first n order) (more : CallOrder) : id ∈ first n (order ++ more) := by
  obtain ⟨call, hcall, rfl⟩ := List.mem_map.mp h
  exact List.mem_map_of_mem (mem_upTo_append hcall more)

theorem first_insert (h : id ∈ first n (before ++ behind)) (other : CallId) (key : Bytes) :
    id ∈ first n (before ++ (other, .get key) :: behind) := by
  obtain ⟨call, hcall, rfl⟩ := List.mem_map.mp h
  exact List.mem_map_of_mem (mem_upTo_insert rfl hcall)

/-- The `Add` of an entry is among the calls that see it. -/
theorem add_mem_first (h : order.filter isEntry = entryCalls log) {p : Nat} {data : Bytes}
    (hdata : log[p]? = some data) : .add p ∈ first (p + 1) order := by
  have hcall : (order.filter isEntry)[p]? = some (.add p, .entry data) := by
    rw [h, entryCalls, List.getElem?_mapIdx, hdata]
    rfl
  exact List.mem_map_of_mem (change_mem_upTo hcall (Nat.lt_succ_self p))

theorem Before.append (h : Before history k id) (events : List ClusterEvent) :
    Before (history ++ events) k id := by
  obtain ⟨ret, op, hpair⟩ := h
  exact ⟨ret, op, hpair.trans (List.sublist_append_left _ _)⟩

theorem Before.responded (h : Before history k id) : ∃ ret, .respond id ret ∈ history := by
  obtain ⟨ret, op, hpair⟩ := h
  exact ⟨ret, hpair.subset List.mem_cons_self⟩

theorem Before.of_append {events : List ClusterEvent} (h : Before (history ++ events) k id)
    (hother : ∀ op, .invoke (.get k) op ∉ events) : Before history k id := by
  obtain ⟨ret, op, hpair⟩ := h
  rcases pair_sublist_append hpair with hold | hnew
  · exact ⟨ret, op, hold⟩
  · exact absurd hnew (hother op)

end Order

/-! ### The invariant -/

section Invariant

variable {ι : Type}

/-- A call has a place in the order once it is in the log, or has read. -/
def Cluster.Placed (s : Cluster ι) (call : CallId × MapOp) : Prop :=
  match call.1 with
  | .add p => ∃ data, s.log[p]? = some data ∧ call.2 = .entry data
  | .get k => ∃ get value, s.calls[k]? = some get ∧ get.pc = .returned value ∧ call.2 = .get get.key

/-- The call sees no entry that is not settled in the stint. -/
def Cluster.Settled (s : Cluster ι) (order : CallOrder) (stint : Nat) (id : CallId) : Prop :=
  ∃ n, s.SecuredBy stint n ∧ id ∈ first n order

/-- What a call can rely on at each of its places. -/
def Recorded.Trusts (json : Json) (order : CallOrder) (r : Recorded ι) (k : Nat)
    (call : GetCall ι) : Prop :=
  match call.pc with
  | .forwarded inner => (∃ other, r.cluster.calls[inner]? = some other ∧ other.key = call.key) ∧
      ∀ id, Before r.history k id → Before r.history inner id
  | .polling stint => stint ≤ r.cluster.stint ∧ r.cluster.leaderOf stint = some call.server ∧
      ∀ id, Before r.history k id → ∃ u ≤ stint, r.cluster.Settled order u id
  | .reading => ∀ id, Before r.history k id → id ∈ first (r.cluster.servers call.server).applied order
  | .returned value => ∃ stint n, r.cluster.SecuredBy stint n ∧
      value = mapAt json r.cluster.log n call.key ∧
      ∀ id, Before r.history k id → id ∈ first n order
  | _ => True

structure Recorded.Explains (json : Json) (order : CallOrder) (r : Recorded ι) : Prop where
  linearizes : Linearizes (mapObject json) r.history order
  entries : order.filter isEntry = entryCalls r.cluster.log
  placed : ∀ call ∈ order, r.cluster.Placed call
  issued : ∀ k call, r.cluster.calls[k]? = some call → .invoke (.get k) (.get call.key) ∈ r.history
  settled : ∀ id ret, .respond id ret ∈ r.history → ∃ stint, r.cluster.Settled order stint id
  trusts : ∀ k call, r.cluster.calls[k]? = some call → r.Trusts json order k call

variable {json : Json} {order order' : CallOrder} {r r' : Recorded ι} {k : Nat} {call : GetCall ι}

/-- The cluster, its history and the order of its calls have gone on. -/
structure Recorded.Continues (order order' : CallOrder) (r r' : Recorded ι) : Prop where
  later : r.cluster.Later r'.cluster
  secured : ∀ stint n, r.cluster.SecuredBy stint n → r'.cluster.SecuredBy stint n
  first : ∀ n id, id ∈ first n order → id ∈ RaftExample.first n order'
  history : ∃ events, r'.history = r.history ++ events
  before : ∀ k < r.cluster.calls.length, ∀ id, Before r'.history k id → Before r.history k id

theorem Cluster.Settled.later {stint : Nat} {id : CallId} (h : r.cluster.Settled order stint id)
    (hcontinues : r.Continues order order' r') : r'.cluster.Settled order' stint id := by
  obtain ⟨n, hsecured, hfirst⟩ := h
  exact ⟨n, hcontinues.secured stint n hsecured, hcontinues.first n id hfirst⟩

theorem Recorded.Trusts.later (h : r.Trusts json order k call)
    (hcontinues : r.Continues order order' r') (hk : k < r.cluster.calls.length) :
    r'.Trusts json order' k call := by
  have hlater := hcontinues.later
  have hbefore := hcontinues.before k hk
  unfold Recorded.Trusts at h ⊢
  split
  · rename_i inner hpc
    simp only [hpc] at h
    obtain ⟨⟨other, hother, hkey⟩, hinner⟩ := h
    obtain ⟨other', hother', hkey', -⟩ := hlater.calls inner other hother
    refine ⟨⟨other', hother', hkey'.trans hkey⟩, fun id hid => ?_⟩
    obtain ⟨events, hevents⟩ := hcontinues.history
    rw [hevents]
    exact (hinner id (hbefore id hid)).append events
  · rename_i stint hpc
    simp only [hpc] at h
    obtain ⟨hstint, hleader, hsettled⟩ := h
    refine ⟨Nat.le_trans hstint hlater.stint, by rw [hlater.leaderOf _ hstint, hleader], ?_⟩
    intro id hid
    obtain ⟨u, hu, hid'⟩ := hsettled id (hbefore id hid)
    exact ⟨u, hu, hid'.later hcontinues⟩
  · rename_i hpc
    simp only [hpc] at h
    intro id hid
    exact first_of_le (hcontinues.first _ id (h id (hbefore id hid))) (hlater.applied _)
  · rename_i value hpc
    simp only [hpc] at h
    obtain ⟨stint, n, hsecured, hvalue, hfirst⟩ := h
    obtain ⟨rest, hrest⟩ := hlater.log
    have hn : n ≤ r.cluster.log.length := by
      rw [Cluster.log, List.length_map]
      exact hsecured.committed
    refine ⟨stint, n, hcontinues.secured stint n hsecured, ?_, ?_⟩
    · rw [hrest, mapAt_append rest hn, hvalue]
    · exact fun id hid => hcontinues.first n id (hfirst id (hbefore id hid))
  · trivial

/-- A call that has not returned has no place yet. -/
theorem Recorded.Explains.unplaced (h : r.Explains json order)
    (hcall : ∀ get value, r.cluster.calls[k]? = some get → get.pc ≠ .returned value) :
    .get k ∉ order.map Prod.fst := by
  intro hmem
  obtain ⟨⟨id, op⟩, hplaced, rfl⟩ := List.mem_map.mp hmem
  obtain ⟨get, value, hget, hreturned, -⟩ := h.placed _ hplaced
  exact hcall get value hget hreturned

theorem Recorded.Explains.unplaced_add (h : r.Explains json order) :
    .add r.cluster.committed.length ∉ order.map Prod.fst := by
  intro hmem
  obtain ⟨⟨id, op⟩, hplaced, rfl⟩ := List.mem_map.mp hmem
  obtain ⟨data, hdata, -⟩ := h.placed _ hplaced
  simp [Cluster.log] at hdata

/-! ### Steps keep the invariant -/

variable {action : ClusterAction ι}

/-- What has returned stays as it is. -/
theorem RecordedStep.returned (hrec : RecordedStep json r action r') {get : GetCall ι} {value : Bytes}
    (hget : r.cluster.calls[k]? = some get) (hreturned : get.pc = .returned value) :
    r'.cluster.calls[k]? = some get := by
  have hk : k < r.cluster.calls.length := (List.getElem?_eq_some_iff.mp hget).1
  cases hrec with
  | quiet hcalls _ => rw [hcalls, hget]
  | commit data => exact hget
  | acknowledge _ _ _ => exact hget
  | issue i key => exact (List.getElem?_append_left hk).trans hget
  | @forward j call target hcall hissued =>
    have hne : j ≠ k := by
      rintro rfl
      rw [hcall] at hget
      simp [Option.some.inj hget, hreturned] at hissued
    have hold : (r.cluster.calls.set j { call with pc := .forwarded r.cluster.calls.length })[k]? =
        some get := (List.getElem?_set_ne hne).trans hget
    exact (List.getElem?_append_left (by rwa [List.length_set])).trans hold
  | @get j _ call _ hcall hopen _ =>
    have hne : j ≠ k := by
      rintro rfl
      rw [hcall] at hget
      exact hopen value (Option.some.inj hget ▸ hreturned)
    exact (List.getElem?_set_ne hne).trans hget

/-- Every call that is there has begun. -/
theorem RecordedStep.issued (hrec : RecordedStep json r action r')
    (h : ∀ k call, r.cluster.calls[k]? = some call → .invoke (.get k) (.get call.key) ∈ r.history)
    (hcall : r'.cluster.calls[k]? = some call) :
    .invoke (.get k) (.get call.key) ∈ r'.history := by
  cases hrec with
  | quiet hcalls _ => exact h k call (hcalls ▸ hcall)
  | commit data => exact List.mem_append_left _ (h k call hcall)
  | acknowledge _ _ _ => exact List.mem_append_left _ (h k call hcall)
  | issue i key =>
    rcases getElem?_concat_cases hcall with hold | ⟨rfl, rfl⟩
    · exact List.mem_append_left _ (h k call hold)
    · exact List.mem_append_right _ List.mem_cons_self
  | forward target hmoved _ =>
    rcases getElem?_concat_cases hcall with hold | ⟨hk, rfl⟩
    · rcases getElem?_set_cases hold with ⟨rfl, rfl⟩ | ⟨-, hold⟩
      · have hbegun := h _ _ hmoved
        exact List.mem_append_left _ hbegun
      · exact List.mem_append_left _ (h k call hold)
    · rw [List.length_set] at hk
      subst hk
      exact List.mem_append_right _ List.mem_cons_self
  | get hmoved _ _ =>
    rcases getElem?_set_cases hcall with ⟨rfl, rfl⟩ | ⟨-, hold⟩
    · have hbegun := h _ _ hmoved
      exact List.mem_append_left _ hbegun
    · exact List.mem_append_left _ (h k call hold)

/-- The events of a step.  A call begins only when it is new. -/
theorem RecordedStep.events (hrec : RecordedStep json r action r') :
    ∃ events, r'.history = r.history ++ events ∧
      ∀ k < r.cluster.calls.length, ∀ op, .invoke (.get k) op ∉ events := by
  cases hrec with
  | quiet _ _ => exact ⟨[], (List.append_nil _).symm, by simp⟩
  | commit data => exact ⟨_, rfl, by simp⟩
  | acknowledge _ _ _ => exact ⟨_, rfl, by simp⟩
  | issue i key =>
    refine ⟨_, rfl, fun k hk op hmem => ?_⟩
    simp [Nat.ne_of_lt hk] at hmem
  | forward target _ _ =>
    refine ⟨_, rfl, fun k hk op hmem => ?_⟩
    simp [Nat.ne_of_lt hk] at hmem
  | @get _ _ _ pc _ _ _ =>
    refine ⟨_, rfl, fun k _ op => ?_⟩
    cases pc <;> simp [GetPC.emits]

variable [DecidableEq ι]

theorem RecordedStep.continues (hrec : RecordedStep json r action r')
    (hstep : ClusterStep json r.cluster action r'.cluster)
    (hfirst : ∀ n id, id ∈ first n order → id ∈ first n order') : r.Continues order order' r' := by
  obtain ⟨events, hhistory, hevents⟩ := hrec.events
  refine ⟨hstep.later, fun _ _ => hstep.secured, hfirst, ⟨events, hhistory⟩, ?_⟩
  intro k hk id hbefore
  rw [hhistory] at hbefore
  exact hbefore.of_append (hevents k hk)

theorem RecordedStep.placed (hrec : RecordedStep json r action r')
    (hstep : ClusterStep json r.cluster action r'.cluster) {placed : CallId × MapOp}
    (h : r.cluster.Placed placed) : r'.cluster.Placed placed := by
  obtain ⟨id, op⟩ := placed
  cases id with
  | add p =>
    obtain ⟨data, hdata, hop⟩ := h
    obtain ⟨rest, hrest⟩ := hstep.later.log
    refine ⟨data, ?_, hop⟩
    rw [hrest, List.getElem?_append_left (List.getElem?_eq_some_iff.mp hdata).1, hdata]
  | get k =>
    obtain ⟨get, value, hget, hreturned, hop⟩ := h
    exact ⟨get, value, hrec.returned hget hreturned, hreturned, hop⟩

/-- The order after a step, given what is new: the calls that were placed, those that have
    returned, and those that have moved. -/
theorem Recorded.Explains.next (h : r.Explains json order) (hrec : RecordedStep json r action r')
    (hstep : ClusterStep json r.cluster action r'.cluster)
    (hfirst : ∀ n id, id ∈ first n order → id ∈ first n order')
    (hlinearizes : Linearizes (mapObject json) r'.history order')
    (hentries : order'.filter isEntry = entryCalls r'.cluster.log)
    (hplaced : ∀ call ∈ order', call ∈ order ∨ r'.cluster.Placed call)
    (hsettled : ∀ id ret, .respond id ret ∈ r'.history →
      .respond id ret ∈ r.history ∨ ∃ stint, r'.cluster.Settled order' stint id)
    (htrusts : ∀ k call, r'.cluster.calls[k]? = some call →
      r.cluster.calls[k]? = some call ∨ r'.Trusts json order' k call) : r'.Explains json order' := by
  have hcontinues := hrec.continues hstep hfirst
  refine ⟨hlinearizes, hentries, ?_, fun k call => hrec.issued h.issued, ?_, ?_⟩
  · intro call hcall
    exact (hplaced call hcall).elim (fun hold => hrec.placed hstep (h.placed call hold)) id
  · intro id ret hret
    rcases hsettled id ret hret with hold | hnew
    · obtain ⟨stint, hid⟩ := h.settled id ret hold
      exact ⟨stint, hid.later hcontinues⟩
    · exact hnew
  · intro k call hcall
    rcases htrusts k call hcall with hold | hnew
    · exact (h.trusts k call hold).later hcontinues (List.getElem?_eq_some_iff.mp hold).1
    · exact hnew

theorem Recorded.Explains.quiet {s : Cluster ι} (h : r.Explains json order)
    (hstep : ClusterStep json r.cluster action s) (hcalls : s.calls = r.cluster.calls)
    (hcommitted : s.committed = r.cluster.committed) :
    Recorded.Explains json order ⟨s, r.history⟩ := by
  have hlog : s.log = r.cluster.log := by rw [Cluster.log, hcommitted, Cluster.log]
  apply h.next (.quiet hcalls hcommitted) hstep (fun _ _ hid => hid) h.linearizes
  · exact h.entries.trans (by rw [hlog])
  · exact fun call hcall => .inl hcall
  · exact fun id ret hret => .inl hret
  · exact fun k call hcall => .inl (hcalls ▸ hcall)

/-- An entry is committed, and takes the last place. -/
theorem Recorded.Explains.commit (h : r.Explains json order) {data : Bytes}
    (hstep : ClusterStep json r.cluster (.commit data) (r.cluster.append data)) :
    Recorded.Explains json
      (order ++ [(.add r.cluster.committed.length, .entry data)])
      ⟨r.cluster.append data,
        r.history ++ [.invoke (.add r.cluster.committed.length) (.entry data)]⟩ := by
  have hlog : (r.cluster.append data).log = r.cluster.log ++ [data] := List.map_append
  have hlength : r.cluster.log.length = r.cluster.committed.length := List.length_map ..
  have hbegun := h.linearizes.invoke h.unplaced_add (.entry data)
  apply h.next (.commit data) hstep (fun n id hid => first_append hid _)
  · exact hbegun.place_last (List.mem_append_right _ List.mem_cons_self) h.unplaced_add
  · rw [List.filter_append, h.entries, hlog]
    simp [entryCalls, isEntry, List.mapIdx_concat, hlength]
  · intro call hcall
    rcases List.mem_append.mp hcall with hold | hnew
    · exact .inl hold
    · obtain rfl := List.mem_singleton.mp hnew
      refine .inr ⟨data, ?_, rfl⟩
      rw [hlog, ← hlength, List.getElem?_concat_length]
  · intro id ret hret
    exact .inl (by simpa using hret)
  · exact fun k call hcall => .inl hcall

/-- The `Add` of an entry returns. -/
theorem Recorded.Explains.acknowledge (h : r.Explains json order) (hok : r.cluster.Ok json)
    {position : Nat} {entry : CommittedEntry} {i : ι}
    (hentry : r.cluster.committed[position]? = some entry)
    (hleader : r.cluster.leaderOf entry.stint = some i)
    (happlied : position < (r.cluster.servers i).applied)
    (hstep : ClusterStep json r.cluster (.acknowledge position)
      { r.cluster with acked := position :: r.cluster.acked }) :
    Recorded.Explains json order ⟨{ r.cluster with acked := position :: r.cluster.acked },
      r.history ++ [.respond (.add position) []]⟩ := by
  have hdata : r.cluster.log[position]? = some entry.data := by
    rw [Cluster.log, List.getElem?_map, hentry]
    rfl
  have hplace : (CallId.add position, MapOp.entry entry.data) ∈ order := by
    have hcall : (order.filter isEntry)[position]? = some (.add position, .entry entry.data) := by
      rw [h.entries, entryCalls, List.getElem?_mapIdx, hdata]
      rfl
    exact (List.mem_filter.mp (List.mem_of_getElem? hcall)).1
  apply h.next (.acknowledge hentry hleader happlied) hstep (fun _ _ hid => hid)
  · apply h.linearizes.respond
    obtain ⟨before, behind, rfl⟩ := List.append_of_mem hplace
    exact (mapObject json).answer_mem _ before behind _ _
  · exact h.entries
  · exact fun call hcall => .inl hcall
  · intro id ret hret
    rcases List.mem_append.mp hret with hold | hnew
    · exact .inl hold
    · obtain ⟨rfl, -⟩ := Event.respond.inj (List.mem_singleton.mp hnew)
      exact .inr ⟨entry.stint, position + 1,
        hstep.secured (hok.log.secured hentry hleader happlied), add_mem_first h.entries hdata⟩
  · exact fun k call hcall => .inl hcall

theorem Recorded.Explains.issue (h : r.Explains json order) (i : ι) (key : Bytes) :
    Recorded.Explains json order
      ⟨{ r.cluster with calls := r.cluster.calls ++ [⟨i, key, r.cluster.acked, .issued⟩] },
        r.history ++ [.invoke (.get r.cluster.calls.length) (.get key)]⟩ := by
  have hfresh := h.unplaced (k := r.cluster.calls.length) (by simp)
  apply h.next (.issue i key) (.issue i key) (fun _ _ hid => hid) (h.linearizes.invoke hfresh _)
  · exact h.entries
  · exact fun call hcall => .inl hcall
  · intro id ret hret
    exact .inl (by simpa using hret)
  · intro k call hcall
    rcases getElem?_concat_cases hcall with hold | ⟨-, rfl⟩
    · exact .inl hold
    · exact .inr trivial

/-- A call is forwarded: all that had returned before it has returned before the call on
    the other server. -/
theorem Recorded.Explains.forward (h : r.Explains json order) (target : ι)
    (hcall : r.cluster.calls[k]? = some call) (hissued : call.pc = .issued) :
    Recorded.Explains json order
      ⟨{ r.cluster with calls :=
          r.cluster.calls.set k { call with pc := .forwarded r.cluster.calls.length } ++
            [⟨target, call.key, r.cluster.acked, .issued⟩] },
        r.history ++ [.invoke (.get r.cluster.calls.length) (.get call.key)]⟩ := by
  have hfresh := h.unplaced (k := r.cluster.calls.length) (by simp)
  apply h.next (.forward target hcall hissued) (.forward target hcall) (fun _ _ hid => hid)
    (h.linearizes.invoke hfresh _)
  · exact h.entries
  · exact fun call hcall => .inl hcall
  · intro id ret hret
    exact .inl (by simpa using hret)
  · intro j moved hmoved
    rcases getElem?_concat_cases hmoved with hold | ⟨-, rfl⟩
    · rcases getElem?_set_cases hold with ⟨rfl, rfl⟩ | ⟨-, hold⟩
      · refine .inr ⟨⟨⟨target, call.key, r.cluster.acked, .issued⟩, by simp, rfl⟩, ?_⟩
        intro id hid
        obtain ⟨ret, hret⟩ := hid.responded
        have hreturned : .respond id ret ∈ r.history := by simpa using hret
        refine ⟨ret, .get call.key, ?_⟩
        exact (List.singleton_sublist.mpr hreturned).append (.refl _)
      · exact .inl hold
    · exact .inr trivial

/-- A call moves on without an answer. -/
theorem Recorded.Explains.move (h : r.Explains json order) {getAction : GetAction} {pc : GetPC}
    (hcall : r.cluster.calls[k]? = some call) (hopen : ∀ value, call.pc ≠ .returned value)
    (hget : GetStep r.cluster call getAction pc) (hquiet : pc.emits k = [])
    (htrusts : r.Trusts json order k { call with pc := pc }) :
    Recorded.Explains json order
      ⟨{ r.cluster with calls := r.cluster.calls.set k { call with pc := pc } },
        r.history ++ pc.emits k⟩ := by
  have hstep : ClusterStep json r.cluster (.get k getAction)
      { r.cluster with calls := r.cluster.calls.set k { call with pc := pc } } := .get hcall hget
  have hrec : RecordedStep json r (.get k getAction)
      ⟨{ r.cluster with calls := r.cluster.calls.set k { call with pc := pc } },
        r.history ++ pc.emits k⟩ := .get hcall hopen hget
  rw [hquiet, List.append_nil] at hrec ⊢
  apply h.next hrec hstep (fun _ _ hid => hid) h.linearizes h.entries
  · exact fun call hcall => .inl hcall
  · exact fun id ret hret => .inl hret
  · intro j moved hmoved
    rcases getElem?_set_cases hmoved with ⟨rfl, rfl⟩ | ⟨-, hold⟩
    · have hk := (List.getElem?_eq_some_iff.mp hcall).1
      exact .inr (htrusts.later (hrec.continues hstep fun _ _ hid => hid) hk)
    · exact .inl hold

/-- A call returns what the map held after `n` entries. -/
theorem Recorded.Explains.answer (h : r.Explains json order) {getAction : GetAction}
    {value : Bytes} {stint n : Nat} (hcall : r.cluster.calls[k]? = some call)
    (hopen : ∀ value, call.pc ≠ .returned value)
    (hget : GetStep r.cluster call getAction (.returned value))
    (hsecured : r.cluster.SecuredBy stint n) (hvalue : value = mapAt json r.cluster.log n call.key)
    (hbefore : ∀ id, Before r.history k id → id ∈ first n order) :
    ∃ order', Recorded.Explains json order'
      ⟨{ r.cluster with calls := r.cluster.calls.set k { call with pc := .returned value } },
        r.history ++ [.respond (.get k) value]⟩ := by
  have hstep : ClusterStep json r.cluster (.get k getAction) { r.cluster with
      calls := r.cluster.calls.set k { call with pc := .returned value } } := .get hcall hget
  have hk : k < r.cluster.calls.length := (List.getElem?_eq_some_iff.mp hcall).1
  have hself : (r.cluster.calls.set k { call with pc := .returned value })[k]? =
      some { call with pc := .returned value } := List.getElem?_set_self hk
  obtain ⟨rest, hrest⟩ := upTo_append_rest isEntry n order
  have hfirst : ∀ m id, id ∈ first m order →
      id ∈ first m (upTo isEntry n order ++ (.get k, .get call.key) :: rest) := by
    intro m id hid
    rw [hrest] at hid
    exact first_insert hid _ _
  have hfresh : .get k ∉ order.map Prod.fst := by
    apply h.unplaced
    intro get other hget
    rw [hcall] at hget
    exact Option.some.inj hget ▸ hopen other
  have hplaced : Linearizes (mapObject json) r.history
      (upTo isEntry n order ++ (.get k, .get call.key) :: rest) := by
    apply Linearizes.place (hrest ▸ h.linearizes) (h.issued k call hcall) (hrest ▸ hfresh) ?_
      (.inr rfl)
    exact fun a ret op hpair => hbefore a ⟨ret, op, hpair⟩
  have hanswer : value = (mapObject json).answer
      ((mapObject json).after (mapObject json).init (upTo isEntry n order)) (.get call.key) := by
    rw [after_upTo h.entries, hvalue]
    rfl
  refine ⟨_, h.next (.get hcall hopen hget) hstep hfirst ?_ ?_ ?_ ?_ ?_⟩
  · apply hplaced.respond
    rw [hanswer]
    exact (mapObject json).answer_mem _ _ _ _ _
  · rw [List.filter_append, List.filter_cons_of_neg (by simp [isEntry]), ← List.filter_append,
      ← hrest]
    exact h.entries
  · intro other hother
    rcases List.mem_append.mp hother with hold | hother
    · exact .inl (hrest ▸ List.mem_append_left _ hold)
    · rcases List.mem_cons.mp hother with rfl | hold
      · exact .inr ⟨_, value, hself, rfl, rfl⟩
      · exact .inl (hrest ▸ List.mem_append_right _ hold)
  · intro id ret hret
    rcases List.mem_append.mp hret with hold | hnew
    · exact .inl hold
    · obtain ⟨rfl, -⟩ := Event.respond.inj (List.mem_singleton.mp hnew)
      exact .inr ⟨stint, n, hstep.secured hsecured,
        List.mem_map_of_mem (look_mem_upTo rfl (countP_upTo_le isEntry n order))⟩
  · intro j moved hmoved
    rcases getElem?_set_cases hmoved with ⟨rfl, rfl⟩ | ⟨-, hold⟩
    · refine .inr ⟨stint, n, hstep.secured hsecured, hvalue, fun id hid => ?_⟩
      exact hfirst n id (hbefore id (hid.of_append (by simp)))
    · exact .inl hold

/-- One step of a call. -/
theorem Recorded.Explains.get (h : r.Explains json order) (hok : r.cluster.Ok json)
    {getAction : GetAction} {pc : GetPC} (hcall : r.cluster.calls[k]? = some call)
    (hopen : ∀ value, call.pc ≠ .returned value) (hget : GetStep r.cluster call getAction pc)
    (hcurrent : r.cluster.barrierCurrent (.get k getAction) = true)
    (hleads : r.cluster.readsAsLeader (.get k getAction) = true) :
    ∃ order', Recorded.Explains json order'
      ⟨{ r.cluster with calls := r.cluster.calls.set k { call with pc := pc } },
        r.history ++ pc.emits k⟩ := by
  have htrusts := h.trusts k call hcall
  cases hget with
  | serve hpc => exact ⟨order, h.move hcall hopen (.serve hpc) rfl trivial⟩
  | @reply inner other value hpc hother hvalue =>
    rw [Recorded.Trusts, hpc] at htrusts
    obtain ⟨⟨other', hother', hkey⟩, hinner⟩ := htrusts
    obtain rfl := Option.some.inj (hother.symm.trans hother')
    have hreturned := h.trusts inner other hother
    rw [Recorded.Trusts, hvalue] at hreturned
    obtain ⟨stint, n, hsecured, hread, hbefore⟩ := hreturned
    apply h.answer hcall hopen (.reply hpc hother hvalue) hsecured (hkey ▸ hread)
    exact fun id hid => hbefore id (hinner id hid)
  | verify hpc hholds =>
    refine ⟨order, h.move hcall hopen (.verify hpc hholds) rfl ⟨Nat.le_refl _, hholds.2, ?_⟩⟩
    intro id hid
    obtain ⟨ret, hret⟩ := hid.responded
    obtain ⟨stint, n, hsecured, hfirst⟩ := h.settled id ret hret
    exact ⟨stint, hsecured.known, n, hsecured, hfirst⟩
  | @pass stint hpc hready =>
    rw [Recorded.Trusts, hpc] at htrusts
    obtain ⟨-, hleader, hsettled⟩ := htrusts
    have hflag : stint ≤ (r.cluster.servers call.server).control.readyForConsistentReads.stint := by
      simpa [Cluster.barrierCurrent, hcall, hpc, hready] using hcurrent
    refine ⟨order, h.move hcall hopen (.pass hpc hready) rfl fun id hid => ?_⟩
    obtain ⟨u, hu, n, hsecured, hfirst⟩ := hsettled id hid
    exact first_of_le hfirst
      (hsecured.applied hu hleader hflag ((hok.backed call.server).flag hready))
  | again hpc =>
    rw [Recorded.Trusts, hpc] at htrusts
    exact ⟨order, h.move hcall hopen (.again hpc) rfl htrusts⟩
  | read hpc =>
    rw [Recorded.Trusts, hpc] at htrusts
    have hleader : r.cluster.leaderOf r.cluster.stint = some call.server := by
      simpa [Cluster.readsAsLeader, hcall] using hleads
    apply h.answer hcall hopen (.read hpc) (hok.log.secured_applied hleader) ?_ htrusts
    rw [mapAt, ← answersOf_replay, ← hok.log.content]
    rfl
  | fails => exact ⟨order, h.move hcall hopen .fails rfl trivial⟩

theorem RecordedStep.explains (hrec : RecordedStep json r action r')
    (hstep : ClusterStep json r.cluster action r'.cluster) (hok : r.cluster.Ok json)
    (h : r.Explains json order) (hcurrent : r.cluster.barrierCurrent action = true)
    (hleads : r.cluster.readsAsLeader action = true) : ∃ order', r'.Explains json order' := by
  cases hrec with
  | quiet hcalls hcommitted => exact ⟨order, h.quiet hstep hcalls hcommitted⟩
  | commit data => exact ⟨_, h.commit hstep⟩
  | acknowledge hentry hleader happlied =>
    exact ⟨order, h.acknowledge hok hentry hleader happlied hstep⟩
  | issue i key => exact ⟨order, h.issue i key⟩
  | forward target hcall hissued => exact ⟨order, h.forward target hcall hissued⟩
  | get hcall hopen hget => exact h.get hok hcall hopen hget hcurrent hleads

end Invariant

/-- The flag a call passes is current, and a call reads as long as its server is the last
    one elected. -/
def Recorded.Steady {ι : Type} [DecidableEq ι] (r : Recorded ι) (action : ClusterAction ι) : Prop :=
  r.cluster.barrierCurrent action = true ∧ r.cluster.readsAsLeader action = true

instance {ι : Type} [DecidableEq ι] (r : Recorded ι) (action : ClusterAction ι) :
    Decidable (r.Steady action) := inferInstanceAs (Decidable (_ ∧ _))

/-- The history of every such run is that of one map: all calls can be put into an order
    that agrees with real time, in which every `Get` returns what the entries before it
    have written. -/
theorem history_linearizable {ι : Type} [DecidableEq ι] {json : Json} {r : Recorded ι}
    (hreached : Reached (Recorded.step json) Recorded.Steady (· = .new) r) :
    Linearizable (mapObject json) r.history := by
  have hinv : r.cluster.Ok json ∧ ∃ order, r.Explains json order := by
    apply hreached.invariant
    · rintro r rfl
      refine ⟨Cluster.Initial.ok rfl, [], .nil _, rfl, ?_, ?_, ?_, ?_⟩ <;>
        simp [Recorded.new, Cluster.new]
    · rintro r action r' ⟨hok, order, h⟩ ⟨hcurrent, hleads⟩ hnext
      obtain ⟨s', hcluster, rfl⟩ := Option.map_eq_some_iff.mp hnext
      have hstep := Cluster.step_spec hcluster
      exact ⟨hstep.ok hok hcurrent,
        (Recorded.step_spec hnext).explains hstep hok h hcurrent hleads⟩
  obtain ⟨-, order, h⟩ := hinv
  exact ⟨order, h.linearizes⟩

/-- Another server is elected, and its `leaderLoop` sets the flag. -/
def handOver (i j : Fin 2) : List (ClusterAction (Fin 2)) :=
  [.stepDown i, .gain j, .lead j .receive, .commitBarrier j, .lead j (.loop 0 (.barrierOk 2)),
    .lead j (.loop 0 .checkCtx), .lead j (.loop 0 .setConsistentReadReady)]

/-- The second call, forwarded to another server. -/
def getForwarded (i j : Fin 2) : List (ClusterAction (Fin 2)) :=
  [.issue i [107], .forward 1 j, .get 2 .serve, .get 2 .verify, .get 2 .check, .get 2 .read,
    .get 1 .reply]

/-- An `Add` and a `Get` on the first server, then a `Get` that is forwarded to its
    successor. -/
theorem history_linearizable_forwarded :
    ∃ r, run (Recorded.step goJson) Recorded.Steady
        (firstStint ++ addOn 0 ++ getOnFirst ++ [.apply 1] ++ handOver 0 1 ++ getForwarded 0 1) .new =
          some r ∧
      r.history = [.invoke (.add 0) (.entry soloEntry), .respond (.add 0) [],
        .invoke (.get 0) (.get [107]), .respond (.get 0) [118], .invoke (.get 1) (.get [107]),
        .invoke (.get 2) (.get [107]), .respond (.get 2) [118], .respond (.get 1) [118]] ∧
      Linearizable (mapObject goJson) r.history := by
  have hends : (run (Recorded.step goJson) Recorded.Steady
      (firstStint ++ addOn 0 ++ getOnFirst ++ [.apply 1] ++ handOver 0 1 ++ getForwarded 0 1)
      .new).map Recorded.history = some [.invoke (.add 0) (.entry soloEntry), .respond (.add 0) [],
        .invoke (.get 0) (.get [107]), .respond (.get 0) [118], .invoke (.get 1) (.get [107]),
        .invoke (.get 2) (.get [107]), .respond (.get 2) [118], .respond (.get 1) [118]] := by
    decide +kernel
  obtain ⟨r, hrun, hhistory⟩ := Option.map_eq_some_iff.mp hends
  exact ⟨r, hrun, hhistory, history_linearizable (reached_run (.start rfl) hrun)⟩

/-- Without the second condition: the first server is deposed before it reads, and applies
    the entry of its successor first.  A later `Get` on the successor does not see it. -/
example : (run (Recorded.step goJson) (fun r action => r.cluster.barrierCurrent action = true)
    (firstStint ++ [.issue 0 [107], .get 0 .serve, .get 0 .verify, .get 0 .check] ++ handOver 0 1 ++
      [.commit soloEntry, .apply 0, .get 0 .read] ++
      [.issue 1 [107], .get 1 .serve, .get 1 .verify, .get 1 .check, .get 1 .read])
    .new).map Recorded.history = some [.invoke (.get 0) (.get [107]),
      .invoke (.add 0) (.entry soloEntry), .respond (.get 0) [118],
      .invoke (.get 1) (.get [107]), .respond (.get 1) []] := by
  decide +kernel

end RaftExample
