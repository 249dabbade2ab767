import Mathlib.Algebra.BigOperators.Group.List.Basic
import Mathlib.Data.List.Nodup
import RaftExample.Forwarding
import RaftExample.Interleaving
import RaftExample.StateMachine

/-!
# `Add` across servers

A client's `Add` may pass through several servers: each handler either gives the request
to its raft or forwards it to the server it takes for the leader, where the handler does
the same.  Connections break and replies get lost, an `Apply` may return an error for an
entry that is committed later, and the servers' views of the leader change between the
hops.  A handler never does both, and it does neither a second time.  So a request is in
the log at most once, and the index an `Add` returns is that of the request's own entry.
-/

namespace RaftExample

open Interleaving

/-! ### State -/

/-- Where the handler of a call is. -/
inductive AddPC where
  | running
  /-- In `conn.Invoke`, with the call it started on the other server. -/
  | invoking (inner : Nat)
  /-- In `raft.Apply`. -/
  | applying
  /-- The entry was applied, and its index is in `dbAppliedIndex`. -/
  | applied (index : Nat)
  | returned (index : Nat)
  | failed
deriving DecidableEq, Repr

/-- A call of `Add` on a server, by a client or by another server.  `pending` says that
    raft has an entry of this call that is neither committed nor dropped, `committed` is
    its index once it is in the log. -/
structure AddCall (ι : Type) where
  request : Nat
  server : ι
  pc : AddPC
  pending : Bool
  committed : Option Nat

/-- A committed entry, with the request it comes from; raft's own entries have none. -/
structure RaftEntry where
  request : Option Nat
  data : Bytes
deriving DecidableEq, Repr

/-- The requests of the clients, the calls they have led to, the committed log and the
    `dbAppliedIndex` of every server. -/
structure AddState (ι : Type) where
  requests : List SetPayload
  calls : List (AddCall ι)
  log : List RaftEntry
  dbAppliedIndex : ι → Nat

def AddState.new {ι : Type} : AddState ι := ⟨[], [], [], fun _ => 0⟩

/-! ### Steps -/

inductive AddAction (ι : Type) where
  /-- A client calls `Add` on a server. -/
  | issue (server : ι) (payload : SetPayload)
  /-- The handler runs `forwardRequestToLeader`; `peer` is the server the request reaches
      at the address that was found, if it does. -/
  | handle (call : Nat) (resolver : AddressResolver) (view : LeaderView) (peer : Option ι)
  -- raft
  | append (data : Bytes)
  | commit (call : Nat)
  | drop (call : Nat)
  /-- The future of `raft.Apply` is there. -/
  | store (call : Nat)
  /-- `Apply` returns the index. -/
  | answer (call : Nat)
  /-- The server that was called answers, and the answer arrives. -/
  | reply (call : Nat)
  /-- `Apply` or `Invoke` returns an error. -/
  | fails (call : Nat)

namespace AddState

variable {ι : Type} [DecidableEq ι]

def setCall (s : AddState ι) (k : Nat) (call : AddCall ι) : AddState ι :=
  { s with calls := s.calls.set k call }

def handle (s : AddState ι) (k : Nat) (call : AddCall ι) (resolver : AddressResolver)
    (view : LeaderView) (peer : Option ι) : AddState ι :=
  match leaderGRPCAddr resolver view with
  | .error _ => s.setCall k { call with pc := .failed }
  | .ok none => s.setCall k { call with pc := .applying, pending := true }
  | .ok (some _) =>
      match peer with
      | none => s.setCall k { call with pc := .failed }
      | some server =>
          { s with calls := s.calls.set k { call with pc := .invoking s.calls.length } ++
              [⟨call.request, server, .running, false, none⟩] }

def step (json : Json) (action : AddAction ι) (s : AddState ι) : Option (AddState ι) :=
  match action with
  | .issue server payload =>
      some { s with requests := s.requests ++ [payload]
                    calls := s.calls ++ [⟨s.requests.length, server, .running, false, none⟩] }
  | .handle k resolver view peer =>
      match s.calls[k]? with
      | some call => if call.pc = .running then some (s.handle k call resolver view peer) else none
      | none => none
  | .append data => some { s with log := s.log ++ [⟨none, data⟩] }
  | .commit k =>
      match s.calls[k]? with
      | some call =>
          match s.requests[call.request]? with
          | some payload =>
              if call.pending then
                some { s.setCall k { call with pending := false, committed := some (s.log.length + 1) } with
                  log := s.log ++ [⟨some call.request, encodeInsert json payload.key payload.value⟩] }
              else none
          | none => none
      | none => none
  | .drop k =>
      match s.calls[k]? with
      | some call => if call.pending then some (s.setCall k { call with pending := false }) else none
      | none => none
  | .store k =>
      match s.calls[k]? with
      | some call =>
          match call.pc, call.committed with
          | .applying, some index =>
              some { s.setCall k { call with pc := .applied index } with
                dbAppliedIndex := Function.update s.dbAppliedIndex call.server index }
          | _, _ => none
      | none => none
  | .answer k =>
      match s.calls[k]? with
      | some call =>
          match call.pc with
          | .applied index => some (s.setCall k { call with pc := .returned index })
          | _ => none
      | none => none
  | .reply k =>
      match s.calls[k]? with
      | some call =>
          match call.pc with
          | .invoking inner =>
              match s.calls[inner]?.map AddCall.pc with
              | some (.returned index) => some (s.setCall k { call with pc := .returned index })
              | _ => none
          | _ => none
      | none => none
  | .fails k =>
      match s.calls[k]? with
      | some call =>
          match call.pc with
          | .applying | .applied _ | .invoking _ => some (s.setCall k { call with pc := .failed })
          | _ => none
      | none => none

end AddState

/-! ### What a step can do -/

/-- The steps, one by one. -/
inductive AddStep {ι : Type} [DecidableEq ι] (json : Json) (s : AddState ι) :
    AddAction ι → AddState ι → Prop
  | issue (server : ι) (payload : SetPayload) : AddStep json s (.issue server payload)
      { s with requests := s.requests ++ [payload]
               calls := s.calls ++ [⟨s.requests.length, server, .running, false, none⟩] }
  | serve {k : Nat} {call : AddCall ι} {resolver : AddressResolver} {view : LeaderView}
      {peer : Option ι} (hcall : s.calls[k]? = some call) (hpc : call.pc = .running) :
      AddStep json s (.handle k resolver view peer)
        (s.setCall k { call with pc := .applying, pending := true })
  | forward {k : Nat} {call : AddCall ι} {resolver : AddressResolver} {view : LeaderView}
      (server : ι) (hcall : s.calls[k]? = some call) (hpc : call.pc = .running) :
      AddStep json s (.handle k resolver view (some server))
        { s with calls := s.calls.set k { call with pc := .invoking s.calls.length } ++
            [⟨call.request, server, .running, false, none⟩] }
  | append (data : Bytes) : AddStep json s (.append data)
      { s with log := s.log ++ [⟨none, data⟩] }
  | commit {k : Nat} {call : AddCall ι} {payload : SetPayload} (hcall : s.calls[k]? = some call)
      (hpayload : s.requests[call.request]? = some payload) (hpending : call.pending = true) :
      AddStep json s (.commit k)
        { s.setCall k { call with pending := false, committed := some (s.log.length + 1) } with
          log := s.log ++ [⟨some call.request, encodeInsert json payload.key payload.value⟩] }
  | drop {k : Nat} {call : AddCall ι} (hcall : s.calls[k]? = some call) :
      AddStep json s (.drop k) (s.setCall k { call with pending := false })
  | store {k : Nat} {call : AddCall ι} {index : Nat} (hcall : s.calls[k]? = some call)
      (hcommitted : call.committed = some index) :
      AddStep json s (.store k)
        { s.setCall k { call with pc := .applied index } with
          dbAppliedIndex := Function.update s.dbAppliedIndex call.server index }
  | answer {k : Nat} {call : AddCall ι} {index : Nat} (hcall : s.calls[k]? = some call)
      (hpc : call.pc = .applied index) :
      AddStep json s (.answer k) (s.setCall k { call with pc := .returned index })
  | reply {k inner index : Nat} {call other : AddCall ι} (hcall : s.calls[k]? = some call)
      (hpc : call.pc = .invoking inner) (hother : s.calls[inner]? = some other)
      (hreturned : other.pc = .returned index) :
      AddStep json s (.reply k) (s.setCall k { call with pc := .returned index })
  | fails {action : AddAction ι} {k : Nat} {call : AddCall ι} (hcall : s.calls[k]? = some call) :
      AddStep json s action (s.setCall k { call with pc := .failed })

section Steps

variable {ι : Type} [DecidableEq ι] {json : Json} {s s' : AddState ι} {action : AddAction ι}

theorem AddState.step_spec (hstep : s.step json action = some s') : AddStep json s action s' := by
  cases action with
  | issue server payload =>
    obtain rfl := Option.some.inj hstep
    exact .issue server payload
  | append data =>
    obtain rfl := Option.some.inj hstep
    exact .append data
  | handle k resolver view peer =>
    simp only [AddState.step] at hstep
    split at hstep
    · rename_i call hcall
      split at hstep
      · rename_i hpc
        obtain rfl := Option.some.inj hstep
        unfold AddState.handle
        split
        · exact .fails hcall
        · exact .serve hcall hpc
        · cases peer with
          | none => exact .fails hcall
          | some server => exact .forward server hcall hpc
      · simp at hstep
    · simp at hstep
  | commit k =>
    simp only [AddState.step] at hstep
    split at hstep
    · rename_i call hcall
      split at hstep
      · rename_i payload hpayload
        split at hstep
        · rename_i hpending
          obtain rfl := Option.some.inj hstep
          exact .commit hcall hpayload hpending
        · simp at hstep
      · simp at hstep
    · simp at hstep
  | drop k =>
    simp only [AddState.step] at hstep
    split at hstep
    · rename_i call hcall
      split at hstep
      · obtain rfl := Option.some.inj hstep
        exact .drop hcall
      · simp at hstep
    · simp at hstep
  | store k =>
    simp only [AddState.step] at hstep
    split at hstep
    · rename_i call hcall
      split at hstep
      · rename_i index _ hcommitted
        obtain rfl := Option.some.inj hstep
        exact .store hcall hcommitted
      · simp at hstep
    · simp at hstep
  | answer k =>
    simp only [AddState.step] at hstep
    split at hstep
    · rename_i call hcall
      split at hstep
      · rename_i index hpc
        obtain rfl := Option.some.inj hstep
        exact .answer hcall hpc
      · simp at hstep
    · simp at hstep
  | reply k =>
    simp only [AddState.step] at hstep
    split at hstep
    · rename_i call hcall
      split at hstep
      · rename_i inner hpc
        split at hstep
        · rename_i index hinner
          obtain rfl := Option.some.inj hstep
          obtain ⟨other, hother, hreturned⟩ := Option.map_eq_some_iff.mp hinner
          exact .reply hcall hpc hother hreturned
        · simp at hstep
      · simp at hstep
    · simp at hstep
  | fails k =>
    simp only [AddState.step] at hstep
    split at hstep
    · rename_i call hcall
      split at hstep
      · obtain rfl := Option.some.inj hstep
        exact .fails hcall
      · obtain rfl := Option.some.inj hstep
        exact .fails hcall
      · obtain rfl := Option.some.inj hstep
        exact .fails hcall
      · simp at hstep
    · simp at hstep

end Steps

/-! ### One chance for each request -/

/-- Whether the call can still put the request into the log, itself or through others. -/
def AddCall.chance {ι : Type} (request : Nat) (call : AddCall ι) : Nat :=
  if call.request = request ∧ (call.pc = .running ∨ call.pending = true) then 1 else 0

/-- The chances of a request to get into the log, and the entries it has there. -/
def AddState.chances {ι : Type} (s : AddState ι) (request : Nat) : Nat :=
  (s.calls.map (AddCall.chance request)).sum + (s.log.map RaftEntry.request).count (some request)

/-- The entry of a request at an index of the log; raft counts from one. -/
def AddState.EntryAt {ι : Type} (json : Json) (s : AddState ι) (request index : Nat) : Prop :=
  0 < index ∧ ∃ payload, s.requests[request]? = some payload ∧
    s.log[index - 1]? = some ⟨some request, encodeInsert json payload.key payload.value⟩

structure AddState.Once {ι : Type} (json : Json) (s : AddState ι) : Prop where
  issued : ∀ call ∈ s.calls, call.request < s.requests.length
  logged : ∀ request, some request ∈ s.log.map RaftEntry.request → request < s.requests.length
  chances : ∀ request, s.chances request ≤ 1
  unproposed : ∀ call ∈ s.calls, call.pc = .running → call.pending = false
  committed : ∀ call ∈ s.calls, ∀ index, call.committed = some index →
    s.EntryAt json call.request index
  returned : ∀ call ∈ s.calls, ∀ index, call.pc = .applied index ∨ call.pc = .returned index →
    s.EntryAt json call.request index
  inner : ∀ call ∈ s.calls, ∀ inner, call.pc = .invoking inner →
    ∃ other, s.calls[inner]? = some other ∧ other.request = call.request
  published : ∀ i, s.dbAppliedIndex i ≠ 0 → ∃ request, s.EntryAt json request (s.dbAppliedIndex i)

section Once

variable {ι : Type} {json : Json} {s s' : AddState ι} {action : AddAction ι} {k : Nat}
  {call call' : AddCall ι}

theorem AddState.EntryAt.later {request index : Nat} (h : s.EntryAt json request index)
    (hrequests : s.requests <+: s'.requests) (hlog : s.log <+: s'.log) :
    s'.EntryAt json request index := by
  obtain ⟨hpos, payload, hpayload, hentry⟩ := h
  obtain ⟨requests, hrequests⟩ := hrequests
  obtain ⟨log, hlog⟩ := hlog
  refine ⟨hpos, payload, ?_, ?_⟩
  · rw [← hrequests, List.getElem?_append_left (List.getElem?_eq_some_iff.mp hpayload).1, hpayload]
  · rw [← hlog, List.getElem?_append_left (List.getElem?_eq_some_iff.mp hentry).1, hentry]

/-- A call in the place of another one of its request. -/
theorem AddState.request_set (hcall : s.calls[k]? = some call)
    (hrequest : call'.request = call.request) {j : Nat} {other : AddCall ι}
    (hother : s.calls[j]? = some other) :
    ∃ other', (s.calls.set k call')[j]? = some other' ∧ other'.request = other.request := by
  by_cases hj : k = j
  · subst hj
    obtain rfl := Option.some.inj (hcall.symm.trans hother)
    exact ⟨call', List.getElem?_set_self (List.getElem?_eq_some_iff.mp hcall).1, hrequest⟩
  · exact ⟨other, by rw [List.getElem?_set_ne hj, hother], rfl⟩

/-- A call moves on, and gets no new chance. -/
theorem AddState.Once.setCall (h : s.Once json) (hcall : s.calls[k]? = some call)
    (call' : AddCall ι) (hrequest : call'.request = call.request)
    (hchance : ∀ request, call'.chance request ≤ call.chance request)
    (hunproposed : call'.pc = .running → call'.pending = false)
    (hcommitted : ∀ index, call'.committed = some index → s.EntryAt json call'.request index)
    (hreturned : ∀ index, call'.pc = .applied index ∨ call'.pc = .returned index →
      s.EntryAt json call'.request index)
    (hinner : ∀ inner, call'.pc = .invoking inner →
      ∃ other, s.calls[inner]? = some other ∧ other.request = call'.request) :
    (s.setCall k call').Once json where
  issued other hother := by
    rcases List.mem_or_eq_of_mem_set hother with hold | rfl
    · exact h.issued other hold
    · rw [hrequest]
      exact h.issued call (List.mem_of_getElem? hcall)
  logged := h.logged
  chances request := by
    have hsum := sum_map_set (a := call') (f := AddCall.chance request) hcall
    have hless := hchance request
    have hbefore := h.chances request
    simp only [AddState.chances, AddState.setCall] at hbefore ⊢
    omega
  unproposed other hother := by
    rcases List.mem_or_eq_of_mem_set hother with hold | rfl
    · exact h.unproposed other hold
    · exact hunproposed
  committed other hother := by
    rcases List.mem_or_eq_of_mem_set hother with hold | rfl
    · exact h.committed other hold
    · exact hcommitted
  returned other hother := by
    rcases List.mem_or_eq_of_mem_set hother with hold | rfl
    · exact h.returned other hold
    · exact hreturned
  inner other hother inner hpc := by
    obtain ⟨called, hcalled, hsame⟩ : ∃ called, s.calls[inner]? = some called ∧
        called.request = other.request := by
      rcases List.mem_or_eq_of_mem_set hother with hold | rfl
      · exact h.inner other hold inner hpc
      · exact hinner inner hpc
    obtain ⟨called', hcalled', hsame'⟩ := AddState.request_set hcall hrequest hcalled
    exact ⟨called', hcalled', hsame'.trans hsame⟩
  published := h.published

/-- A request whose only chance is spent has none. -/
theorem AddState.Once.chances_spent (h : s.Once json) (hcall : s.calls[k]? = some call)
    (hchance : call.chance call.request = 1) (hspent : call'.chance call.request = 0) :
    (s.setCall k call').chances call.request = 0 := by
  have hsum := sum_map_set (a := call') (f := AddCall.chance call.request) hcall
  have hbefore := h.chances call.request
  simp only [AddState.chances, AddState.setCall] at hbefore ⊢
  omega

/-- A new entry: one of raft, or one of a request with no other chance. -/
theorem AddState.Once.addEntry (h : s.Once json) (entry : RaftEntry)
    (hentry : ∀ request, entry.request = some request →
      request < s.requests.length ∧ s.chances request = 0) :
    AddState.Once json { s with log := s.log ++ [entry] } where
  issued := h.issued
  logged request hrequest := by
    rw [List.map_append, List.mem_append] at hrequest
    rcases hrequest with hold | hnew
    · exact h.logged request hold
    · exact (hentry request (List.mem_singleton.mp hnew).symm).1
  chances request := by
    have hbefore := h.chances request
    by_cases hown : entry.request = some request
    · have hnone := (hentry request hown).2
      simp only [AddState.chances] at hnone
      simp only [AddState.chances, List.map_append, List.count_append, List.map_cons, List.map_nil,
        hown, List.count_singleton_self]
      omega
    · simpa [AddState.chances, List.count_append, List.count_singleton, hown] using hbefore
  unproposed := h.unproposed
  committed other hother index hindex :=
    (h.committed other hother index hindex).later List.prefix_rfl (List.prefix_append _ _)
  returned other hother index hindex :=
    (h.returned other hother index hindex).later List.prefix_rfl (List.prefix_append _ _)
  inner := h.inner
  published i hi := by
    obtain ⟨request, hrequest⟩ := h.published i hi
    exact ⟨request, hrequest.later List.prefix_rfl (List.prefix_append _ _)⟩

/-- A new call of a request with no other chance. -/
theorem AddState.Once.addCall (h : s.Once json) {request : Nat} (server : ι)
    (hissued : request < s.requests.length) (hnone : s.chances request = 0) :
    AddState.Once json { s with calls := s.calls ++ [⟨request, server, .running, false, none⟩] } where
  issued other hother := by
    rcases List.mem_append.mp hother with hold | hnew
    · exact h.issued other hold
    · obtain rfl := List.mem_singleton.mp hnew
      exact hissued
  logged := h.logged
  chances other := by
    have hbefore := h.chances other
    by_cases heq : request = other
    · subst heq
      simp only [AddState.chances] at hnone
      simp [AddState.chances, AddCall.chance, List.sum_append]
      omega
    · simpa [AddState.chances, AddCall.chance, heq, List.sum_append] using hbefore
  unproposed other hother := by
    rcases List.mem_append.mp hother with hold | hnew
    · exact h.unproposed other hold
    · obtain rfl := List.mem_singleton.mp hnew
      exact fun _ => rfl
  committed other hother := by
    rcases List.mem_append.mp hother with hold | hnew
    · exact h.committed other hold
    · obtain rfl := List.mem_singleton.mp hnew
      simp
  returned other hother := by
    rcases List.mem_append.mp hother with hold | hnew
    · exact h.returned other hold
    · obtain rfl := List.mem_singleton.mp hnew
      simp
  inner other hother inner hpc := by
    rcases List.mem_append.mp hother with hold | hnew
    · obtain ⟨called, hcalled, hsame⟩ := h.inner other hold inner hpc
      exact ⟨called, List.getElem?_append_left (List.getElem?_eq_some_iff.mp hcalled).1 ▸ hcalled, hsame⟩
    · obtain rfl := List.mem_singleton.mp hnew
      simp at hpc
  published := h.published

/-- A new request. -/
theorem AddState.Once.issue (h : s.Once json) (server : ι) (payload : SetPayload) :
    AddState.Once json { s with
      requests := s.requests ++ [payload]
      calls := s.calls ++ [⟨s.requests.length, server, .running, false, none⟩] } := by
  have hgrown : AddState.Once json { s with requests := s.requests ++ [payload] } := {
    issued := fun call hcall => by
      have hlt := h.issued call hcall
      simp only [List.length_append]
      omega
    logged := fun request hrequest => by
      have hlt := h.logged request hrequest
      simp only [List.length_append]
      omega
    chances := h.chances
    unproposed := h.unproposed
    committed := fun call hcall index hindex =>
      (h.committed call hcall index hindex).later (List.prefix_append _ _) List.prefix_rfl
    returned := fun call hcall index hindex =>
      (h.returned call hcall index hindex).later (List.prefix_append _ _) List.prefix_rfl
    inner := h.inner
    published := fun i hi => by
      obtain ⟨request, hrequest⟩ := h.published i hi
      exact ⟨request, hrequest.later (List.prefix_append _ _) List.prefix_rfl⟩ }
  apply hgrown.addCall server (by simp)
  -- no call and no entry is of a request that did not exist
  have hcalls : (s.calls.map (AddCall.chance s.requests.length)).sum = 0 := by
    apply List.sum_eq_zero
    intro chance hchance
    obtain ⟨call, hcall, rfl⟩ := List.mem_map.mp hchance
    exact if_neg fun hown => Nat.ne_of_lt (h.issued call hcall) hown.1
  have hlog : (s.log.map RaftEntry.request).count (some s.requests.length) = 0 := by
    rw [List.count_eq_zero]
    exact fun hmem => Nat.lt_irrefl _ (h.logged _ hmem)
  simp only [AddState.chances, hcalls, hlog]

/-- The handler forwards the request: its chance goes to the other server. -/
theorem AddState.Once.forward (h : s.Once json) (hcall : s.calls[k]? = some call)
    (hpc : call.pc = .running) (server : ι) :
    AddState.Once json { s with
      calls := s.calls.set k { call with pc := .invoking s.calls.length } ++
        [⟨call.request, server, .running, false, none⟩] } := by
  have hmem := List.mem_of_getElem? hcall
  have hk := (List.getElem?_eq_some_iff.mp hcall).1
  have hunproposed := h.unproposed call hmem hpc
  have hspent : ∀ request, AddCall.chance request { call with pc := .failed } = 0 := by
    intro request
    simp [AddCall.chance, hunproposed]
  have hfailed : (s.setCall k { call with pc := .failed }).Once json :=
    h.setCall hcall _ rfl (fun request => by rw [hspent]; exact Nat.zero_le _) (by simp)
      (h.committed call hmem) (by simp) (by simp)
  have hadded := hfailed.addCall server (h.issued call hmem)
    (h.chances_spent hcall (by simp [AddCall.chance, hpc]) (hspent _))
  -- with the new call in its place the handler can wait for it
  have hplace : (s.calls.set k { call with pc := .failed } ++
      [⟨call.request, server, .running, false, none⟩])[k]? = some { call with pc := .failed } := by
    rw [List.getElem?_append_left (by simpa using hk), List.getElem?_set_self hk]
  have hwaiting := hadded.setCall hplace { call with pc := .invoking s.calls.length } rfl
    (fun request => by simp [AddCall.chance, hunproposed]) (by simp)
    (hadded.committed { call with pc := .failed } (List.mem_of_getElem? hplace)) (by simp) (by
      rintro inner hinner
      obtain rfl := AddPC.invoking.inj hinner
      exact ⟨⟨call.request, server, .running, false, none⟩, by simp [AddState.setCall], rfl⟩)
  simpa [AddState.setCall, List.set_append_left, hk] using hwaiting

/-- Raft commits the entry of a call. -/
theorem AddState.Once.commit (h : s.Once json) (hcall : s.calls[k]? = some call)
    {payload : SetPayload} (hpayload : s.requests[call.request]? = some payload)
    (hpending : call.pending = true) :
    AddState.Once json {
      s.setCall k { call with pending := false, committed := some (s.log.length + 1) } with
      log := s.log ++ [⟨some call.request, encodeInsert json payload.key payload.value⟩] } := by
  have hmem := List.mem_of_getElem? hcall
  have hk := (List.getElem?_eq_some_iff.mp hcall).1
  have hpc : call.pc ≠ .running := by
    intro hrunning
    simp [h.unproposed call hmem hrunning] at hpending
  have hspent : ∀ request, AddCall.chance request { call with pending := false } = 0 := by
    intro request
    simp [AddCall.chance, hpc]
  have hdropped : (s.setCall k { call with pending := false }).Once json :=
    h.setCall hcall _ rfl (fun request => by rw [hspent]; exact Nat.zero_le _) (fun _ => rfl)
      (h.committed call hmem) (h.returned call hmem) (h.inner call hmem)
  have hlogged := hdropped.addEntry
    ⟨some call.request, encodeInsert json payload.key payload.value⟩ (by
      rintro request hrequest
      obtain rfl := Option.some.inj hrequest
      exact ⟨h.issued call hmem,
        h.chances_spent hcall (by simp [AddCall.chance, hpending]) (hspent _)⟩)
  have hplace : (s.calls.set k { call with pending := false })[k]? =
      some { call with pending := false } := List.getElem?_set_self hk
  have hafter := List.mem_of_getElem? hplace
  have hcommitted := hlogged.setCall hplace
    { call with pending := false, committed := some (s.log.length + 1) } rfl
    (fun request => by simp [AddCall.chance]) (fun _ => rfl) (by
      rintro index hindex
      obtain rfl := Option.some.inj hindex
      exact ⟨Nat.succ_pos _, payload, hpayload, by simp [AddState.setCall]⟩)
    (hlogged.returned { call with pending := false } hafter)
    (hlogged.inner { call with pending := false } hafter)
  simpa [AddState.setCall] using hcommitted

/-- A call ends: it has no entry pending that it had not before. -/
theorem AddCall.chance_le {pc : AddPC} (hpc : pc ≠ .running) (request : Nat) :
    AddCall.chance request { call with pc := pc } ≤ call.chance request := by
  unfold AddCall.chance
  split
  · rename_i hnew
    rw [if_pos ⟨hnew.1, .inr (hnew.2.resolve_left hpc)⟩]
  · exact Nat.zero_le _

/-- The index of an entry is stored. -/
theorem AddState.Once.publish [DecidableEq ι] (h : s.Once json) {request index : Nat}
    (hentry : s.EntryAt json request index) (i : ι) :
    AddState.Once json { s with dbAppliedIndex := Function.update s.dbAppliedIndex i index } where
  issued := h.issued
  logged := h.logged
  chances := h.chances
  unproposed := h.unproposed
  committed := h.committed
  returned := h.returned
  inner := h.inner
  published j hj := by
    by_cases hij : j = i
    · subst hij
      refine ⟨request, ?_⟩
      simp only [Function.update_self]
      exact hentry
    · simp only [Function.update_of_ne hij] at hj ⊢
      exact h.published j hj

theorem AddStep.once [DecidableEq ι] (hstep : AddStep json s action s') (h : s.Once json) :
    s'.Once json := by
  cases hstep with
  | issue server payload => exact h.issue server payload
  | append data => exact h.addEntry _ (by simp)
  | forward server hcall hpc => exact h.forward hcall hpc server
  | commit hcall hpayload hpending => exact h.commit hcall hpayload hpending
  | @serve k call _ _ _ hcall hpc =>
    have hmem := List.mem_of_getElem? hcall
    exact h.setCall hcall _ rfl (fun request => by simp [AddCall.chance, hpc]) (by simp)
      (h.committed call hmem) (by simp) (by simp)
  | @drop k call hcall =>
    have hmem := List.mem_of_getElem? hcall
    have hless : ∀ request, AddCall.chance request { call with pending := false } ≤
        call.chance request := by
      intro request
      unfold AddCall.chance
      split
      · rename_i hnew
        rw [if_pos ⟨hnew.1, .inl (hnew.2.resolve_right (by simp))⟩]
      · exact Nat.zero_le _
    exact h.setCall hcall _ rfl hless (fun _ => rfl) (h.committed call hmem)
      (h.returned call hmem) (h.inner call hmem)
  | @store k call index hcall hcommitted =>
    have hmem := List.mem_of_getElem? hcall
    have hentry := h.committed call hmem index hcommitted
    have hmoved : (s.setCall k { call with pc := .applied index }).Once json := by
      refine h.setCall hcall _ rfl (AddCall.chance_le (by simp)) (by simp) (h.committed call hmem)
        ?_ (by simp)
      rintro index' (hindex | hindex)
      · obtain rfl := AddPC.applied.inj hindex
        exact hentry
      · simp at hindex
    exact hmoved.publish hentry call.server
  | @answer k call index hcall hpc =>
    have hmem := List.mem_of_getElem? hcall
    refine h.setCall hcall _ rfl (AddCall.chance_le (by simp)) (by simp) (h.committed call hmem)
      ?_ (by simp)
    rintro index' (hindex | hindex)
    · simp at hindex
    · obtain rfl := AddPC.returned.inj hindex
      exact h.returned call hmem _ (.inl hpc)
  | @reply k inner index call other hcall hpc hother hreturned =>
    have hmem := List.mem_of_getElem? hcall
    refine h.setCall hcall _ rfl (AddCall.chance_le (by simp)) (by simp) (h.committed call hmem)
      ?_ (by simp)
    rintro index' (hindex | hindex)
    · simp at hindex
    · obtain rfl := AddPC.returned.inj hindex
      -- the call that was waited for is of the same request
      obtain ⟨other', hother', hsame⟩ := h.inner call hmem inner hpc
      obtain rfl := Option.some.inj (hother.symm.trans hother')
      have hentry := h.returned other (List.mem_of_getElem? hother) _ (.inr hreturned)
      rw [hsame] at hentry
      exact hentry
  | @fails _ k call hcall =>
    have hmem := List.mem_of_getElem? hcall
    exact h.setCall hcall _ rfl (AddCall.chance_le (by simp)) (by simp) (h.committed call hmem)
      (by simp) (by simp)

end Once

/-! ### Every run -/

section Runs

variable {ι : Type} [DecidableEq ι] {json : Json} {s : AddState ι}

/-- The states of all runs. -/
def AddState.Possible (json : Json) : AddState ι → Prop :=
  Reached (AddState.step json) (fun _ _ => True) (· = .new)

theorem AddState.Possible.once (h : s.Possible json) : s.Once json := by
  apply h.invariant
  · rintro s rfl
    constructor <;> simp [AddState.new, AddState.chances]
  · intro s action s' hs _ hstep
    exact (AddState.step_spec hstep).once hs

/-- Whatever the servers on the way of a request take for the leader, and whatever is lost
    on it: a request is in the log at most once, and an index that a call returns is that of
    the entry of its own request.  The `dbAppliedIndex` of a server, once it is set, is the
    index of some request. -/
theorem add_at_most_once (hpossible : s.Possible json) :
    (s.log.filterMap RaftEntry.request).Nodup ∧
    (∀ call ∈ s.calls, ∀ index, call.pc = .returned index →
      0 < index ∧ ∃ payload, s.requests[call.request]? = some payload ∧
        s.log[index - 1]? =
          some ⟨some call.request, encodeInsert json payload.key payload.value⟩) ∧
    ∀ i, s.dbAppliedIndex i ≠ 0 →
      ∃ entry, s.log[s.dbAppliedIndex i - 1]? = some entry ∧ entry.request.isSome = true := by
  have honce := hpossible.once
  refine ⟨List.nodup_iff_count_le_one.mpr fun request => ?_,
    fun call hcall index hpc => honce.returned call hcall index (.inr hpc), fun i hi => ?_⟩
  · have hchances := honce.chances request
    rw [AddState.chances, List.count_eq_countP, List.countP_map] at hchances
    rw [List.count_filterMap]
    exact Nat.le_trans (Nat.le_add_left _ _) hchances
  · obtain ⟨request, -, payload, -, hentry⟩ := honce.published i hi
    exact ⟨_, hentry, rfl⟩

end Runs

/-- The second server leads, and the first one has known it for the leader.  An `Add` on
    the first one is forwarded; it is committed and answered, but the answer is lost on its
    way back.  The client gets an error, although its request is in the log. -/
def lostAnswer : List (AddAction Bool) :=
  let resolver : AddressResolver := ⟨fun _ => some [2]⟩
  [.issue false ⟨[107], [118]⟩, .handle 0 resolver ⟨false, [1]⟩ (some true), .append [],
    .handle 1 resolver ⟨true, []⟩ none, .commit 1, .store 1, .answer 1, .fails 0]

theorem add_at_most_once_lostAnswer :
    ∃ s, run (AddState.step goJson) (fun _ _ => True) lostAnswer .new = some s ∧
      s.calls.map AddCall.pc = [.failed, .returned 2] ∧
      (s.log.filterMap RaftEntry.request).Nodup ∧
      s.log[1]? = some ⟨some 0, encodeInsert goJson [107] [118]⟩ := by
  obtain ⟨s, call, hrun, hpcs, hcall, hrequest, hrequests⟩ : ∃ s call,
      run (AddState.step goJson) (fun _ _ => True) lostAnswer .new = some s ∧
      s.calls.map AddCall.pc = [.failed, .returned 2] ∧ s.calls[1]? = some call ∧
      call.request = 0 ∧ s.requests = [⟨[107], [118]⟩] := ⟨_, _, rfl, rfl, rfl, rfl, rfl⟩
  obtain ⟨hnodup, hreturned, -⟩ := add_at_most_once (reached_run (.start rfl) hrun)
  have hpc : some call.pc = some (.returned 2) := by
    rw [← Option.map_some, ← hcall, ← List.getElem?_map, hpcs, List.getElem?_cons_succ,
      List.getElem?_cons_zero]
  obtain ⟨-, payload, hpayload, hentry⟩ := hreturned call (List.mem_of_getElem? hcall) 2
    (Option.some.inj hpc)
  rw [hrequest, hrequests] at hpayload
  obtain rfl := Option.some.inj hpayload
  exact ⟨s, hrun, hpcs, hnodup, by rw [hentry, hrequest]⟩

/-- The indices are stored in any order, so `dbAppliedIndex` may go back. -/
example : (run (AddState.step goJson) (fun _ _ => True)
    [.issue () ⟨[107], [118]⟩, .issue () ⟨[107], [119]⟩, .handle 0 ⟨fun _ => none⟩ ⟨true, []⟩ none,
      .handle 1 ⟨fun _ => none⟩ ⟨true, []⟩ none, .commit 0, .commit 1, .store 1, .store 0]
    .new).map (·.dbAppliedIndex ()) = some 1 := rfl

end RaftExample
