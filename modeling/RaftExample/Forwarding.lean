import Mathlib.Data.List.Induction
import RaftExample.Documents

/-!
# Finding the leader's gRPC address

A node that is not the leader forwards requests.  Raft tells it the leader's Raft
address, a resolver turns that into a gRPC address.  In gossip mode the resolver looks
into a map the membership events maintain, and the map is keyed by node ID.  So the
lookup succeeds only for a cluster in which some node's ID happens to be the leader's
Raft address.  The static resolver is configured with Raft addresses and has no such
problem.
-/

namespace RaftExample

/-! ### Membership -/

/-- The nodes known through gossip, by node ID. -/
structure Gossip where
  nodes : Std.ExtTreeMap Bytes NodeMeta compare

inductive EventKind where
  | join
  | update
  | leave
deriving DecidableEq, Repr

/-- A membership event with the metadata the node carries. -/
structure MemberEvent where
  kind : EventKind
  data : Bytes
deriving DecidableEq, Repr

namespace Gossip

/-- The node knows itself from the start. -/
def new (localMeta : NodeMeta) : Gossip :=
  ⟨(∅ : Std.ExtTreeMap Bytes NodeMeta compare).insert localMeta.nodeID localMeta⟩

/-- `NotifyJoin`; `unmarshal` is the JSON decoder. -/
def notifyJoin (unmarshal : Bytes → Option NodeMeta) (data : Bytes) (g : Gossip) : Gossip :=
  if data.length = 0 then g
  else match unmarshal data with
    | none => g
    | some info => ⟨g.nodes.insert info.nodeID info⟩

def notifyLeave (unmarshal : Bytes → Option NodeMeta) (data : Bytes) (g : Gossip) : Gossip :=
  if data.length = 0 then g
  else match unmarshal data with
    | none => g
    | some info => ⟨g.nodes.erase info.nodeID⟩

/-- An update is treated as a join. -/
def notifyUpdate (unmarshal : Bytes → Option NodeMeta) (data : Bytes) (g : Gossip) : Gossip :=
  g.notifyJoin unmarshal data

def notify (unmarshal : Bytes → Option NodeMeta) (g : Gossip) (event : MemberEvent) : Gossip :=
  match event.kind with
  | .join => g.notifyJoin unmarshal event.data
  | .update => g.notifyUpdate unmarshal event.data
  | .leave => g.notifyLeave unmarshal event.data

def getGRPCAddr (g : Gossip) (nodeID : Bytes) : Option Bytes :=
  (g.nodes[nodeID]?).map NodeMeta.grpcAddr

/-- The state after a history of events. -/
def afterEvents (unmarshal : Bytes → Option NodeMeta) (localMeta : NodeMeta)
    (events : List MemberEvent) : Gossip :=
  events.foldl (notify unmarshal) (new localMeta)

end Gossip

/-! ### Forwarding -/

/-- `AddressResolver`, as far as forwarding uses it. -/
structure AddressResolver where
  getGRPCAddr : Bytes → Option Bytes

def gossipResolver (g : Gossip) : AddressResolver := ⟨g.getGRPCAddr⟩

def staticResolver (addrs : Std.ExtTreeMap Bytes Bytes compare) : AddressResolver :=
  ⟨fun nodeID => addrs[nodeID]?⟩

inductive ForwardErr where
  | unknownCommand (method : Bytes)
  | noLeader
  | unknownLeaderGRPCAddr (leader : Bytes)
  | dial (addr : Bytes)
  | invoke (addr : Bytes)
deriving DecidableEq, Repr

/-- What raft says: whether this node leads, and the first result of `LeaderWithID`,
    empty when there is no leader. -/
structure LeaderView where
  isLeader : Bool
  leader : Bytes
deriving DecidableEq, Repr

/-- `GetLeader`: whether this node leads, and who else does. -/
def getLeader (view : LeaderView) : Bool × Except ForwardErr Bytes :=
  if view.isLeader then (true, .ok [])
  else if view.leader = [] then (false, .error .noLeader)
  else (false, .ok view.leader)

/-- The address a request goes to, or `none` if it is handled here. -/
def leaderGRPCAddr (resolver : AddressResolver) (view : LeaderView) :
    Except ForwardErr (Option Bytes) :=
  match getLeader view with
  | (true, _) => .ok none
  | (false, .error e) => .error e
  | (false, .ok leader) =>
    match resolver.getGRPCAddr leader with
    | none => .error (.unknownLeaderGRPCAddr leader)
    | some grpcAddr => .ok (some grpcAddr)

/-- The other side of a connection: whether an address can be dialled, and the response
    of a method there. -/
structure Peers (ρ : Type) where
  dial : Bytes → Bool
  invoke : Bytes → Bytes → Option ρ

/-- `forwardRequestToLeader`, with `none` for a request that was not forwarded.  Names of
    methods are tried as they are and in camel case. -/
def forwardRequestToLeader {ρ : Type} (methods : List Bytes) (toCamel : Bytes → Bytes)
    (resolver : AddressResolver) (peers : Peers ρ) (view : LeaderView) (method : Bytes) :
    Except ForwardErr (Option ρ) :=
  match [method, toCamel method].find? (· ∈ methods) with
  | none => .error (.unknownCommand method)
  | some name =>
    match leaderGRPCAddr resolver view with
    | .error e => .error e
    | .ok none => .ok none
    | .ok (some grpcAddr) =>
      if peers.dial grpcAddr then
        match peers.invoke grpcAddr name with
        | none => .error (.invoke grpcAddr)
        | some resp => .ok (some resp)
      else .error (.dial grpcAddr)

/-! ### What the events announce -/

/-- The announcement an event makes, if it can be read. -/
def MemberEvent.announcement (unmarshal : Bytes → Option NodeMeta) (event : MemberEvent) :
    Option (EventKind × NodeMeta) :=
  if event.data.length = 0 then none else (unmarshal event.data).map (event.kind, ·)

/-- The last announcement about an ID. -/
def lastAnnouncement (unmarshal : Bytes → Option NodeMeta) (events : List MemberEvent)
    (nodeID : Bytes) : Option (EventKind × NodeMeta) :=
  (events.filterMap fun event => event.announcement unmarshal).reverse.find?
    fun announced => decide (announced.2.nodeID = nodeID)

/-- The members after a history: for each ID its last announcement decides. -/
def membership (unmarshal : Bytes → Option NodeMeta) (localMeta : NodeMeta)
    (events : List MemberEvent) (nodeID : Bytes) : Option NodeMeta :=
  match lastAnnouncement unmarshal events nodeID with
  | some (kind, info) => if kind = .leave then none else some info
  | none => if localMeta.nodeID = nodeID then some localMeta else none

/-- A member that has joined, with what it announced last. -/
def Joined (unmarshal : Bytes → Option NodeMeta) (localMeta : NodeMeta)
    (events : List MemberEvent) (info : NodeMeta) : Prop :=
  membership unmarshal localMeta events info.nodeID = some info

section Membership

variable {unmarshal : Bytes → Option NodeMeta} {localMeta info : NodeMeta}
  {events : List MemberEvent} {view : LeaderView}

/-- An event that cannot be read changes nothing. -/
theorem lastAnnouncement_concat_none {event : MemberEvent}
    (h : event.announcement unmarshal = none) (nodeID : Bytes) :
    lastAnnouncement unmarshal (events ++ [event]) nodeID =
      lastAnnouncement unmarshal events nodeID := by
  simp [lastAnnouncement, h]

theorem lastAnnouncement_concat_some {event : MemberEvent} {kind : EventKind}
    (h : event.announcement unmarshal = some (kind, info)) (nodeID : Bytes) :
    lastAnnouncement unmarshal (events ++ [event]) nodeID =
      if info.nodeID = nodeID then some (kind, info)
      else lastAnnouncement unmarshal events nodeID := by
  by_cases hid : info.nodeID = nodeID
  · simp [lastAnnouncement, h, hid]
  · simp [lastAnnouncement, h, hid]

theorem notify_of_announcement_none {event : MemberEvent} (g : Gossip)
    (h : event.announcement unmarshal = none) : g.notify unmarshal event = g := by
  obtain ⟨kind, data⟩ := event
  unfold MemberEvent.announcement at h
  by_cases hempty : data.length = 0
  · cases kind <;>
      simp [Gossip.notify, Gossip.notifyUpdate, Gossip.notifyJoin, Gossip.notifyLeave, hempty]
  · have hbad : unmarshal data = none := by simpa [hempty] using h
    cases kind <;>
      simp [Gossip.notify, Gossip.notifyUpdate, Gossip.notifyJoin, Gossip.notifyLeave, hempty, hbad]

theorem notify_of_announcement_some {event : MemberEvent} {kind : EventKind} (g : Gossip)
    (h : event.announcement unmarshal = some (kind, info)) :
    (g.notify unmarshal event).nodes =
      if kind = .leave then g.nodes.erase info.nodeID else g.nodes.insert info.nodeID info := by
  obtain ⟨kind', data⟩ := event
  unfold MemberEvent.announcement at h
  by_cases hempty : data.length = 0
  · simp [hempty] at h
  · obtain ⟨hgood, rfl⟩ : unmarshal data = some info ∧ kind' = kind := by
      simpa [hempty, and_comm] using h
    cases kind' <;>
      simp [Gossip.notify, Gossip.notifyUpdate, Gossip.notifyJoin, Gossip.notifyLeave, hempty, hgood]

/-- The map is the membership. -/
theorem lookup_afterEvents (nodeID : Bytes) :
    (Gossip.afterEvents unmarshal localMeta events).nodes[nodeID]? =
      membership unmarshal localMeta events nodeID := by
  induction events using List.reverseRecOn with
  | nil =>
    simp [Gossip.afterEvents, Gossip.new, membership, lastAnnouncement,
      Std.ExtTreeMap.getElem?_insert]
  | append_singleton events event ih =>
    have hlast : Gossip.afterEvents unmarshal localMeta (events ++ [event]) =
        (Gossip.afterEvents unmarshal localMeta events).notify unmarshal event := by
      simp [Gossip.afterEvents]
    rw [hlast]
    cases hevent : event.announcement unmarshal with
    | none =>
      rw [notify_of_announcement_none _ hevent, ih, membership, membership,
        lastAnnouncement_concat_none hevent]
    | some announced =>
      obtain ⟨kind, info⟩ := announced
      rw [notify_of_announcement_some _ hevent, membership, lastAnnouncement_concat_some hevent]
      by_cases hid : info.nodeID = nodeID
      · by_cases hleave : kind = .leave
        · simp [hid, hleave]
        · simp [hid, hleave]
      · rw [if_neg hid, ← membership, ← ih]
        by_cases hleave : kind = .leave
        · simp [hid, hleave, Std.ExtTreeMap.getElem?_erase]
        · simp [hid, hleave, Std.ExtTreeMap.getElem?_insert]

/-- Where a request for the leader goes in gossip mode. -/
theorem leaderGRPCAddr_gossip (hview : view.isLeader = false) (hleader : view.leader ≠ []) :
    leaderGRPCAddr (gossipResolver (.afterEvents unmarshal localMeta events)) view =
      match membership unmarshal localMeta events view.leader with
      | none => .error (.unknownLeaderGRPCAddr view.leader)
      | some info => .ok (some info.grpcAddr) := by
  simp only [leaderGRPCAddr, getLeader, hview, Bool.false_eq_true, if_false, if_neg hleader,
    gossipResolver, Gossip.getGRPCAddr, lookup_afterEvents]
  cases membership unmarshal localMeta events view.leader with
  | none => rfl
  | some info => rfl

theorem nodeID_of_membership {nodeID : Bytes}
    (h : membership unmarshal localMeta events nodeID = some info) : info.nodeID = nodeID := by
  unfold membership at h
  split at h
  · rename_i kind found hlast
    have hid : found.nodeID = nodeID := by simpa using List.find?_some hlast
    by_cases hleave : kind = .leave
    · simp [hleave] at h
    · rw [if_neg hleave] at h
      rw [← Option.some.inj h]
      exact hid
  · by_cases hlocal : localMeta.nodeID = nodeID
    · rw [if_pos hlocal] at h
      rw [← Option.some.inj h]
      exact hlocal
    · simp [hlocal] at h

/-- When raft names the Raft address of a joined member as the leader's, the lookup finds
    this member's gRPC address exactly if some member announces that address under the
    leader's Raft address as its node ID. -/
theorem leaderGRPCAddr_gossip_iff (hview : view.isLeader = false) (hleader : view.leader ≠ []) :
    ∀ info, Joined unmarshal localMeta events info → info.raftAddr = view.leader →
      (leaderGRPCAddr (gossipResolver (.afterEvents unmarshal localMeta events)) view =
          .ok (some info.grpcAddr) ↔
        ∃ other, Joined unmarshal localMeta events other ∧ other.nodeID = info.raftAddr ∧
          other.grpcAddr = info.grpcAddr) := by
  intro info _ haddr
  rw [leaderGRPCAddr_gossip hview hleader, ← haddr]
  cases hmember : membership unmarshal localMeta events info.raftAddr with
  | none =>
    constructor
    · intro h
      simp at h
    · rintro ⟨other, hother, hid, -⟩
      rw [Joined, hid, hmember] at hother
      simp at hother
  | some found =>
    have hid := nodeID_of_membership hmember
    constructor
    · intro h
      refine ⟨found, ?_, hid, by simpa using h⟩
      rw [Joined, hid]
      exact hmember
    · rintro ⟨other, hother, hid', hgrpc⟩
      rw [Joined, hid', hmember] at hother
      obtain rfl := Option.some.inj hother
      simp [hgrpc]

/-- With static addresses the key is the one raft gives. -/
theorem leaderGRPCAddr_static {addrs : Std.ExtTreeMap Bytes Bytes compare} {grpcAddr : Bytes}
    (hview : view.isLeader = false) (hleader : view.leader ≠ [])
    (haddr : addrs[view.leader]? = some grpcAddr) :
    leaderGRPCAddr (staticResolver addrs) view = .ok (some grpcAddr) := by
  simp [leaderGRPCAddr, getLeader, hview, hleader, staticResolver, haddr]

end Membership

/-! ### Two nodes -/

def nodeA : NodeMeta := ⟨[97], [1, 97], [2, 97]⟩

def nodeB : NodeMeta := ⟨[98], [1, 98], [2, 98]⟩

/-- A node whose ID is its Raft address. -/
def nodeC : NodeMeta := ⟨[1, 99], [1, 99], [2, 99]⟩

theorem leaderGRPCAddr_gossip_nodeC :
    leaderGRPCAddr (gossipResolver (.afterEvents unmarshalNodeMeta nodeA
      [⟨.join, marshalNodeMeta nodeC⟩])) ⟨false, nodeC.raftAddr⟩ = .ok (some nodeC.grpcAddr) := by
  have hjoined : Joined unmarshalNodeMeta nodeA [⟨.join, marshalNodeMeta nodeC⟩] nodeC := by
    unfold Joined
    decide +kernel
  exact (leaderGRPCAddr_gossip_iff rfl (by decide) nodeC hjoined rfl).mpr
    ⟨nodeC, hjoined, rfl, rfl⟩

/-- Node B has joined and leads, and node A does not find it. -/
theorem leaderGRPCAddr_gossip_nodeB :
    Joined unmarshalNodeMeta nodeA [⟨.join, marshalNodeMeta nodeB⟩] nodeB ∧
      leaderGRPCAddr (gossipResolver (.afterEvents unmarshalNodeMeta nodeA
        [⟨.join, marshalNodeMeta nodeB⟩])) ⟨false, nodeB.raftAddr⟩ =
        .error (.unknownLeaderGRPCAddr nodeB.raftAddr) := by
  constructor
  · unfold Joined
    decide +kernel
  · decide +kernel

end RaftExample
