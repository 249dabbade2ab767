import RaftExample.Confinement
import RaftExample.Forwarding
import RaftExample.HostPort

/-!
# Starting and closing engines

`NewEngineWithConfig` opens two databases and up to three sockets, one after the other.  It
returns at the first call that fails and gives nothing back: what was opened by then stays
open until the process ends, and nobody has a handle to close it.  A process may start and
close any number of engines.  But `newRaft` asks for a leader lease that is longer than the
heartbeat timeout, which `raft.NewRaft` refuses, so every start fails there at the latest.
-/

namespace RaftExample

open Interleaving HostPort

/-! ### Configuration -/

inductive HostPortErr where
  | addr (e : AddrErr)
  | port (e : NumErr)
deriving DecidableEq, Repr

def parseHostPort (addr : Bytes) : Except HostPortErr (Bytes × Int) :=
  match splitHostPort addr with
  | .error e => .error (.addr e)
  | .ok (host, portStr) =>
    match atoi portStr with
    | .error e => .error (.port e)
    | .ok port => .ok (host, port)

/-- The accepted addresses.  The port is any number of 64 bits, with or without a sign. -/
theorem parseHostPort_accepts_exactly (addr host : Bytes) (port : Int) :
    parseHostPort addr = .ok (host, port) ↔
      ∃ portStr, Address host portStr addr ∧ Numeral portStr port ∧
        -2 ^ 63 ≤ port ∧ port < 2 ^ 63 := by
  constructor
  · intro h
    unfold parseHostPort at h
    split at h
    · simp at h
    · rename_i host' portStr hsplit
      split at h
      · simp at h
      · rename_i port' hport
        obtain ⟨rfl, rfl⟩ : host' = host ∧ port' = port := by simpa using h
        exact ⟨portStr, (address_of_splitHostPort hsplit).1, atoi_ok.mp hport⟩
  · rintro ⟨portStr, haddress, hnumeral, hrange⟩
    simp only [parseHostPort, splitHostPort_address haddress hnumeral.plain,
      atoi_ok.mpr ⟨hnumeral, hrange⟩]

/-- Nothing keeps the port in the range of ports: `0.0.0.0:-1`. -/
example : parseHostPort [48, 46, 48, 46, 48, 46, 48, 58, 45, 49] =
    .ok ([48, 46, 48, 46, 48, 46, 48], -1) := by decide +kernel

/-- What a start and a close depend on. -/
structure EngineConfig where
  raftDir : Bytes
  nodeID : Bytes
  raftAddr : Bytes
  grpcAddr : Bytes
  raftBootstrap : Bool
  gossipEnabled : Bool
  gossipAddr : Bytes
deriving DecidableEq, Repr

namespace EngineConfig

/-- `raftdb` -/
def raftDBName : Bytes := [114, 97, 102, 116, 100, 98]

def userDataDir (cfg : EngineConfig) : Bytes :=
  join (join cfg.raftDir cfg.nodeID) userDataName.bytes

def raftDBDir (cfg : EngineConfig) : Bytes :=
  join (join (join cfg.raftDir cfg.nodeID) metaDataName.bytes) raftDBName

/-- The gRPC server listens on every interface. -/
def listenAddr (cfg : EngineConfig) : Bytes :=
  match splitHostPort cfg.grpcAddr with
  | .ok (_, port) => colon :: port
  | .error _ => []

end EngineConfig

/-! ### The configuration of raft -/

/-- The fields of `raft.Config` that `raft.ValidateConfig` looks at, with times in
    milliseconds. -/
structure RaftConfig where
  protocolVersion : Nat
  heartbeatTimeout : Nat
  electionTimeout : Nat
  commitTimeout : Nat
  maxAppendEntries : Nat
  snapshotInterval : Nat
  leaderLeaseTimeout : Nat
  localID : Bytes
deriving DecidableEq, Repr

inductive RaftConfigErr where
  | protocolVersion
  | emptyLocalID
  | lowHeartbeatTimeout
  | lowElectionTimeout
  | lowCommitTimeout
  | noAppendEntries
  | tooManyAppendEntries
  | lowSnapshotInterval
  | lowLeaderLeaseTimeout
  | leaderLeaseAboveHeartbeat
  | electionBelowHeartbeat
deriving DecidableEq, Repr

def protocolVersionMax : Nat := 3

/-- `raft.ValidateConfig`, the first thing `raft.NewRaft` does. -/
def validateConfig (config : RaftConfig) : Except RaftConfigErr Unit :=
  if config.protocolVersion < 1 ∨ config.protocolVersion > protocolVersionMax then
    .error .protocolVersion
  else if config.localID = [] then .error .emptyLocalID
  else if config.heartbeatTimeout < 5 then .error .lowHeartbeatTimeout
  else if config.electionTimeout < 5 then .error .lowElectionTimeout
  else if config.commitTimeout < 1 then .error .lowCommitTimeout
  else if config.maxAppendEntries = 0 then .error .noAppendEntries
  else if config.maxAppendEntries > 1024 then .error .tooManyAppendEntries
  else if config.snapshotInterval < 5 then .error .lowSnapshotInterval
  else if config.leaderLeaseTimeout < 5 then .error .lowLeaderLeaseTimeout
  else if config.leaderLeaseTimeout > config.heartbeatTimeout then
    .error .leaderLeaseAboveHeartbeat
  else if config.electionTimeout < config.heartbeatTimeout then .error .electionBelowHeartbeat
  else .ok ()

/-- What `newRaft` asks for. -/
def EngineConfig.raftConfig (cfg : EngineConfig) : RaftConfig where
  protocolVersion := protocolVersionMax
  heartbeatTimeout := 1000
  electionTimeout := 3000
  commitTimeout := 50
  maxAppendEntries := 64
  snapshotInterval := 120000
  leaderLeaseTimeout := 1500
  localID := cfg.nodeID

theorem validateConfig_raftConfig (cfg : EngineConfig) :
    validateConfig cfg.raftConfig =
      .error (if cfg.nodeID = [] then .emptyLocalID else .leaderLeaseAboveHeartbeat) := by
  by_cases hempty : cfg.nodeID = []
  · simp [validateConfig, EngineConfig.raftConfig, protocolVersionMax, hempty]
  · simp [validateConfig, EngineConfig.raftConfig, protocolVersionMax, hempty]

/-! ### What a process holds -/

/-- What a process can have open only once.  Pebble refuses a directory whose lock the
    process already has; it compares the paths as they are written. -/
inductive Resource where
  | database (dir : Bytes)
  | socket (addr : Bytes)
deriving DecidableEq, Repr

structure Machine where
  held : List Resource
  engines : List EngineConfig
deriving DecidableEq, Repr

def Machine.new : Machine := ⟨[], []⟩

/-! ### Start -/

/-- The calls of a start that can fail. -/
inductive StartCall where
  | newStateMachine
  -- `newRaft`
  | newPebbleStore
  | newFileSnapshotStore
  | resolveTCPAddr
  | newTCPTransport
  | newRaft
  | bootstrapCluster
  -- `setupGossip`
  | parseHostPort
  | createMemberlist
  -- the gRPC server
  | splitHostPort
  | listen
deriving DecidableEq, Repr

namespace StartCall

def opens (cfg : EngineConfig) : StartCall → Option Resource
  | .newStateMachine => some (.database cfg.userDataDir)
  | .newPebbleStore => some (.database cfg.raftDBDir)
  | .newTCPTransport => some (.socket cfg.raftAddr)
  | .createMemberlist => some (.socket cfg.gossipAddr)
  | .listen => some (.socket cfg.listenAddr)
  | _ => none

/-- What the configuration is refused for. -/
def rejects (cfg : EngineConfig) : StartCall → Bool
  | .newRaft => (validateConfig cfg.raftConfig).isOk = false
  | .parseHostPort => (RaftExample.parseHostPort cfg.gossipAddr).isOk = false
  | .splitHostPort => (HostPort.splitHostPort cfg.grpcAddr).isOk = false
  | _ => false

def perform (cfg : EngineConfig) (call : StartCall) (m : Machine) : Machine :=
  { m with held := (call.opens cfg).toList ++ m.held }

end StartCall

def newRaftCalls (cfg : EngineConfig) : List StartCall :=
  [.newPebbleStore, .newFileSnapshotStore, .resolveTCPAddr, .newTCPTransport, .newRaft] ++
    if cfg.raftBootstrap then [.bootstrapCluster] else []

def setupGossipCalls : List StartCall := [.parseHostPort, .createMemberlist]

def newEngineCalls (cfg : EngineConfig) : List StartCall :=
  [.newStateMachine] ++ newRaftCalls cfg ++
    (if cfg.gossipEnabled then setupGossipCalls else []) ++ [.splitHostPort, .listen]

/-- Make the calls one after the other.  `fails` are those that fail for reasons of their
    own. -/
def makeCalls (cfg : EngineConfig) (fails : StartCall → Bool) :
    List StartCall → Machine → Except StartCall Unit × Machine
  | [], m => (.ok (), m)
  | call :: calls, m =>
      if fails call ∨ call.rejects cfg ∨ (call.opens cfg).any (· ∈ m.held) then
        (.error call, m)
      else makeCalls cfg fails calls (call.perform cfg m)

def newEngineWithConfig (cfg : EngineConfig) (fails : StartCall → Bool) (m : Machine) :
    Except StartCall Unit × Machine :=
  match makeCalls cfg fails (newEngineCalls cfg) m with
  | (.error call, m) => (.error call, m)
  | (.ok (), m) => (.ok (), { m with engines := m.engines ++ [cfg] })

/-! ### Close -/

/-- What `Close` closes, in its order. -/
def EngineConfig.closes (cfg : EngineConfig) : List Resource :=
  [.socket cfg.listenAddr] ++
    (if cfg.gossipEnabled then [.socket cfg.gossipAddr] else []) ++
    [.socket cfg.raftAddr, .database cfg.raftDBDir, .database cfg.userDataDir]

def Machine.close (m : Machine) (k : Nat) (cfg : EngineConfig) : Machine :=
  { m with held := m.held.filter (· ∉ cfg.closes), engines := m.engines.eraseIdx k }

/-! ### Processes -/

inductive LifeAction where
  | start (cfg : EngineConfig) (fails : StartCall → Bool)
  | close (k : Nat)
  /-- The process ends, and another one begins. -/
  | exit

namespace Machine

def step (action : LifeAction) (m : Machine) : Option Machine :=
  match action with
  | .start cfg fails => some (newEngineWithConfig cfg fails m).2
  | .close k => (m.engines[k]?).map (m.close k)
  | .exit => some .new

def Possible : Machine → Prop := Reached step (fun _ _ => True) (· = .new)

end Machine

/-! ### What the calls of a start leave -/

/-- What a call or several have opened. -/
def opened (cfg : EngineConfig) (calls : List StartCall) : List Resource :=
  calls.filterMap (StartCall.opens cfg)

/-- `calls` have been made, with success. -/
structure Grown (cfg : EngineConfig) (calls : List StartCall) (m m' : Machine) : Prop where
  engines : m'.engines = m.engines
  held : ∀ res, res ∈ m'.held ↔ res ∈ opened cfg calls ∨ res ∈ m.held
  fresh : ∀ res ∈ opened cfg calls, res ∉ m.held
  accepted : ∀ call ∈ calls, call.rejects cfg = false

section Calls

variable {cfg : EngineConfig} {fails : StartCall → Bool} {calls : List StartCall} {m m' : Machine}
  {result : Except StartCall Unit}

theorem Grown.refl (cfg : EngineConfig) (m : Machine) : Grown cfg [] m m := by
  constructor <;> simp [opened]

theorem Grown.cons {call : StartCall} (haccepted : call.rejects cfg = false)
    (hfree : ∀ res, call.opens cfg = some res → res ∉ m.held)
    (h : Grown cfg calls (call.perform cfg m) m') : Grown cfg (call :: calls) m m' where
  engines := h.engines
  held res := by
    rw [h.held]
    cases hopens : call.opens cfg with
    | none => simp [opened, StartCall.perform, hopens]
    | some res' =>
      simp only [opened, StartCall.perform, hopens, List.filterMap_cons, Option.toList_some,
        List.mem_append, List.mem_cons, List.not_mem_nil, or_false]
      tauto
  fresh res hres := by
    cases hopens : call.opens cfg with
    | none =>
      have hfresh := h.fresh res (by simpa [opened, hopens] using hres)
      simpa [StartCall.perform, hopens] using hfresh
    | some res' =>
      simp only [opened, List.filterMap_cons, hopens, List.mem_cons] at hres
      rcases hres with rfl | hres
      · exact hfree _ hopens
      · have hfresh := h.fresh res hres
        simp only [StartCall.perform, hopens, Option.toList_some, List.mem_append,
          not_or] at hfresh
        exact hfresh.2
  accepted := List.forall_mem_cons.mpr ⟨haccepted, h.accepted⟩

/-- The calls up to the first one that fails. -/
theorem makeCalls_spec (h : makeCalls cfg fails calls m = (result, m')) :
    (result = .ok () ∧ Grown cfg calls m m') ∨
    ∃ made call rest, calls = made ++ call :: rest ∧ result = .error call ∧ Grown cfg made m m' := by
  induction calls generalizing m with
  | nil =>
    obtain ⟨rfl, rfl⟩ := Prod.mk.inj h
    exact .inl ⟨rfl, .refl cfg m⟩
  | cons call calls ih =>
    rw [makeCalls] at h
    split at h
    · obtain ⟨rfl, rfl⟩ := Prod.mk.inj h
      exact .inr ⟨[], call, calls, rfl, rfl, .refl cfg m⟩
    · rename_i hgood
      simp only [not_or, Bool.not_eq_true] at hgood
      obtain ⟨-, haccepted, hfree⟩ := hgood
      have hfree' : ∀ res, call.opens cfg = some res → res ∉ m.held := by
        intro res hres
        simpa [hres] using hfree
      rcases ih h with ⟨hok, hgrown⟩ | ⟨made, last, rest, rfl, herror, hgrown⟩
      · exact .inl ⟨hok, hgrown.cons haccepted hfree'⟩
      · exact .inr ⟨call :: made, last, rest, rfl, herror, hgrown.cons haccepted hfree'⟩

end Calls

/-! ### What the process accounts for -/

namespace EngineConfig

/-- Nothing of an engine belongs to another one. -/
def Apart (cfg cfg' : EngineConfig) : Prop :=
  ∀ res ∈ cfg.closes, res ∉ cfg'.closes

theorem Apart.symm {cfg cfg' : EngineConfig} (h : cfg.Apart cfg') : cfg'.Apart cfg :=
  fun res hres hres' => h res hres' hres

/-- `Close` closes what the start has opened. -/
theorem mem_closes {cfg : EngineConfig} {res : Resource} :
    res ∈ cfg.closes ↔ res ∈ opened cfg (newEngineCalls cfg) := by
  unfold closes opened newEngineCalls newRaftCalls setupGossipCalls
  cases cfg.raftBootstrap <;> cases cfg.gossipEnabled <;>
    simp [StartCall.opens] <;> tauto

end EngineConfig

/-- The engines hold what they would close, each its own. -/
structure Machine.Owned (m : Machine) : Prop where
  held : ∀ cfg ∈ m.engines, ∀ res ∈ cfg.closes, res ∈ m.held
  apart : m.engines.Pairwise EngineConfig.Apart

section Owned

variable {cfg : EngineConfig} {fails : StartCall → Bool} {m m' : Machine} {action : LifeAction}
  {result : Except StartCall Unit} {k : Nat}

theorem newEngineWithConfig_spec (h : newEngineWithConfig cfg fails m = (result, m')) :
    (result = .ok () ∧ ∃ grown, Grown cfg (newEngineCalls cfg) m grown ∧
      m' = { grown with engines := m.engines ++ [cfg] }) ∨
    ∃ made call rest, newEngineCalls cfg = made ++ call :: rest ∧ result = .error call ∧
      Grown cfg made m m' := by
  unfold newEngineWithConfig at h
  split at h
  · rename_i call grown hcalls
    obtain ⟨rfl, rfl⟩ := Prod.mk.inj h
    rcases makeCalls_spec hcalls with ⟨hok, -⟩ | hfailed
    · simp at hok
    · exact .inr hfailed
  · rename_i grown hcalls
    obtain ⟨rfl, rfl⟩ := Prod.mk.inj h
    rcases makeCalls_spec hcalls with ⟨-, hgrown⟩ | ⟨made, call, rest, -, herror, -⟩
    · exact .inl ⟨rfl, grown, hgrown, by rw [hgrown.engines]⟩
    · simp at herror

/-- The steps of a process, one by one.  A start that fails has still made some calls. -/
inductive MachineStep (m : Machine) : LifeAction → Machine → Prop
  | started {cfg : EngineConfig} {fails : StartCall → Bool} {grown : Machine}
      (hgrown : Grown cfg (newEngineCalls cfg) m grown) :
      MachineStep m (.start cfg fails) { grown with engines := m.engines ++ [cfg] }
  | failed {cfg : EngineConfig} {fails : StartCall → Bool} {made rest : List StartCall}
      {call : StartCall} {m' : Machine} (hcalls : newEngineCalls cfg = made ++ call :: rest)
      (hgrown : Grown cfg made m m') : MachineStep m (.start cfg fails) m'
  | close {k : Nat} {cfg : EngineConfig} (hk : m.engines[k]? = some cfg) :
      MachineStep m (.close k) (m.close k cfg)
  | exit : MachineStep m .exit .new

theorem Machine.step_spec (hstep : m.step action = some m') : MachineStep m action m' := by
  cases action with
  | start cfg fails =>
    obtain rfl := Option.some.inj hstep
    rcases newEngineWithConfig_spec (Prod.mk.eta).symm with
      ⟨-, grown, hgrown, heq⟩ | ⟨made, call, rest, hcalls, -, hgrown⟩
    · rw [heq]
      exact .started hgrown
    · exact .failed hcalls hgrown
  | close k =>
    obtain ⟨cfg, hk, rfl⟩ := Option.map_eq_some_iff.mp hstep
    exact .close hk
  | exit =>
    obtain rfl := Option.some.inj hstep
    exact .exit

/-- Another engine of the process. -/
theorem Machine.Owned.apart_of_mem_eraseIdx (h : m.Owned) (hk : m.engines[k]? = some cfg)
    {other : EngineConfig} (hother : other ∈ m.engines.eraseIdx k) : other.Apart cfg := by
  obtain ⟨j, hj, hget⟩ := List.mem_eraseIdx_iff_getElem?.mp hother
  obtain ⟨hk', rfl⟩ := List.getElem?_eq_some_iff.mp hk
  obtain ⟨hj', rfl⟩ := List.getElem?_eq_some_iff.mp hget
  rcases Nat.lt_or_gt_of_ne hj with hlt | hlt
  · exact List.pairwise_iff_getElem.mp h.apart j k hj' hk' hlt
  · exact (List.pairwise_iff_getElem.mp h.apart k j hk' hj' hlt).symm

theorem Machine.Owned.grown {calls : List StartCall} (h : m.Owned) (hgrown : Grown cfg calls m m') :
    m'.Owned where
  held other hother res hres := by
    rw [hgrown.engines] at hother
    exact (hgrown.held res).mpr (.inr (h.held other hother res hres))
  apart := hgrown.engines ▸ h.apart

theorem Machine.Owned.start (h : m.Owned) {grown : Machine}
    (hgrown : Grown cfg (newEngineCalls cfg) m grown) :
    Machine.Owned { grown with engines := m.engines ++ [cfg] } where
  held other hother res hres := by
    rcases List.mem_append.mp hother with hold | hnew
    · exact (hgrown.held res).mpr (.inr (h.held other hold res hres))
    · obtain rfl := List.mem_singleton.mp hnew
      exact (hgrown.held res).mpr (.inl (EngineConfig.mem_closes.mp hres))
  apart := by
    rw [List.pairwise_append]
    refine ⟨h.apart, List.pairwise_singleton _ _, ?_⟩
    intro other hother cfg' hcfg' res hres hres'
    obtain rfl := List.mem_singleton.mp hcfg'
    exact hgrown.fresh res (EngineConfig.mem_closes.mp hres') (h.held other hother res hres)

theorem Machine.Owned.close (h : m.Owned) (hk : m.engines[k]? = some cfg) : (m.close k cfg).Owned where
  held other hother res hres := by
    have hold : res ∈ m.held := h.held other (List.mem_of_mem_eraseIdx hother) res hres
    have hapart := h.apart_of_mem_eraseIdx hk hother res hres
    simpa [Machine.close] using ⟨hold, hapart⟩
  apart := h.apart.sublist (List.eraseIdx_sublist _ _)

theorem Machine.Owned.new : Machine.new.Owned := by
  constructor <;> simp [Machine.new]

theorem MachineStep.owned (hstep : MachineStep m action m') (h : m.Owned) : m'.Owned := by
  cases hstep with
  | started hgrown => exact h.start hgrown
  | failed _ hgrown => exact h.grown hgrown
  | close hk => exact h.close hk
  | exit => exact .new

theorem Machine.Possible.owned (h : m.Possible) : m.Owned := by
  apply h.invariant
  · rintro m rfl
    exact .new
  · intro m action m' hm _ hstep
    exact (Machine.step_spec hstep).owned hm

end Owned

/-! ### Failed starts -/

/-- A database is open, and no engine will close it. -/
def Machine.Blocked (dir : Bytes) (m : Machine) : Prop :=
  .database dir ∈ m.held ∧ ∀ cfg ∈ m.engines, .database dir ∉ cfg.closes

section Failures

variable {cfg : EngineConfig} {fails : StartCall → Bool} {m m' m'' : Machine} {action : LifeAction}
  {call : StartCall} {actions : List LifeAction} {dir : Bytes}

def LifeAction.inProcess : LifeAction → Bool
  | .exit => false
  | _ => true

theorem Machine.Blocked.grown {calls : List StartCall} (h : m.Blocked dir)
    (hgrown : Grown cfg calls m m') : m'.Blocked dir :=
  ⟨(hgrown.held _).mpr (.inr h.1), hgrown.engines ▸ h.2⟩

theorem MachineStep.blocked (hstep : MachineStep m action m') (hsame : action.inProcess = true)
    (h : m.Blocked dir) : m'.Blocked dir := by
  cases hstep with
  | started hgrown =>
    refine ⟨(h.grown hgrown).1, ?_⟩
    intro other hother hmem
    rcases List.mem_append.mp hother with hold | hnew
    · exact h.2 other hold hmem
    · obtain rfl := List.mem_singleton.mp hnew
      exact hgrown.fresh _ (EngineConfig.mem_closes.mp hmem) h.1
  | failed _ hgrown => exact h.grown hgrown
  | close hk =>
    refine ⟨?_, fun other hother => h.2 other (List.mem_of_mem_eraseIdx hother)⟩
    have hkept := h.2 _ (List.mem_of_getElem? hk)
    simpa [Machine.close] using ⟨h.1, hkept⟩
  | exit => simp [LifeAction.inProcess] at hsame

/-- A start that fails after its first call leaves the store open. -/
theorem Machine.Owned.blocked (h : m.Owned)
    (hfail : newEngineWithConfig cfg fails m = (.error call, m')) (hlate : call ≠ .newStateMachine) :
    m'.Blocked cfg.userDataDir := by
  rcases newEngineWithConfig_spec hfail with ⟨hok, -⟩ | ⟨made, call', rest, hcalls, hcall, hgrown⟩
  · simp at hok
  · obtain rfl := Except.error.inj hcall
    have hstore : .database cfg.userDataDir ∈ opened cfg made := by
      cases made with
      | nil => exact absurd (List.cons.inj hcalls).1.symm hlate
      | cons first made =>
        obtain rfl := (List.cons.inj hcalls).1
        simp [opened, StartCall.opens]
    refine ⟨(hgrown.held _).mpr (.inl hstore), ?_⟩
    intro other hother hmem
    rw [hgrown.engines] at hother
    exact hgrown.fresh _ hstore (h.held other hother _ hmem)

/-- A start that fails after it has opened the store cannot be repeated: as long as the
    process runs, whatever else it starts and closes, every start on the same data directory
    fails at once. -/
theorem failed_start_blocks_store (hpossible : m.Possible)
    (hfail : newEngineWithConfig cfg fails m = (.error call, m')) (hlate : call ≠ .newStateMachine)
    (hrun : run Machine.step (fun _ action => action.inProcess = true) actions m' = some m'')
    {cfg' : EngineConfig} (hsame : cfg'.userDataDir = cfg.userDataDir) (fails' : StartCall → Bool) :
    newEngineWithConfig cfg' fails' m'' = (.error .newStateMachine, m'') := by
  have hreached : Reached Machine.step (fun _ action => action.inProcess = true)
      (Machine.Blocked cfg.userDataDir) m'' :=
    reached_run (.start (hpossible.owned.blocked hfail hlate)) hrun
  have hblocked : m''.Blocked cfg.userDataDir :=
    hreached.invariant (fun _ h => h) fun m action m' h hsame hstep =>
      (Machine.step_spec hstep).blocked hsame h
  have hcalls : makeCalls cfg' fails' (newEngineCalls cfg') m'' =
      (.error .newStateMachine, m'') := by
    apply if_pos
    simp [StartCall.opens, hsame, hblocked.1]
  rw [newEngineWithConfig, hcalls]

end Failures

/-- A node in `/d`, without gossip. -/
def soloConfig : EngineConfig :=
  ⟨[47, 100], [110], [97, 58, 49], [103, 58, 50], true, false, []⟩

/-- Another one. -/
def otherConfig : EngineConfig :=
  ⟨[47, 100], [111], [98, 58, 49], [103, 58, 51], true, false, []⟩

/-- The first start of a process, on a machine where nothing else is wrong. -/
def refused : Machine := (newEngineWithConfig soloConfig (fun _ => false) .new).2

theorem refused_eq :
    newEngineWithConfig soloConfig (fun _ => false) .new = (.error .newRaft, refused) := by
  have hresult : (newEngineWithConfig soloConfig (fun _ => false) .new).1 = .error .newRaft := by
    decide +kernel
  exact Prod.ext hresult rfl

/-- Another engine is tried, and then the first one once more. -/
theorem failed_start_blocks_store_refused :
    ∃ m, run Machine.step (fun _ action => action.inProcess = true)
        [.start otherConfig fun _ => false] refused = some m ∧
      newEngineWithConfig soloConfig (fun _ => false) m = (.error .newStateMachine, m) := by
  obtain ⟨m, hrun⟩ : ∃ m, run Machine.step (fun _ action => action.inProcess = true)
      [.start otherConfig fun _ => false] refused = some m := ⟨_, rfl⟩
  exact ⟨m, hrun, failed_start_blocks_store (.start rfl) refused_eq (by decide) hrun rfl _⟩

/-! ### No start succeeds -/

/-- The calls before `raft.NewRaft`. -/
def beforeNewRaft : List StartCall :=
  [.newStateMachine, .newPebbleStore, .newFileSnapshotStore, .resolveTCPAddr, .newTCPTransport]

/-- No engine is running, and what is held was opened before a call of `raft.NewRaft`. -/
structure Machine.Unstarted (m : Machine) : Prop where
  engines : m.engines = []
  held : ∀ res ∈ m.held, ∃ cfg, ∃ call ∈ beforeNewRaft, StartCall.opens cfg call = some res

section Refusal

variable {cfg : EngineConfig} {fails : StartCall → Bool} {made rest : List StartCall}
  {call : StartCall} {m m' : Machine} {action : LifeAction}

theorem newRaft_rejects (cfg : EngineConfig) : StartCall.rejects cfg .newRaft = true := by
  rw [StartCall.rejects, validateConfig_raftConfig]
  rfl

theorem newEngineCalls_eq (cfg : EngineConfig) :
    ∃ later, newEngineCalls cfg = beforeNewRaft ++ .newRaft :: later := by
  simp only [newEngineCalls, newRaftCalls, List.append_assoc]
  exact ⟨_, rfl⟩

theorem newRaft_mem (cfg : EngineConfig) : .newRaft ∈ newEngineCalls cfg := by
  obtain ⟨later, heq⟩ := newEngineCalls_eq cfg
  simp [heq]

/-- A start never gets past `raft.NewRaft`. -/
theorem Grown.not_mem (h : Grown cfg made m m') : .newRaft ∉ made := by
  intro hmem
  have haccepted := h.accepted .newRaft hmem
  rw [newRaft_rejects] at haccepted
  cases haccepted

theorem Grown.before (h : Grown cfg made m m') (hcalls : newEngineCalls cfg = made ++ call :: rest) :
    (∀ c ∈ made, c ∈ beforeNewRaft) ∧ call ∈ beforeNewRaft ++ [.newRaft] := by
  obtain ⟨later, heq⟩ := newEngineCalls_eq cfg
  rw [hcalls, List.append_eq_append_iff] at heq
  rcases heq with ⟨between, hbefore, hcall⟩ | ⟨beyond, hmade, hlater⟩
  · rw [hbefore]
    refine ⟨fun c hc => List.mem_append_left _ hc, ?_⟩
    cases between with
    | nil => simp [(List.cons.inj hcall).1]
    | cons c between => simp [(List.cons.inj hcall).1]
  · cases beyond with
    | nil =>
      rw [hmade, List.append_nil]
      exact ⟨fun c hc => hc, by simp [(List.cons.inj hlater).1]⟩
    | cons c beyond =>
      obtain rfl := (List.cons.inj hlater).1
      exact absurd (by simp [hmade]) h.not_mem

theorem MachineStep.unstarted (hstep : MachineStep m action m') (h : m.Unstarted) :
    m'.Unstarted := by
  cases hstep with
  | started hgrown => exact absurd (newRaft_mem _) hgrown.not_mem
  | @failed cfg fails made _ _ _ hcalls hgrown =>
    refine ⟨hgrown.engines.trans h.engines, fun res hres => ?_⟩
    rcases (hgrown.held res).mp hres with hnew | hold
    · obtain ⟨call, hcall, hopens⟩ := List.mem_filterMap.mp hnew
      exact ⟨cfg, call, (hgrown.before hcalls).1 call hcall, hopens⟩
    · exact h.held res hold
  | close hk => simp [h.engines] at hk
  | exit => exact ⟨rfl, by simp [Machine.new]⟩

end Refusal

/-- A resolver is an object: there may be two with the same addresses. -/
inductive ResolverRef where
  | static (k : Nat)
  | gossip
deriving DecidableEq, Repr

/-- `own` is the resolver `GetResolver` returns, `service` the one of the gRPC service. -/
structure Resolvers where
  statics : List (Std.ExtTreeMap Bytes Bytes compare)
  gossip : Option Gossip
  own : ResolverRef
  service : ResolverRef

/-- Without gossip the engine makes a resolver, and the service makes one for itself. -/
def newResolvers (gossipEnabled : Bool) (staticLookup : Std.ExtTreeMap Bytes Bytes compare)
    (localMeta : NodeMeta) : Resolvers :=
  if gossipEnabled then ⟨[], some (.new localMeta), .gossip, .gossip⟩
  else ⟨[∅, staticLookup], none, .static 0, .static 1⟩

/-- Calls on the resolver `GetResolver` returns, and events from the other nodes. -/
inductive ResolverOp where
  | setGRPCAddr (nodeID grpcAddr : Bytes)
  | removeAddr (nodeID : Bytes)
  | notify (event : MemberEvent)

namespace Resolvers

def getGRPCAddr (s : Resolvers) (ref : ResolverRef) (nodeID : Bytes) : Option Bytes :=
  match ref with
  | .static k => (s.statics[k]?).bind (·[nodeID]?)
  | .gossip => s.gossip.bind (·.getGRPCAddr nodeID)

/-- Setting and removing addresses is not for gossip. -/
def perform (unmarshal : Bytes → Option NodeMeta) (s : Resolvers) : ResolverOp → Resolvers
  | .setGRPCAddr nodeID grpcAddr =>
      match s.own with
      | .static k => { s with statics := s.statics.modify k (·.insert nodeID grpcAddr) }
      | .gossip => s
  | .removeAddr nodeID =>
      match s.own with
      | .static k => { s with statics := s.statics.modify k (·.erase nodeID) }
      | .gossip => s
  | .notify event => { s with gossip := s.gossip.map (·.notify unmarshal event) }

end Resolvers

def ResolverOp.event? : ResolverOp → Option MemberEvent
  | .notify event => some event
  | _ => none

section Resolvers

variable (unmarshal : Bytes → Option NodeMeta) (staticLookup : Std.ExtTreeMap Bytes Bytes compare)
  (localMeta : NodeMeta)

theorem resolvers_static (ops : List ResolverOp) :
    ∃ own, ops.foldl (Resolvers.perform unmarshal) (newResolvers false staticLookup localMeta) =
      ⟨[own, staticLookup], none, .static 0, .static 1⟩ := by
  induction ops using List.reverseRecOn with
  | nil => exact ⟨∅, rfl⟩
  | append_singleton ops op ih =>
    obtain ⟨own, ih⟩ := ih
    rw [List.foldl_append, ih]
    cases op with
    | setGRPCAddr nodeID grpcAddr => exact ⟨own.insert nodeID grpcAddr, rfl⟩
    | removeAddr nodeID => exact ⟨own.erase nodeID, rfl⟩
    | notify event => exact ⟨own, rfl⟩

theorem resolvers_gossip (ops : List ResolverOp) :
    ops.foldl (Resolvers.perform unmarshal) (newResolvers true staticLookup localMeta) =
      ⟨[], some (.afterEvents unmarshal localMeta (ops.filterMap ResolverOp.event?)), .gossip,
        .gossip⟩ := by
  induction ops using List.reverseRecOn with
  | nil => rfl
  | append_singleton ops op ih =>
    rw [List.foldl_append, ih, List.filterMap_append]
    cases op with
    | setGRPCAddr nodeID grpcAddr =>
      have hnone : [ResolverOp.setGRPCAddr nodeID grpcAddr].filterMap ResolverOp.event? = [] := rfl
      rw [hnone, List.append_nil]
      rfl
    | removeAddr nodeID =>
      have hnone : [ResolverOp.removeAddr nodeID].filterMap ResolverOp.event? = [] := rfl
      rw [hnone, List.append_nil]
      rfl
    | notify event => simp [Resolvers.perform, ResolverOp.event?, Gossip.afterEvents]

/-- Where requests are forwarded to is up to the configuration, or to gossip.  Addresses set
    or removed through `GetResolver` make no difference, in either mode. -/
theorem resolver_changes_not_forwarded (gossipEnabled : Bool) (ops : List ResolverOp)
    (view : LeaderView) :
    leaderGRPCAddr ⟨(ops.foldl (Resolvers.perform unmarshal)
        (newResolvers gossipEnabled staticLookup localMeta)).getGRPCAddr
      (newResolvers gossipEnabled staticLookup localMeta).service⟩ view =
    leaderGRPCAddr (if gossipEnabled then
        gossipResolver (.afterEvents unmarshal localMeta (ops.filterMap ResolverOp.event?))
      else staticResolver staticLookup) view := by
  cases gossipEnabled with
  | false =>
    obtain ⟨own, hafter⟩ := resolvers_static unmarshal staticLookup localMeta ops
    rw [hafter]
    rfl
  | true =>
    rw [resolvers_gossip]
    rfl

end Resolvers

end RaftExample
