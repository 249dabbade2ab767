import RaftExample.MapRefinement
import RaftExample.Forwarding

/-!
# What the documents carry through the program

The documents of `Documents`, put into the program around them: commands and payloads
through the log, keys and values through `Add` and back out of the store, and the
metadata of the nodes through gossip.
-/

namespace RaftExample

open JsonText

/-! ### The log -/

/-- Every command whose type fits into 64 bits and every payload come back from their
    documents as they were, whatever bytes they hold. -/
theorem log_documents_round_trip :
    (∀ command : Command, -2 ^ 63 ≤ command.type ∧ command.type < 2 ^ 63 →
      goJson.unmarshalCommand (goJson.marshalCommand command) = some command) ∧
    ∀ payload, goJson.unmarshalPayload (goJson.marshalPayload payload) = some payload :=
  ⟨fun _ h => unmarshal_marshalCommand h.1 h.2, unmarshal_marshalPayload⟩

theorem log_documents_round_trip_insert :
    goJson.unmarshalCommand (goJson.marshalCommand ⟨cmdInsert, [255, 0]⟩) =
      some ⟨cmdInsert, [255, 0]⟩ :=
  log_documents_round_trip.1 ⟨cmdInsert, [255, 0]⟩ (by decide)

/-! ### Adds -/

/-- The last value added for a key. -/
def lastAdd (adds : List (Bytes × Bytes)) (key : Bytes) : Option Bytes :=
  (adds.reverse.find? fun add => decide (add.1 = key)).map Prod.snd

theorem lastAdd_cons (key value : Bytes) (adds : List (Bytes × Bytes)) (other : Bytes) :
    lastAdd ((key, value) :: adds) other =
      (lastAdd adds other).or (if key = other then some value else none) := by
  unfold lastAdd
  rw [List.reverse_cons, List.find?_append]
  by_cases hkey : key = other
  · cases adds.reverse.find? fun add => decide (add.1 = other) <;> simp [hkey]
  · cases adds.reverse.find? fun add => decide (add.1 = other) <;> simp [hkey]

section Adds

variable {r : StateMachine} {fs : FS KV} {answers : Bytes → Bytes} {env : Env Site}

/-- `Apply` of the entry of one `Add`. -/
theorem StateMachine.Represents.add (h : r.Represents fs answers)
    (hcommit : env.fate .commitInsert = .ok) (index : UInt64) (key value : Bytes) :
    ∃ fs', r.apply goJson index (encodeInsert goJson key value) env fs =
        (.value (⟨[], none⟩, { r with fsmIndex := index }), fs') ∧
      { r with fsmIndex := index }.Represents fs' (Function.update answers key value) := by
  have hcommand := goJson_lawful.unmarshal_encodeInsert key value
  have hpayload := unmarshal_marshalPayload ⟨key, value⟩
  have hreply : mapReply goJson answers (encodeInsert goJson key value) = ⟨[], none⟩ := by
    simp [mapReply, hcommand, hpayload, cmdInsert, cmdQuery]
  have hinsert : insertOf goJson (encodeInsert goJson key value) = some ⟨key, value⟩ := by
    simp [insertOf, hcommand, hpayload]
  have hmap := mapApply_insert goJson answers hinsert
  obtain ⟨fs', hrun, hnext⟩ := h.apply goJson hcommit index (encodeInsert goJson key value)
  rw [hreply] at hrun
  rw [hmap] at hnext
  exact ⟨fs', hrun, hnext⟩

/-- The entries of `Add`s, as `raftServer.Apply` proposes them. -/
def addEntries (adds : List (UInt64 × Bytes × Bytes)) : List (UInt64 × Bytes) :=
  adds.map fun add => (add.1, encodeInsert goJson add.2.1 add.2.2)

theorem StateMachine.Represents.adds (h : r.Represents fs answers)
    (hcommit : env.fate .commitInsert = .ok) (adds : List (UInt64 × Bytes × Bytes)) :
    ∃ r' fs', r.applyAll goJson (addEntries adds) env fs =
        (.value (List.replicate adds.length ⟨[], none⟩, r'), fs') ∧
      r'.Represents fs' fun key => (lastAdd (adds.map Prod.snd) key).getD (answers key) := by
  induction adds generalizing r fs answers with
  | nil => exact ⟨r, fs, rfl, h⟩
  | cons add adds ih =>
    obtain ⟨index, key, value⟩ := add
    obtain ⟨fs', hrun, hnext⟩ := h.add hcommit index key value
    obtain ⟨r', fs'', hrest, hafter⟩ := ih hnext
    refine ⟨r', fs'', ?_, ?_⟩
    · simp only [addEntries, List.map_cons] at hrest ⊢
      simp [StateMachine.applyAll, Proc.bind_run, hrun, hrest, List.replicate_succ]
    · have hsame : (fun other => (lastAdd (((index, key, value) :: adds).map Prod.snd) other).getD
          (answers other)) = fun other => (lastAdd (adds.map Prod.snd) other).getD
            (Function.update answers key value other) := by
        funext other
        rw [List.map_cons, lastAdd_cons]
        by_cases hkey : key = other
        · subst hkey
          cases lastAdd (adds.map Prod.snd) key <;> simp
        · rw [Function.update_of_ne (Ne.symm hkey)]
          cases lastAdd (adds.map Prod.snd) other <;> simp [hkey]
      rw [hsame]
      exact hafter

/-- `Add`s go through JSON, base64, the log and an open store whose commits succeed: each
    of them is answered without an error, and afterwards every key reads as the last value
    added for it, or as before if there was none. -/
theorem adds_read_back {content : KV} (hopen : r.store.closed = false)
    (hdatabase : fs[r.store.db]? = some (.dir (.database content)))
    (hcommit : env.fate .commitInsert = .ok) (adds : List (UInt64 × Bytes × Bytes)) :
    ∃ r' fs', r.applyAll goJson (addEntries adds) env fs =
        (.value (List.replicate adds.length ⟨[], none⟩, r'), fs') ∧
      ∀ key, r'.readLocal fs' key =
        ⟨(lastAdd (adds.map Prod.snd) key).getD (r.readLocal fs key).val, none⟩ := by
  have hstart : r.Represents fs (answersOf content) := ⟨hopen, content, hdatabase, rfl⟩
  obtain ⟨r', fs', hrun, hafter⟩ := hstart.adds hcommit adds
  refine ⟨r', fs', hrun, fun key => ?_⟩
  rw [hafter.readLocal, hstart.readLocal]

end Adds

/-- Two values for a key that is not UTF-8. -/
theorem adds_read_back_twice :
    ∃ r' fs', StateMachine.applyAll goJson ⟨[], [110], 0, nodeStore, 0, [], .zero⟩
        (addEntries [(1, [255], [0]), (2, [255], [])]) (.fair []) nodeDisk =
          (.value ([⟨[], none⟩, ⟨[], none⟩], r'), fs') ∧
      r'.readLocal fs' [255] = ⟨[], none⟩ := by
  obtain ⟨r', fs', hrun, hreads⟩ := adds_read_back
    (r := ⟨[], [110], 0, nodeStore, 0, [], .zero⟩) rfl nodeServing.lookup
    (Env.fair_allOk [] Site.commitInsert) [(1, [255], [0]), (2, [255], [])]
  exact ⟨r', fs', hrun, hreads [255]⟩

/-! ### Membership -/

/-- All three strings are UTF-8. -/
def NodeMeta.Valid (info : NodeMeta) : Prop :=
  toValid info.nodeID = info.nodeID ∧ toValid info.raftAddr = info.raftAddr ∧
    toValid info.grpcAddr = info.grpcAddr

instance (info : NodeMeta) : Decidable info.Valid := inferInstanceAs (Decidable (_ ∧ _ ∧ _))

/-- The event memberlist reports for a node. -/
def announce (announced : EventKind × NodeMeta) : MemberEvent :=
  ⟨announced.1, marshalNodeMeta announced.2⟩

/-- The members after some announcements: for each ID the last one decides. -/
def knownNode (localMeta : NodeMeta) (announced : List (EventKind × NodeMeta)) (nodeID : Bytes) :
    Option NodeMeta :=
  match announced.reverse.find? fun a => decide (a.2.nodeID = nodeID) with
  | some (kind, info) => if kind = .leave then none else some info
  | none => if localMeta.nodeID = nodeID then some localMeta else none

theorem announcement_announce {announced : EventKind × NodeMeta} (h : announced.2.Valid) :
    (announce announced).announcement unmarshalNodeMeta = some announced := by
  obtain ⟨kind, info⟩ := announced
  have hdata : (marshalNodeMeta info).length ≠ 0 := by simp [marshalNodeMeta, printObject]
  simp only [MemberEvent.announcement, announce, if_neg hdata, unmarshal_marshalNodeMeta,
    h.1, h.2.1, h.2.2, Option.map_some]

/-- However nodes join, change and leave, a node knows exactly those whose last
    announcement was not that they leave, under their own IDs and with the addresses they
    announced last. -/
theorem gossip_knows_last_announced (localMeta : NodeMeta)
    (announced : List (EventKind × NodeMeta)) (hvalid : ∀ a ∈ announced, a.2.Valid)
    (nodeID : Bytes) :
    (Gossip.afterEvents unmarshalNodeMeta localMeta (announced.map announce)).nodes[nodeID]? =
      knownNode localMeta announced nodeID := by
  have hread : (announced.map announce).filterMap (MemberEvent.announcement unmarshalNodeMeta) =
      announced := by
    induction announced with
    | nil => rfl
    | cons a announced ih =>
      rw [List.map_cons, List.filterMap_cons, announcement_announce (hvalid a (by simp)),
        ih fun b hb => hvalid b (by simp [hb])]
  rw [lookup_afterEvents, membership, lastAnnouncement, hread]
  rfl

/-- A node comes back under another address. -/
theorem gossip_knows_last_announced_moved :
    (Gossip.afterEvents unmarshalNodeMeta nodeA
      ([(.join, nodeB), (.leave, nodeB), (.join, { nodeB with grpcAddr := [51] })].map
        announce)).nodes[nodeB.nodeID]? = some { nodeB with grpcAddr := [51] } := by
  rw [gossip_knows_last_announced nodeA _ (by decide)]
  decide

end RaftExample
