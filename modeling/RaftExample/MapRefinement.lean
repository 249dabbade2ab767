import RaftExample.StateMachine
import RaftExample.SnapshotRoundTrip

/-!
# The store as a plain map

Seen from outside, an open state machine is a map from keys to values in which a missing
key reads as the empty value.  A log entry is an operation on that map, whatever its
bytes are: a well-formed `Insert` overwrites one key, everything else leaves the map
alone.  The Pebble store with its column families refines the map, entry by entry and
hence over every log.
-/

namespace RaftExample

/-! ### The map -/

/-- The payload of a well-formed `Insert`. -/
def insertOf (json : Json) (data : Bytes) : Option SetPayload :=
  match json.unmarshalCommand data with
  | none => none
  | some command =>
    if command.type = cmdInsert then json.unmarshalPayload command.payload else none

/-- What an entry does to a map. -/
def mapApply (json : Json) (answers : Bytes → Bytes) (data : Bytes) : Bytes → Bytes :=
  match insertOf json data with
  | none => answers
  | some payload => Function.update answers payload.key payload.value

/-- What an entry is answered, given the map it is applied to. -/
def mapReply (json : Json) (answers : Bytes → Bytes) (data : Bytes) : CommandResponse :=
  match json.unmarshalCommand data with
  | none => ⟨[], some .badCommand⟩
  | some command =>
    if command.type = cmdQuery then ⟨answers command.payload, none⟩
    else if command.type = cmdInsert then
      ⟨[], if (json.unmarshalPayload command.payload).isSome then none else some .badPayload⟩
    else ⟨[], some .undefinedCommand⟩

/-- The value of the last well-formed `Insert` for a key. -/
def lastInsert (json : Json) (log : List Bytes) (key : Bytes) : Option Bytes :=
  log.reverse.findSome? fun data =>
    (insertOf json data).bind fun payload =>
      if payload.key = key then some payload.value else none

section Map

variable (json : Json) (answers : Bytes → Bytes)

theorem mapApply_none {data : Bytes} (h : insertOf json data = none) :
    mapApply json answers data = answers := by
  simp [mapApply, h]

theorem mapApply_insert {data : Bytes} {payload : SetPayload}
    (h : insertOf json data = some payload) :
    mapApply json answers data = Function.update answers payload.key payload.value := by
  simp [mapApply, h]

/-- After a log every key has the value of its last `Insert`. -/
theorem foldl_mapApply (log : List Bytes) (key : Bytes) :
    log.foldl (mapApply json) answers key = (lastInsert json log key).getD (answers key) := by
  induction log using List.reverseRecOn with
  | nil => rfl
  | append_singleton log data ih =>
    rw [List.foldl_append, List.foldl_cons, List.foldl_nil]
    cases hinsert : insertOf json data with
    | none =>
      rw [mapApply_none json _ hinsert, ih]
      simp [lastInsert, hinsert]
    | some payload =>
      rw [mapApply_insert json _ hinsert]
      by_cases hkey : payload.key = key
      · subst hkey
        simp [lastInsert, hinsert]
      · rw [Function.update_of_ne (Ne.symm hkey), ih]
        simp [lastInsert, hinsert, hkey]

end Map

/-- The entry `raftServer.Apply` proposes is a well-formed `Insert` of what it was given. -/
theorem insertOf_encodeInsert {json : Json} (hjson : json.Lawful) (key value : Bytes) :
    insertOf json (encodeInsert json key value) = some ⟨key, value⟩ := by
  simp [insertOf, hjson.unmarshal_encodeInsert, hjson.unmarshal_marshalPayload]

/-! ### The store refines the map -/

/-- The map a database stands for: its default column family. -/
def answersOf (content : KV) (key : Bytes) : Bytes :=
  content[buildColumnFamilyKey cfDefault key]?.getD []

theorem answersOf_empty (key : Bytes) : answersOf ∅ key = [] := by
  rw [answersOf, Std.ExtTreeMap.getElem?_empty]
  rfl

theorem buildColumnFamilyKey_inj {cf : UInt8} {key key' : Bytes} :
    buildColumnFamilyKey cf key = buildColumnFamilyKey cf key' ↔ key = key' := by
  simp [buildColumnFamilyKey]

theorem answersOf_insertContent (payload : SetPayload) (content : KV) :
    answersOf (insertContent payload content) =
      Function.update (answersOf content) payload.key payload.value := by
  funext key
  unfold answersOf insertContent
  rw [Std.ExtTreeMap.getElem?_insert]
  by_cases hkey : payload.key = key
  · subst hkey
    simp
  · rw [Function.update_of_ne (Ne.symm hkey)]
    simp [buildColumnFamilyKey_inj, hkey]

theorem answersOf_appliedContent (json : Json) (data : Bytes) (content : KV) :
    answersOf (appliedContent json data content) = mapApply json (answersOf content) data := by
  unfold appliedContent mapApply insertOf
  cases json.unmarshalCommand data with
  | none => rfl
  | some command =>
    simp only
    by_cases hinsert : command.type = cmdInsert
    · rw [if_pos hinsert, if_pos hinsert]
      cases json.unmarshalPayload command.payload with
      | none => rfl
      | some payload => exact answersOf_insertContent payload content
    · rw [if_neg hinsert, if_neg hinsert]

namespace StateMachine

/-- The state machine is open and its database stands for the map. -/
structure Represents (r : StateMachine) (fs : FS KV) (answers : Bytes → Bytes) : Prop where
  closed : r.store.closed = false
  database : ∃ content, fs[r.store.db]? = some (.dir (.database content)) ∧
    answers = answersOf content

section Refinement

variable (json : Json) {r : StateMachine} {fs : FS KV} {answers : Bytes → Bytes} {env : Env Site}

theorem Represents.readLocal (h : r.Represents fs answers) (key : Bytes) :
    r.readLocal fs key = ⟨answers key, none⟩ := by
  obtain ⟨content, hlookup, rfl⟩ := h.database
  exact r.readLocal_eq h.closed hlookup key

/-- `applyCommand` on an open database, when its commit succeeds. -/
theorem applyCommand_run {s : Store} {content : KV} (hclosed : s.closed = false)
    (hlookup : fs[s.db]? = some (.dir (.database content)))
    (hcommit : env.fate .commitInsert = .ok) (data : Bytes) :
    ∃ fs', applyCommand json s data env fs = (.value (mapReply json (answersOf content) data), fs') ∧
      fs'[s.db]? = some (.dir (.database (appliedContent json data content))) := by
  unfold applyCommand mapReply appliedContent
  cases json.unmarshalCommand data with
  | none => exact ⟨fs, rfl, hlookup⟩
  | some command =>
    simp only
    by_cases hquery : command.type = cmdQuery
    · rw [if_pos hquery, if_pos hquery, if_neg (by simp [hquery, cmdQuery, cmdInsert])]
      refine ⟨fs, ?_, hlookup⟩
      simp [Proc.look, query, getBytes, hclosed, hlookup, CommandResponse.ofRead, answersOf]
    · rw [if_neg hquery, if_neg hquery]
      by_cases hinsert : command.type = cmdInsert
      · rw [if_pos hinsert, if_pos hinsert, if_pos hinsert, Proc.bind_run, RaftExample.insert]
        cases json.unmarshalPayload command.payload with
        | none => exact ⟨fs, rfl, hlookup⟩
        | some payload =>
          simp [Proc.bind_run, Proc.commit, Proc.perform_ok hcommit, hlookup]
      · rw [if_neg hinsert, if_neg hinsert, if_neg hinsert]
        exact ⟨fs, rfl, hlookup⟩

/-- One entry: the machine answers as the map does, and goes on standing for it. -/
theorem Represents.apply (h : r.Represents fs answers) (hcommit : env.fate .commitInsert = .ok)
    (index : UInt64) (data : Bytes) :
    ∃ fs', r.apply json index data env fs =
        (.value (mapReply json answers data, { r with fsmIndex := index }), fs') ∧
      { r with fsmIndex := index }.Represents fs' (mapApply json answers data) := by
  obtain ⟨content, hlookup, rfl⟩ := h.database
  obtain ⟨fs', hrun, hafter⟩ := applyCommand_run json h.closed hlookup hcommit data
  refine ⟨fs', ?_, h.closed, _, hafter, (answersOf_appliedContent json data content).symm⟩
  simp [StateMachine.apply, h.closed, Proc.bind_run, hrun]

/-- `Apply` of one entry after the other; the answers in their order. -/
def applyAll (json : Json) (r : StateMachine) :
    List (UInt64 × Bytes) → Disk (List CommandResponse × StateMachine)
  | [] => return ([], r)
  | (index, data) :: entries => do
    let (resp, r) ← r.apply json index data
    let (resps, r) ← r.applyAll json entries
    return (resp :: resps, r)

/-- A whole log. -/
theorem Represents.applyAll (h : r.Represents fs answers) (hcommit : env.fate .commitInsert = .ok)
    (entries : List (UInt64 × Bytes)) :
    ∃ resps r' fs', r.applyAll json entries env fs = (.value (resps, r'), fs') ∧
      r'.Represents fs' ((entries.map Prod.snd).foldl (mapApply json) answers) := by
  induction entries generalizing r fs answers with
  | nil => exact ⟨[], r, fs, rfl, h⟩
  | cons entry entries ih =>
    obtain ⟨index, data⟩ := entry
    obtain ⟨fs', hrun, hnext⟩ := h.apply json hcommit index data
    obtain ⟨resps, r', fs'', hrest, hafter⟩ := ih hnext
    refine ⟨mapReply json answers data :: resps, r', fs'', ?_, hafter⟩
    simp [StateMachine.applyAll, Proc.bind_run, hrun, hrest]

end Refinement

end StateMachine

/-- At every point of every log of entries with arbitrary bytes, a read gets the value of
    the last `Insert` for its key (what the machine answered before the log if there is
    none, which is the empty value for a new store); a `Query` entry is answered as a
    read at that point; an entry that is not a well-formed `Insert` leaves all answers as
    they are; and an entry of `raftServer.Apply` changes its own key, to its own value. -/
theorem store_refines_map {json : Json} (hjson : json.Lawful) {r : StateMachine} {fs : FS KV}
    {content : KV} {env : Env Site} (hopen : r.store.closed = false)
    (hdatabase : fs[r.store.db]? = some (.dir (.database content)))
    (hcommit : env.fate .commitInsert = .ok) (entries : List (UInt64 × Bytes)) :
    ∃ resps r' fs', r.applyAll json entries env fs = (.value (resps, r'), fs') ∧
      (∀ key, r'.readLocal fs' key =
        ⟨(lastInsert json (entries.map Prod.snd) key).getD (r.readLocal fs key).val, none⟩) ∧
      (content = ∅ → ∀ key, r'.readLocal fs' key =
        ⟨(lastInsert json (entries.map Prod.snd) key).getD [], none⟩) ∧
      ∀ index data, ∃ resp r'' fs'',
        r'.apply json index data env fs' = (.value (resp, r''), fs'') ∧
        (∀ payload, json.unmarshalCommand data = some ⟨cmdQuery, payload⟩ →
          resp = r'.readLocal fs' payload) ∧
        (insertOf json data = none → ∀ key, r''.readLocal fs'' key = r'.readLocal fs' key) ∧
        (∀ key value, data = encodeInsert json key value →
          r''.readLocal fs'' key = ⟨value, none⟩ ∧
          ∀ other, other ≠ key → r''.readLocal fs'' other = r'.readLocal fs' other) := by
  have hstart : r.Represents fs (answersOf content) := ⟨hopen, content, hdatabase, rfl⟩
  obtain ⟨resps, r', fs', hrun, hafter⟩ := hstart.applyAll json hcommit entries
  refine ⟨resps, r', fs', hrun, ?_, ?_, ?_⟩
  · intro key
    rw [hafter.readLocal, foldl_mapApply, hstart.readLocal]
  · rintro rfl key
    rw [hafter.readLocal, foldl_mapApply, answersOf_empty]
  · intro index data
    obtain ⟨fs'', happly, hnext⟩ := hafter.apply json hcommit index data
    refine ⟨_, _, fs'', happly, ?_, ?_, ?_⟩
    · intro payload hquery
      rw [hafter.readLocal]
      simp [mapReply, hquery]
    · intro hnone key
      rw [hnext.readLocal, hafter.readLocal, mapApply_none json _ hnone]
    · intro key value hentry
      subst hentry
      have hinsert := mapApply_insert json ((entries.map Prod.snd).foldl (mapApply json)
        (answersOf content)) (insertOf_encodeInsert hjson key value)
      constructor
      · rw [hnext.readLocal, hinsert, Function.update_self]
      · intro other hother
        rw [hnext.readLocal, hafter.readLocal, hinsert, Function.update_of_ne hother]

/-- Two `Insert`s of one key around an entry that is no document. -/
def overwritingLog : List (UInt64 × Bytes) :=
  [(1, encodeInsert goJson [107] [1]), (2, [7]), (3, encodeInsert goJson [107] [2])]

/-- Applied to a new store, the second of them is read. -/
theorem store_refines_map_overwriting :
    ∃ resps r' fs', StateMachine.applyAll goJson ⟨[], [110], 0, nodeStore, 0, [], .zero⟩
        overwritingLog (.fair []) nodeDisk = (.value (resps, r'), fs') ∧
      r'.readLocal fs' [107] = ⟨[2], none⟩ := by
  obtain ⟨resps, r', fs', hrun, -, hreads, -⟩ := store_refines_map goJson_lawful
    (r := ⟨[], [110], 0, nodeStore, 0, [], .zero⟩) rfl nodeServing.lookup
    (Env.fair_allOk [] Site.commitInsert) overwritingLog
  refine ⟨resps, r', fs', hrun, ?_⟩
  rw [hreads rfl]
  decide +kernel

end RaftExample
