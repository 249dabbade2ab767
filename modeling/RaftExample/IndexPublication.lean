import RaftExample.Interleaving
import RaftExample.Replication

/-!
# Publishing the applied index at startup

At the end of `newRaft` the index of the state machine is raised to raft's applied index.
The call reads its argument, loads the index, compares the two and stores the argument,
while the FSM goroutine is applying entries and taking snapshots: `Apply` stores the index
of its entry and then executes the command, `Snapshot` captures the data and then loads
the index.  The applied index counts entries that still wait for the FSM goroutine.  On a
node whose data is up to date with its index, the store is harmless only if the FSM
goroutine has begun to apply exactly the commands up to the index that is stored.
-/

namespace RaftExample

open Interleaving

/-! ### The goroutines -/

/-- What the FSM goroutine is doing. -/
inductive FsmStage where
  | idle
  /-- The index is stored, the command is not executed yet. -/
  | applying (data : Bytes)
  /-- The data of the first `upTo` entries is captured, the index is not loaded yet. -/
  | capturing (snapshot : KV) (upTo : Nat)

/-- Where the call of `UpdateFsmIndex` is. -/
inductive UpdatePC where
  | waiting
  | called (index : Nat)
  | loaded (index current : Nat)
  | storing (index : Nat)
  | done

/-- What `Snapshot` returned; `upTo` is a ghost. -/
structure IndexCapture where
  snapshot : KV
  lastIndex : Nat
  upTo : Nat

/-- `log` are the entries from index one on, up to the last one raft has handed to the FSM
    goroutine.  Only commands have data: the others never reach `Apply`.  `processed` is
    how many of the entries the FSM goroutine is done with. -/
structure PublishState where
  content : KV
  log : List (Option Bytes)
  appliedIndex : Nat
  processed : Nat
  fsm : FsmStage
  fsmIndex : Nat
  update : UpdatePC
  captures : List IndexCapture

inductive PublishAction where
  -- raft
  | handOver (entry : Option Bytes)
  | count (index : Nat)
  -- the FSM goroutine
  | skip
  | startApply
  | finishApply
  | takeSnapshot
  | loadLastIndex
  -- newRaft
  | readApplied
  | load
  | compare
  | store

/-- Raft counts entries once it has handed them over, and sooner or later than the FSM
    goroutine gets to them. -/
def PublishState.step (json : Json) (action : PublishAction) (s : PublishState) :
    Option PublishState :=
  match action with
  | .handOver entry => some { s with log := s.log ++ [entry] }
  | .count index =>
      if s.appliedIndex ≤ index ∧ index ≤ s.log.length then
        some { s with appliedIndex := index }
      else none
  | .skip =>
      match s.fsm, s.log[s.processed]? with
      | .idle, some none => some { s with processed := s.processed + 1 }
      | _, _ => none
  | .startApply =>
      match s.fsm, s.log[s.processed]? with
      | .idle, some (some data) =>
          some { s with fsm := .applying data, fsmIndex := s.processed + 1 }
      | _, _ => none
  | .finishApply =>
      match s.fsm with
      | .applying data =>
          some { s with fsm := .idle, content := appliedContent json data s.content
                        processed := s.processed + 1 }
      | _ => none
  | .takeSnapshot =>
      match s.fsm with
      | .idle => some { s with fsm := .capturing s.content s.processed }
      | _ => none
  | .loadLastIndex =>
      match s.fsm with
      | .capturing snapshot upTo =>
          some { s with fsm := .idle, captures := ⟨snapshot, s.fsmIndex, upTo⟩ :: s.captures }
      | _ => none
  | .readApplied =>
      match s.update with
      | .waiting => some { s with update := .called s.appliedIndex }
      | _ => none
  | .load =>
      match s.update with
      | .called index => some { s with update := .loaded index s.fsmIndex }
      | _ => none
  | .compare =>
      match s.update with
      | .loaded index current =>
          some { s with update := if current < index then .storing index else .done }
      | _ => none
  | .store =>
      match s.update with
      | .storing index => some { s with fsmIndex := index, update := .done }
      | _ => none

/-! ### What an index says about the log -/

/-- Among the first `count` entries are the commands up to `index`, and no others. -/
def Matches (log : List (Option Bytes)) (count index : Nat) : Prop :=
  ∀ i < log.length, log[i]?.join.isSome = true → (i + 1 ≤ index ↔ i < count)

instance (log : List (Option Bytes)) (count index : Nat) : Decidable (Matches log count index) := by
  unfold Matches
  infer_instance

def entryApplied (json : Json) (content : KV) : Option Bytes → KV
  | some data => appliedContent json data content
  | none => content

/-- The content after these entries, from an empty store. -/
def commandsApplied (json : Json) (log : List (Option Bytes)) : KV :=
  log.foldl (entryApplied json) ∅

/-- The store holds exactly the commands of the log, and the index is up to date with them:
    a new node, or one that has restored a snapshot.  A node that restarts on the store it
    had before replays entries the store holds already, and is in no such state. -/
structure PublishState.Started (json : Json) (s : PublishState) : Prop where
  content : s.content = commandsApplied json s.log
  processed : s.processed = s.log.length
  counted : s.appliedIndex ≤ s.log.length
  commands : Matches s.log s.log.length s.fsmIndex
  below : s.fsmIndex ≤ s.log.length
  idle : s.fsm = .idle
  waiting : s.update = .waiting
  captures : s.captures = []

/-- The captured data includes every command up to `lastIndex` and none above it. -/
structure IndexCapture.Complete (json : Json) (log : List (Option Bytes)) (c : IndexCapture) :
    Prop where
  commands : Matches log c.upTo c.lastIndex
  snapshot : c.snapshot = commandsApplied json (log.take c.upTo)

/-- How many entries the FSM goroutine has begun to process. -/
def PublishState.begun (s : PublishState) : Nat :=
  match s.fsm with
  | .applying _ => s.processed + 1
  | _ => s.processed

/-- When `UpdateFsmIndex` stores its argument, the FSM goroutine has begun to apply the
    commands up to it, and no others. -/
def storesInStep (s : PublishState) : PublishAction → Bool
  | .store =>
      match s.update with
      | .storing index => decide (Matches s.log s.begun index)
      | _ => true
  | _ => true

section Publication

variable {json : Json} {first count index : Nat} {log : List (Option Bytes)}
  {entry : Option Bytes} {s s' : PublishState} {action : PublishAction}

theorem Matches.append (h : Matches log count index) (hcount : count ≤ log.length)
    (hindex : index ≤ log.length) (entry : Option Bytes) :
    Matches (log ++ [entry]) count index := by
  intro i hi hcommand
  by_cases hold : i < log.length
  · rw [List.getElem?_append_left hold] at hcommand
    exact h i hold hcommand
  · omega

/-- An entry that is no command makes no difference. -/
theorem Matches.skip (h : Matches log count index) (hentry : log[count]? = some none) :
    Matches log (count + 1) index := by
  intro i hi hcommand
  have hne : i ≠ count := by
    rintro rfl
    simp [hentry] at hcommand
  rw [h i hi hcommand]
  omega

theorem matches_begun (log : List (Option Bytes)) (n : Nat) :
    Matches log (n + 1) (n + 1) := by
  intro i _ _
  omega

theorem commandsApplied_take_succ (json : Json) {n : Nat}
    (hentry : log[n]? = some entry) :
    commandsApplied json (log.take (n + 1)) =
      entryApplied json (commandsApplied json (log.take n)) entry := by
  rw [List.take_add_one, hentry]
  simp [commandsApplied]

/-! ### The steps, one by one -/

inductive PublishStep (json : Json) (s : PublishState) :
    PublishAction → PublishState → Prop
  | handOver (entry : Option Bytes) :
      PublishStep json s (.handOver entry) { s with log := s.log ++ [entry] }
  | count {index : Nat} (hup : s.appliedIndex ≤ index) (hbound : index ≤ s.log.length) :
      PublishStep json s (.count index) { s with appliedIndex := index }
  | skip (hidle : s.fsm = .idle) (hentry : s.log[s.processed]? = some none) :
      PublishStep json s .skip { s with processed := s.processed + 1 }
  | startApply {data : Bytes} (hidle : s.fsm = .idle)
      (hentry : s.log[s.processed]? = some (some data)) :
      PublishStep json s .startApply
        { s with fsm := .applying data, fsmIndex := s.processed + 1 }
  | finishApply {data : Bytes} (happlying : s.fsm = .applying data) :
      PublishStep json s .finishApply
        { s with fsm := .idle, content := appliedContent json data s.content
                 processed := s.processed + 1 }
  | takeSnapshot (hidle : s.fsm = .idle) :
      PublishStep json s .takeSnapshot { s with fsm := .capturing s.content s.processed }
  | loadLastIndex {snapshot : KV} {upTo : Nat} (hcapturing : s.fsm = .capturing snapshot upTo) :
      PublishStep json s .loadLastIndex
        { s with fsm := .idle, captures := ⟨snapshot, s.fsmIndex, upTo⟩ :: s.captures }
  | readApplied (hwaiting : s.update = .waiting) :
      PublishStep json s .readApplied { s with update := .called s.appliedIndex }
  | load {index : Nat} (hcalled : s.update = .called index) :
      PublishStep json s .load { s with update := .loaded index s.fsmIndex }
  | compare {index current : Nat} (hloaded : s.update = .loaded index current) :
      PublishStep json s .compare
        { s with update := if current < index then .storing index else .done }
  | store {index : Nat} (hstoring : s.update = .storing index) :
      PublishStep json s .store { s with fsmIndex := index, update := .done }

theorem PublishState.step_spec (hstep : s.step json action = some s') :
    PublishStep json s action s' := by
  unfold PublishState.step at hstep
  cases action with
  | handOver entry =>
    obtain rfl := Option.some.inj hstep
    exact .handOver entry
  | count index =>
    simp only at hstep
    split at hstep
    · rename_i hbounds
      obtain rfl := Option.some.inj hstep
      exact .count hbounds.1 hbounds.2
    · simp at hstep
  | skip =>
    simp only at hstep
    split at hstep
    · rename_i hidle hentry
      obtain rfl := Option.some.inj hstep
      exact .skip hidle hentry
    · simp at hstep
  | startApply =>
    simp only at hstep
    split at hstep
    · rename_i data hidle hentry
      obtain rfl := Option.some.inj hstep
      exact .startApply hidle hentry
    · simp at hstep
  | finishApply =>
    simp only at hstep
    split at hstep
    · rename_i data happlying
      obtain rfl := Option.some.inj hstep
      exact .finishApply happlying
    · simp at hstep
  | takeSnapshot =>
    simp only at hstep
    split at hstep
    · rename_i hidle
      obtain rfl := Option.some.inj hstep
      exact .takeSnapshot hidle
    · simp at hstep
  | loadLastIndex =>
    simp only at hstep
    split at hstep
    · rename_i snapshot upTo hcapturing
      obtain rfl := Option.some.inj hstep
      exact .loadLastIndex hcapturing
    · simp at hstep
  | readApplied =>
    simp only at hstep
    split at hstep
    · rename_i hwaiting
      obtain rfl := Option.some.inj hstep
      exact .readApplied hwaiting
    · simp at hstep
  | load =>
    simp only at hstep
    split at hstep
    · rename_i index hcalled
      obtain rfl := Option.some.inj hstep
      exact .load hcalled
    · simp at hstep
  | compare =>
    simp only at hstep
    split at hstep
    · rename_i index current hloaded
      obtain rfl := Option.some.inj hstep
      exact .compare hloaded
    · simp at hstep
  | store =>
    simp only at hstep
    split at hstep
    · rename_i index hstoring
      obtain rfl := Option.some.inj hstep
      exact .store hstoring
    · simp at hstep

/-! ### The invariant -/

/-- What the call of `UpdateFsmIndex` holds; `highest` is the index of the last entry. -/
def UpdatePC.Bounded (first highest : Nat) : UpdatePC → Prop
  | .called index => index ≤ highest
  | .loaded index current => index ≤ highest ∧ first ≤ current
  | .storing index => index ≤ highest ∧ first ≤ index
  | _ => True

/-- Until something is published, the index is the first one or that of a command. -/
def PublishState.Unpublished (first : Nat) (s : PublishState) : Prop :=
  s.fsmIndex = first ∨
    ∃ i < s.begun, i < s.log.length ∧ s.log[i]?.join.isSome = true ∧ s.fsmIndex = i + 1

structure PublishState.Ok (json : Json) (first : Nat) (s : PublishState) : Prop where
  content : s.content = commandsApplied json (s.log.take s.processed)
  begun : s.begun ≤ s.log.length
  applying : ∀ data, s.fsm = .applying data → s.log[s.processed]? = some (some data)
  capturing : ∀ snapshot upTo, s.fsm = .capturing snapshot upTo →
    snapshot = s.content ∧ upTo = s.processed
  counted : s.appliedIndex ≤ s.log.length
  commands : Matches s.log s.begun s.fsmIndex
  above : first ≤ s.fsmIndex
  below : s.fsmIndex ≤ s.log.length
  update : s.update.Bounded first s.log.length
  unpublished : s.update ≠ .done → s.Unpublished first
  captures : ∀ c ∈ s.captures, c.upTo ≤ s.log.length ∧ c.lastIndex ≤ s.log.length ∧
    c.Complete json s.log

theorem UpdatePC.Bounded.mono {update : UpdatePC} {highest highest' : Nat}
    (h : update.Bounded first highest) (hle : highest ≤ highest') :
    update.Bounded first highest' := by
  cases update with
  | called index => exact Nat.le_trans h hle
  | loaded index current => exact ⟨Nat.le_trans h.1 hle, h.2⟩
  | storing index => exact ⟨Nat.le_trans h.1 hle, h.2⟩
  | _ => trivial

/-- More entries begun and more handed over do not matter. -/
theorem PublishState.Unpublished.mono (h : s.Unpublished first)
    (hindex : s'.fsmIndex = s.fsmIndex) (hlog : s.log <+: s'.log) (hbegun : s.begun ≤ s'.begun) :
    s'.Unpublished first := by
  unfold PublishState.Unpublished
  rw [hindex]
  rcases h with hfirst | ⟨i, hi, hlt, hcommand, hi'⟩
  · exact .inl hfirst
  · refine .inr ⟨i, hi.trans_le hbegun, hlt.trans_le hlog.length_le, ?_, hi'⟩
    obtain ⟨later, hlater⟩ := hlog
    rw [← hlater, List.getElem?_append_left hlt]
    exact hcommand

theorem PublishState.begun_of_idle (h : s.fsm = .idle) : s.begun = s.processed := by
  rw [PublishState.begun, h]

theorem PublishState.processed_le_begun (s : PublishState) : s.processed ≤ s.begun := by
  unfold PublishState.begun
  split
  · exact Nat.le_succ _
  · exact Nat.le_refl _

namespace PublishState.Ok

theorem handOver (h : s.Ok json first) (entry : Option Bytes) :
    PublishState.Ok json first { s with log := s.log ++ [entry] } := by
  have hlen : s.log.length ≤ (s.log ++ [entry]).length := by
    rw [List.length_append]
    exact Nat.le_add_right ..
  have hprocessed : s.processed ≤ s.log.length := s.processed_le_begun.trans h.begun
  refine ⟨?_, h.begun.trans hlen, ?_, h.capturing, ?_, h.commands.append h.begun h.below entry,
    h.above, ?_, ?_, ?_, ?_⟩
  · simp only [List.take_append_of_le_length hprocessed]
    exact h.content
  · intro data hfsm
    have hold := h.applying data hfsm
    rw [← hold]
    exact List.getElem?_append_left (List.getElem?_eq_some_iff.mp hold).1
  · exact h.counted.trans hlen
  · exact h.below.trans hlen
  · exact h.update.mono hlen
  · intro hdone
    exact (h.unpublished hdone).mono rfl (List.prefix_append ..) (Nat.le_refl _)
  · intro c hc
    obtain ⟨hupTo, hlast, hcomplete⟩ := h.captures c hc
    refine ⟨hupTo.trans hlen, hlast.trans hlen, hcomplete.commands.append hupTo hlast entry, ?_⟩
    simp only [List.take_append_of_le_length hupTo]
    exact hcomplete.snapshot

theorem skip (h : s.Ok json first) (hidle : s.fsm = .idle)
    (hentry : s.log[s.processed]? = some none) :
    PublishState.Ok json first { s with processed := s.processed + 1 } := by
  have hbegun : s.begun = s.processed := PublishState.begun_of_idle hidle
  have hbegun' : PublishState.begun { s with processed := s.processed + 1 } = s.processed + 1 :=
    PublishState.begun_of_idle hidle
  have hcommands := h.commands
  rw [hbegun] at hcommands
  refine ⟨?_, ?_, ?_, ?_, h.counted, ?_, h.above, h.below, h.update, ?_, h.captures⟩
  · simp only [commandsApplied_take_succ json hentry]
    exact h.content
  · rw [hbegun']
    exact (List.getElem?_eq_some_iff.mp hentry).1
  · intro data hfsm
    simp [hidle] at hfsm
  · intro snapshot upTo hfsm
    simp [hidle] at hfsm
  · rw [hbegun']
    exact hcommands.skip hentry
  · intro hdone
    refine (h.unpublished hdone).mono rfl (List.prefix_refl _) ?_
    rw [hbegun, hbegun']
    exact Nat.le_succ _

/-- The next command is one the index has not reached. -/
theorem next_command (h : s.Ok json first) (hidle : s.fsm = .idle) {data : Bytes}
    (hentry : s.log[s.processed]? = some (some data)) : s.fsmIndex < s.processed + 1 := by
  have hlt : s.processed < s.log.length := (List.getElem?_eq_some_iff.mp hentry).1
  have hnot := h.commands s.processed hlt (by rw [hentry]; rfl)
  rw [PublishState.begun_of_idle hidle] at hnot
  omega

theorem startApply (h : s.Ok json first) (hidle : s.fsm = .idle) {data : Bytes}
    (hentry : s.log[s.processed]? = some (some data)) :
    PublishState.Ok json first
      { s with fsm := .applying data, fsmIndex := s.processed + 1 } := by
  have hlt : s.processed < s.log.length := (List.getElem?_eq_some_iff.mp hentry).1
  have hgrows := h.next_command hidle hentry
  refine ⟨h.content, hlt, ?_, ?_, h.counted, matches_begun s.log s.processed, ?_, ?_,
    h.update, ?_, h.captures⟩
  · intro other hfsm
    obtain rfl := FsmStage.applying.inj hfsm
    exact hentry
  · intro snapshot upTo hfsm
    simp at hfsm
  · exact h.above.trans (Nat.le_of_lt hgrows)
  · change s.processed + 1 ≤ s.log.length
    omega
  · intro _
    exact .inr ⟨s.processed, Nat.lt_succ_self _, hlt, by rw [hentry]; rfl, rfl⟩

theorem finishApply (h : s.Ok json first) {data : Bytes}
    (happlying : s.fsm = .applying data) :
    PublishState.Ok json first
      { s with fsm := .idle, content := appliedContent json data s.content
               processed := s.processed + 1 } := by
  have hentry := h.applying data happlying
  have hbegun : s.begun = s.processed + 1 := by rw [PublishState.begun, happlying]
  have hbegun' : s.begun = PublishState.begun
      { s with fsm := .idle, content := appliedContent json data s.content
               processed := s.processed + 1 } := hbegun
  refine ⟨?_, hbegun' ▸ h.begun, by simp, by simp, h.counted, hbegun' ▸ h.commands, h.above,
    h.below, h.update, ?_, h.captures⟩
  · simp only [commandsApplied_take_succ json hentry, ← h.content]
    rfl
  · intro hdone
    exact (h.unpublished hdone).mono rfl (List.prefix_refl _) hbegun'.le

theorem takeSnapshot (h : s.Ok json first) (hidle : s.fsm = .idle) :
    PublishState.Ok json first { s with fsm := .capturing s.content s.processed } := by
  have hbegun : s.begun =
      PublishState.begun { s with fsm := .capturing s.content s.processed } :=
    PublishState.begun_of_idle hidle
  refine ⟨h.content, hbegun ▸ h.begun, by simp, ?_, h.counted, hbegun ▸ h.commands, h.above,
    h.below, h.update, ?_, h.captures⟩
  · intro snapshot upTo hfsm
    obtain ⟨rfl, rfl⟩ := FsmStage.capturing.inj hfsm
    exact ⟨rfl, rfl⟩
  · intro hdone
    exact (h.unpublished hdone).mono rfl (List.prefix_refl _) hbegun.le

theorem loadLastIndex (h : s.Ok json first) {snapshot : KV} {upTo : Nat}
    (hcapturing : s.fsm = .capturing snapshot upTo) :
    PublishState.Ok json first
      { s with fsm := .idle, captures := ⟨snapshot, s.fsmIndex, upTo⟩ :: s.captures } := by
  obtain ⟨rfl, rfl⟩ := h.capturing snapshot upTo hcapturing
  have hbegun : s.begun = s.processed := by rw [PublishState.begun, hcapturing]
  have hbegun' : s.begun = PublishState.begun
      { s with fsm := .idle, captures := ⟨s.content, s.fsmIndex, s.processed⟩ :: s.captures } :=
    hbegun
  refine ⟨h.content, hbegun' ▸ h.begun, by simp, by simp, h.counted, hbegun' ▸ h.commands,
    h.above, h.below, h.update, ?_, ?_⟩
  · intro hdone
    exact (h.unpublished hdone).mono rfl (List.prefix_refl _) hbegun'.le
  · intro c hc
    rcases List.mem_cons.mp hc with rfl | hold
    · exact ⟨hbegun ▸ h.begun, h.below, hbegun ▸ h.commands, h.content⟩
    · exact h.captures c hold

/-- The argument is no less than the index it replaces: that is the one the call has
    loaded, or the index of a command up to the argument. -/
theorem fsmIndex_le (h : s.Ok json first) (hstoring : s.update = .storing index)
    (hmatches : Matches s.log s.begun index) : s.fsmIndex ≤ index := by
  have hbounds := h.update
  rw [hstoring] at hbounds
  rcases h.unpublished (by simp [hstoring]) with hfirst | ⟨i, hi, hlt, hcommand, hindex⟩
  · exact hfirst.trans_le hbounds.2
  · rw [hindex]
    exact (hmatches i hlt hcommand).mpr hi

theorem step (h : s.Ok json first) (hstores : storesInStep s action = true)
    (hstep : PublishStep json s action s') : s'.Ok json first := by
  cases hstep with
  | handOver entry => exact h.handOver entry
  | count hup hbound => exact { h with counted := hbound }
  | skip hidle hentry => exact h.skip hidle hentry
  | startApply hidle hentry => exact h.startApply hidle hentry
  | finishApply happlying => exact h.finishApply happlying
  | takeSnapshot hidle => exact h.takeSnapshot hidle
  | loadLastIndex hcapturing => exact h.loadLastIndex hcapturing
  | readApplied hwaiting =>
    exact { h with update := h.counted, unpublished := fun _ => h.unpublished (by simp [hwaiting]) }
  | load hcalled =>
    have hbounds := h.update
    rw [hcalled] at hbounds
    exact { h with update := ⟨hbounds, h.above⟩
                   unpublished := fun _ => h.unpublished (by simp [hcalled]) }
  | compare hloaded =>
    have hbounds := h.update
    rw [hloaded] at hbounds
    refine { h with update := ?_, unpublished := fun _ => h.unpublished (by simp [hloaded]) }
    simp only
    split
    · rename_i hless
      exact ⟨hbounds.1, hbounds.2.trans (Nat.le_of_lt hless)⟩
    · trivial
  | @store index hstoring =>
    have hbounds := h.update
    rw [hstoring] at hbounds
    have hmatches : Matches s.log s.begun index := by
      simpa [storesInStep, hstoring] using hstores
    exact { h with commands := hmatches, above := hbounds.2, below := hbounds.1
                   update := trivial, unpublished := fun hdone => absurd rfl hdone }

theorem mono (h : s.Ok json first) (hstores : storesInStep s action = true)
    (hstep : PublishStep json s action s') : s.fsmIndex ≤ s'.fsmIndex := by
  cases hstep with
  | startApply hidle hentry => exact Nat.le_of_lt (h.next_command hidle hentry)
  | store hstoring => exact h.fsmIndex_le hstoring (by simpa [storesInStep, hstoring] using hstores)
  | _ => exact Nat.le_refl _

end PublishState.Ok

theorem PublishState.Started.ok (h : s.Started json) : s.Ok json s.fsmIndex := by
  have hbegun : s.begun = s.log.length := (PublishState.begun_of_idle h.idle).trans h.processed
  refine ⟨?_, hbegun.le, ?_, ?_, h.counted, hbegun ▸ h.commands, Nat.le_refl _, h.below, ?_,
    fun _ => .inl rfl, ?_⟩
  · rw [h.processed, List.take_length]
    exact h.content
  · simp [h.idle]
  · simp [h.idle]
  · rw [h.waiting]
    trivial
  · simp [h.captures]

/-- From every start with a store that is up to date with the index, and in every
    interleaving in which `UpdateFsmIndex` stores its argument when the FSM goroutine has
    begun to apply exactly the commands up to it: the index never decreases, and every
    snapshot captured so far is what the commands up to its `lastIndex`, and no others,
    make of an empty store. -/
theorem published_index_sound
    (hreached : Reached (PublishState.step json) (fun s a => storesInStep s a = true)
      (PublishState.Started json) s) :
    (∀ action s', storesInStep s action = true → s.step json action = some s' →
      s.fsmIndex ≤ s'.fsmIndex) ∧
    ∀ c ∈ s.captures, c.Complete json s.log := by
  obtain ⟨first, hok⟩ : ∃ first, s.Ok json first := by
    induction hreached with
    | start hstarted => exact ⟨_, hstarted.ok⟩
    | step _ hallowed hstep ih =>
      obtain ⟨first, h⟩ := ih
      exact ⟨first, h.step hallowed (PublishState.step_spec hstep)⟩
  constructor
  · intro action s' hstores hstep
    exact hok.mono hstores (PublishState.step_spec hstep)
  · intro c hc
    exact (hok.captures c hc).2.2

end Publication

/-! ### The state machine behind the steps -/

/-- A state machine and its disk, as the goroutines see them. -/
structure PublishState.Shows (cwd : Loc) (r : StateMachine) (fs : FS KV) (s : PublishState) :
    Prop where
  opened : r.store.closed = false
  serving : ∃ name, Serving cwd r.store fs name s.content
  fsmIndex : r.fsmIndex.toNat = s.fsmIndex

section Shows

variable {json : Json} {cwd : Loc} {r : StateMachine} {fs : FS KV} {s : PublishState}

/-- `Apply` is the steps `startApply` and `finishApply`. -/
theorem PublishState.Shows.apply (h : s.Shows cwd r fs) {data : Bytes} {index : UInt64}
    (hidle : s.fsm = .idle) (hentry : s.log[s.processed]? = some (some data))
    (hindex : index.toNat = s.processed + 1) :
    ∃ resp r' fs' s', r.apply json index data (.fair cwd) fs = (.value (resp, r'), fs') ∧
      run (PublishState.step json) (fun _ _ => True) [.startApply, .finishApply] s = some s' ∧
      s'.Shows cwd r' fs' := by
  obtain ⟨name, hserving⟩ := h.serving
  obtain ⟨resp, fs', hrun, hserving'⟩ := apply_fair index data h.opened hserving
  have hsteps : run (PublishState.step json) (fun _ _ => True) [.startApply, .finishApply] s =
      some { s with fsm := .idle, fsmIndex := s.processed + 1
                    content := appliedContent json data s.content
                    processed := s.processed + 1 } := by
    simp [run, PublishState.step, hidle, hentry]
  exact ⟨resp, _, fs', _, hrun, hsteps, h.opened, ⟨name, hserving'⟩, hindex⟩

/-- `Snapshot` is the steps `takeSnapshot` and `loadLastIndex`. -/
theorem PublishState.Shows.snapshot (h : s.Shows cwd r fs) (hidle : s.fsm = .idle) (now : Int64) :
    ∃ captured s', r.snapshot fs now = .ok captured ∧
      run (PublishState.step json) (fun _ _ => True) [.takeSnapshot, .loadLastIndex] s =
        some s' ∧
      s'.captures = ⟨captured.snapshot, captured.lastIndex.toNat, s.processed⟩ :: s.captures ∧
      s'.Shows cwd r fs := by
  obtain ⟨name, hserving⟩ := h.serving
  have hsteps : run (PublishState.step json) (fun _ _ => True)
      [.takeSnapshot, .loadLastIndex] s =
        some { s with fsm := .idle
                      captures := ⟨s.content, s.fsmIndex, s.processed⟩ :: s.captures } := by
    simp [run, PublishState.step, hidle]
  refine ⟨⟨s.content, r.fsmIndex, now⟩, _, ?_, hsteps, ?_, h.opened, ⟨name, hserving⟩, h.fsmIndex⟩
  · simp [StateMachine.snapshot, h.opened, hserving.lookup]
  · rw [h.fsmIndex]

/-- `UpdateFsmIndex` is the steps `load` and `compare` and, if the index is less than the
    argument, `store`. -/
theorem PublishState.Shows.updateFsmIndex (h : s.Shows cwd r fs) {index : UInt64}
    (hcalled : s.update = .called index.toNat) :
    ∃ actions s', run (PublishState.step json) (fun _ _ => True) actions s = some s' ∧
      s'.update = .done ∧ s'.Shows cwd (r.updateFsmIndex index) fs := by
  have hless : r.fsmIndex < index ↔ s.fsmIndex < index.toNat := by
    rw [UInt64.lt_iff_toNat_lt, h.fsmIndex]
  unfold StateMachine.updateFsmIndex
  by_cases hlt : r.fsmIndex < index
  · have hsteps : run (PublishState.step json) (fun _ _ => True)
        [.load, .compare, .store] s =
          some { s with fsmIndex := index.toNat, update := .done } := by
      simp [run, PublishState.step, hcalled, hless.mp hlt]
    rw [if_pos hlt]
    exact ⟨_, _, hsteps, rfl, h.opened, h.serving, rfl⟩
  · have hsteps : run (PublishState.step json) (fun _ _ => True) [.load, .compare] s =
        some { s with update := .done } := by
      simp [run, PublishState.step, hcalled, mt hless.mpr hlt]
    rw [if_neg hlt]
    exact ⟨_, _, hsteps, rfl, h.opened, h.serving, h.fsmIndex⟩

end Shows

/-! ### Schedules -/

/-- A new node. -/
def startingNode : PublishState := ⟨∅, [], 0, 0, .idle, 0, .waiting, []⟩

theorem startingNode_started : startingNode.Started goJson :=
  ⟨rfl, rfl, Nat.le_refl 0, by decide, Nat.le_refl 0, rfl, rfl, rfl⟩

/-- Raft hands over and counts an entry of its own and a command. -/
def countedSchedule : List PublishAction :=
  [.handOver none, .handOver (some soloEntry), .count 2, .readApplied, .load]

/-- Both are processed before the index is stored, and a snapshot is taken around that. -/
theorem published_index_sound_processed :
    ∃ s, run (PublishState.step goJson) (fun s a => storesInStep s a = true)
        (countedSchedule ++ [.skip, .startApply, .finishApply, .takeSnapshot, .compare, .store,
          .loadLastIndex]) startingNode = some s ∧
      s.fsmIndex = 2 ∧ s.captures.length = 1 ∧
      ∀ c ∈ s.captures, c.Complete goJson s.log := by
  obtain ⟨s, hrun, hindex, hcaptures⟩ : ∃ s, run (PublishState.step goJson)
      (fun s a => storesInStep s a = true)
      (countedSchedule ++ [.skip, .startApply, .finishApply, .takeSnapshot, .compare, .store,
        .loadLastIndex]) startingNode = some s ∧ s.fsmIndex = 2 ∧ s.captures.length = 1 :=
    ⟨_, rfl, rfl, rfl⟩
  exact ⟨s, hrun, hindex, hcaptures,
    (published_index_sound (reached_run (.start startingNode_started) hrun)).2⟩

/-- A node restarted on its store is not `Started`: before the replay a snapshot captures
    a command above its `lastIndex`, whatever `UpdateFsmIndex` does. -/
example : (run (PublishState.step goJson) (fun s a => storesInStep s a = true)
    [.handOver (some soloEntry), .takeSnapshot, .loadLastIndex]
    { startingNode with content := commandsApplied goJson [some soloEntry] }).any (fun s =>
      s.captures.any fun c => decide (c.lastIndex = 0 ∧
        c.snapshot = commandsApplied goJson s.log ∧
        c.snapshot ≠ commandsApplied goJson (s.log.take c.lastIndex))) = true := by
  decide +kernel

/-- Three entries are counted and none is processed when the index is stored: a snapshot
    claims all of them and holds none, and the next `Apply` takes the index back. -/
theorem published_index_unsound :
    ∃ s s', Reached (PublishState.step goJson) (fun _ _ => True)
        (PublishState.Started goJson) s ∧
      s.captures = [⟨∅, 3, 0⟩] ∧ ¬ IndexCapture.Complete goJson s.log ⟨∅, 3, 0⟩ ∧
      s.step goJson .startApply = some s' ∧ s.fsmIndex = 3 ∧ s'.fsmIndex = 2 := by
  obtain ⟨s, s', hrun, hlog, hcaptures, hnext, hindex, hindex'⟩ : ∃ s s',
      run (PublishState.step goJson) (fun _ _ => True)
        ([.handOver none, .handOver (some soloEntry), .handOver (some soloEntry), .count 3,
          .readApplied, .load, .compare, .store, .takeSnapshot, .loadLastIndex, .skip])
        startingNode = some s ∧
      s.log = [none, some soloEntry, some soloEntry] ∧ s.captures = [⟨∅, 3, 0⟩] ∧
      s.step goJson .startApply = some s' ∧ s.fsmIndex = 3 ∧ s'.fsmIndex = 2 :=
    ⟨_, _, rfl, rfl, rfl, rfl, rfl, rfl⟩
  refine ⟨s, s', reached_run (.start startingNode_started) hrun, hcaptures, ?_, hnext, hindex,
    hindex'⟩
  rw [hlog]
  intro hcomplete
  exact absurd ((hcomplete.commands 1 (by decide) rfl).mp (by decide)) (by decide)

end RaftExample
