import RaftExample.LinearizableReads

/-!
# What local reads guarantee

A `Get` without `Linearizable` reads the store of the server it is sent to, whoever leads
and however stale the ready flag is.  A client that stays with one server still has a
session: what it reads moves forward through the one committed log, and the writes that
server has acknowledged are in it.  This holds in every run of servers that stay up, with
any changes of leadership.  A restart, which replays the log into the store, and a restored
snapshot are not steps of the cluster; both can take a server back to an earlier state.
-/

namespace RaftExample

open Interleaving

/-- The states of all runs without restarts and restores. -/
def Cluster.Possible {ι : Type} [DecidableEq ι] (json : Json) : Cluster ι → Prop :=
  Reached (Cluster.step json) (fun _ _ => True) Cluster.Initial

/-- The states a cluster may go through after this one. -/
def Cluster.After {ι : Type} [DecidableEq ι] (json : Json) (s : Cluster ι) : Cluster ι → Prop :=
  Reached (Cluster.step json) (fun _ _ => True) (· = s)

section Sessions

variable {ι : Type} {json : Json} {s s' s'' : Cluster ι}

theorem Cluster.Later.trans (h : s.Later s') (h' : s'.Later s'') : s.Later s'' where
  committed := h.committed.trans h'.committed
  stint := Nat.le_trans h.stint h'.stint
  leaderOf u hu := (h'.leaderOf u (Nat.le_trans hu h.stint)).trans (h.leaderOf u hu)
  base u hu := (h'.base u (Nat.le_trans hu h.stint)).trans (h.base u hu)
  applied i := Nat.le_trans (h.applied i) (h'.applied i)
  acked p hp := h'.acked p (h.acked p hp)
  calls k call hcall := by
    obtain ⟨call', hcall', hkey, hbefore⟩ := h.calls k call hcall
    obtain ⟨call'', hcall'', hkey', hbefore'⟩ := h'.calls k call' hcall'
    exact ⟨call'', hcall'', hkey'.trans hkey, hbefore'.trans hbefore⟩

/-- What does not depend on the flag: the stores are states of the log, and the server
    that has acknowledged an entry has applied it. -/
structure Cluster.StoresOk (json : Json) (s : Cluster ι) : Prop where
  log : s.LogOk json
  acked : ∀ p ∈ s.acked, s.Acked p

/-- A local read, in terms of a log that has grown since. -/
theorem Cluster.StoresOk.read (h : s.StoresOk json) (hlater : s.Later s') (i : ι) (key : Bytes) :
    (s.servers i).read key = valueAt json key s'.log (s.servers i).applied := by
  obtain ⟨rest, hrest⟩ := hlater.log
  rw [Server.read, h.log.content i, lookup_replay_take, hrest, valueAt_append _ (h.log.applied i)]

/-- The server that led when an entry was committed has applied it when its `Add` has
    returned. -/
theorem Cluster.StoresOk.applied_of_acked (h : s.StoresOk json) {i : ι} {p : Nat}
    {entry : CommittedEntry} (hp : p ∈ s.acked) (hentry : s.committed[p]? = some entry)
    (hleader : s.leaderOf entry.stint = some i) : p < (s.servers i).applied := by
  obtain ⟨entry', j, hentry', -, hleader', happlied⟩ := h.acked p hp
  obtain rfl := Option.some.inj (hentry.symm.trans hentry')
  obtain rfl := Option.some.inj (hleader.symm.trans hleader')
  exact happlied

variable [DecidableEq ι] {action : ClusterAction ι}

theorem ClusterStep.storesOk (hstep : ClusterStep json s action s') (h : s.StoresOk json) :
    s'.StoresOk json := by
  have hlater := hstep.later
  have hold : ∀ p ∈ s.acked, s'.Acked p := fun p hp => (h.acked p hp).later hlater
  refine ⟨hstep.logOk h.log, ?_⟩
  cases hstep with
  | acknowledge hentry hleader happlied =>
    intro p hp
    rcases List.mem_cons.mp hp with rfl | hp
    · exact ⟨_, _, hentry, h.log.stints _ _ hentry, hleader, happlied⟩
    · exact hold p hp
  | _ => exact hold

theorem Cluster.Possible.storesOk (h : s.Possible json) : s.StoresOk json := by
  refine h.invariant ?_ fun s action s' hs _ hstep => (Cluster.step_spec hstep).storesOk hs
  intro s hinit
  have hok : s.Ok json := hinit.ok
  exact ⟨hok.log, hok.acked⟩

theorem Cluster.Possible.after (h : s.Possible json) (hafter : s.After json s') :
    s'.Possible json ∧ s.Later s' := by
  induction hafter with
  | start heq =>
    obtain rfl := heq
    exact ⟨h, .refl _⟩
  | step _ _ hstep ih =>
    exact ⟨ih.1.step trivial hstep, ih.2.trans (Cluster.step_spec hstep).later⟩

/-- As long as no server is restarted or restores a snapshot: local reads of a key, first
    on one server and later on another, are reads of two states of one log.  On the same
    server the later one is of a later state, or the same; and the state of a server
    includes every entry it has acknowledged before. -/
theorem local_reads_of_one_log (hpossible : s.Possible json) (hafter : s.After json s')
    (i j : ι) (key : Bytes) :
    ∃ n n', n ≤ s'.log.length ∧ n' ≤ s'.log.length ∧ (i = j → n ≤ n') ∧
      (s.servers i).read key = valueAt json key s'.log n ∧
      (s'.servers j).read key = valueAt json key s'.log n' ∧
      (∀ p ∈ s.acked, ∀ entry, s.committed[p]? = some entry →
        s.leaderOf entry.stint = some i → p < n) ∧
      ∀ p ∈ s.acked, ∀ entry, s.committed[p]? = some entry →
        s.leaderOf entry.stint = some j → p < n' := by
  obtain ⟨hpossible', hlater⟩ := hpossible.after hafter
  have hbefore := hpossible.storesOk
  have hnow := hpossible'.storesOk
  have hlength := hnow.log.applied
  refine ⟨(s.servers i).applied, (s'.servers j).applied,
    Nat.le_trans (hlater.applied i) (hlength i), hlength j, ?_, hbefore.read hlater i key,
    hnow.read (.refl s') j key, ?_, ?_⟩
  · rintro rfl
    exact hlater.applied i
  · intro p hp entry hentry hleader
    exact hbefore.applied_of_acked hp hentry hleader
  · intro p hp entry hentry hleader
    exact Nat.lt_of_lt_of_le (hbefore.applied_of_acked hp hentry hleader) (hlater.applied j)

end Sessions

/-- The first server acknowledges a write and loses its leadership; a local read there
    still has it. -/
theorem local_reads_of_one_log_deposed :
    ∃ s s', run (Cluster.step goJson) (fun _ _ => True) (firstStint ++ addOn 0) .new = some s ∧
      run (Cluster.step goJson) (fun _ _ => True) [.stepDown 0, .gain 1] s = some s' ∧
      ∃ n' ≤ s'.log.length, 0 < n' ∧
        (s'.servers 0).read [107] = valueAt goJson [107] s'.log n' := by
  obtain ⟨s, s', entry, hrun, hrun', hacked, hentry, hleader⟩ : ∃ s s' entry,
      run (Cluster.step goJson) (fun _ _ => True) (firstStint ++ addOn 0) .new = some s ∧
      run (Cluster.step goJson) (fun _ _ => True) [.stepDown 0, .gain 1] s = some s' ∧
      s.acked = [0] ∧ s.committed[0]? = some entry ∧ s.leaderOf entry.stint = some 0 :=
    ⟨_, _, _, rfl, rfl, rfl, rfl, rfl⟩
  obtain ⟨-, n', -, hn', -, -, hread, -, hown⟩ := local_reads_of_one_log
    (reached_run (.start rfl) hrun) (reached_run (.start rfl) hrun') 0 0 [107]
  exact ⟨s, s', hrun, hrun', n', hn', hown 0 (by simp [hacked]) entry hentry hleader, hread⟩

end RaftExample
