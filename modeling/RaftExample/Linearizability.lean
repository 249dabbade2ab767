import Mathlib.Data.List.Basic
import Mathlib.Data.List.Nodup

/-!
# Linearizable histories

A sequential object, and histories of calls on it that overlap.  A linearization puts the
calls into one order in which the object gives the answers that were seen, and in which a
call that had returned before another one began comes first.  It can be kept up to date
while the history grows, with three rules: a call begins, a call is given its place, and a
call returns the answer of its place.

Operations that only look at the object may be placed anywhere as far as the others are
concerned.  `upTo n` is the part of an order that they see after the first `n` changes.
-/

namespace Linearizability

open scoped List

/-! ### Objects and histories -/

structure Object (State Op Ret : Type*) where
  init : State
  next : State → Op → State
  answer : State → Op → Ret

/-- What the callers see. -/
inductive Event (Id Op Ret : Type*) where
  | invoke (id : Id) (op : Op)
  | respond (id : Id) (ret : Ret)
deriving DecidableEq

section Definitions

variable {State Op Ret Id : Type*}

/-- The state after some calls, one after the other. -/
def Object.after (obj : Object State Op Ret) (s : State) (order : List (Id × Op)) : State :=
  order.foldl (fun s call => obj.next s call.2) s

/-- What the calls are answered. -/
def Object.answers (obj : Object State Op Ret) : State → List (Id × Op) → List (Id × Ret)
  | _, [] => []
  | s, call :: order => (call.1, obj.answer s call.2) :: obj.answers (obj.next s call.2) order

/-- The calls in an order that explains a history.  Calls that have not returned may take
    part. -/
structure Linearizes (obj : Object State Op Ret) (history : List (Event Id Op Ret))
    (order : List (Id × Op)) : Prop where
  once : (order.map Prod.fst).Nodup
  invoked : ∀ id op, (id, op) ∈ order → .invoke id op ∈ history
  answered : ∀ id ret, .respond id ret ∈ history → (id, ret) ∈ obj.answers obj.init order
  realTime : ∀ a ret b op, [.respond a ret, .invoke b op] <+ history →
    b ∈ order.map Prod.fst → [a, b] <+ order.map Prod.fst

def Linearizable (obj : Object State Op Ret) (history : List (Event Id Op Ret)) : Prop :=
  ∃ order, Linearizes obj history order

end Definitions

/-! ### The three rules -/

section Rules

variable {State Op Ret Id : Type*} {obj : Object State Op Ret} {history : List (Event Id Op Ret)}
  {order before behind : List (Id × Op)} {id : Id} {op : Op} {ret : Ret}

theorem Object.answers_append (s : State) (before behind : List (Id × Op)) :
    obj.answers s (before ++ behind) =
      obj.answers s before ++ obj.answers (obj.after s before) behind := by
  induction before generalizing s with
  | nil => rfl
  | cons call before ih =>
    rw [List.cons_append, answers, answers, ih, List.cons_append]
    rfl

theorem Object.map_fst_answers (s : State) (order : List (Id × Op)) :
    (obj.answers s order).map Prod.fst = order.map Prod.fst := by
  induction order generalizing s with
  | nil => rfl
  | cons call order ih => rw [answers, List.map_cons, ih, List.map_cons]

/-- The answer at a place of the order. -/
theorem Object.answer_mem (s : State) (before behind : List (Id × Op)) (id : Id) (op : Op) :
    (id, obj.answer (obj.after s before) op) ∈ obj.answers s (before ++ (id, op) :: behind) := by
  rw [answers_append, answers]
  exact List.mem_append_right _ List.mem_cons_self

/-- An event that comes before another one in a history that has grown. -/
theorem pair_sublist_append {α : Type*} {l more : List α} {a b : α} (h : [a, b] <+ l ++ more) :
    [a, b] <+ l ∨ b ∈ more := by
  obtain ⟨l₁, l₂, heq, hl₁, hl₂⟩ := List.sublist_append_iff.mp h
  rcases List.eq_nil_or_concat l₂ with rfl | ⟨init, last, rfl⟩
  · rw [List.append_nil] at heq
    exact .inl (heq ▸ hl₁)
  · have hsplit : [a] ++ [b] = (l₁ ++ init) ++ [last] := by simpa using heq
    obtain ⟨-, hlast⟩ := List.append_inj' hsplit rfl
    obtain rfl := List.singleton_inj.mp hlast
    exact .inr (hl₂.subset (by simp))

namespace Linearizes

theorem nil (obj : Object State Op Ret) :
    Linearizes obj ([] : List (Event Id Op Ret)) [] := by
  constructor <;> simp

/-- What has returned has its place. -/
theorem mem_of_respond (h : Linearizes obj history order) (hret : .respond id ret ∈ history) :
    id ∈ order.map Prod.fst := by
  rw [← obj.map_fst_answers obj.init]
  exact List.mem_map_of_mem (h.answered id ret hret)

/-- A call begins. -/
theorem invoke (h : Linearizes obj history order) (hfresh : id ∉ order.map Prod.fst) (op : Op) :
    Linearizes obj (history ++ [.invoke id op]) order where
  once := h.once
  invoked other op' hmem := List.mem_append_left _ (h.invoked other op' hmem)
  answered other ret hret := by
    rcases List.mem_append.mp hret with hold | hnew
    · exact h.answered other ret hold
    · simp at hnew
  realTime a ret b op' hpair hb := by
    rcases pair_sublist_append hpair with hold | hnew
    · exact h.realTime a ret b op' hold hb
    · obtain ⟨rfl, -⟩ := Event.invoke.inj (List.mem_singleton.mp hnew)
      exact absurd hb hfresh

/-- A call is given its place, behind everything that had returned when it began.  What
    is placed after it must not notice. -/
theorem place (h : Linearizes obj history (before ++ behind)) (hinvoked : .invoke id op ∈ history)
    (hfresh : id ∉ (before ++ behind).map Prod.fst)
    (hbefore : ∀ a ret op', [.respond a ret, .invoke id op'] <+ history → a ∈ before.map Prod.fst)
    (hsame : behind = [] ∨ obj.next (obj.after obj.init before) op = obj.after obj.init before) :
    Linearizes obj history (before ++ (id, op) :: behind) where
  once := by
    have honce := h.once
    rw [List.map_append] at honce hfresh
    rw [List.map_append, List.map_cons, List.nodup_middle]
    exact List.nodup_cons.mpr ⟨hfresh, honce⟩
  invoked other op' hmem := by
    rcases List.mem_append.mp hmem with hmem | hmem
    · exact h.invoked other op' (List.mem_append_left _ hmem)
    · rcases List.mem_cons.mp hmem with heq | hmem
      · obtain ⟨rfl, rfl⟩ := Prod.mk.inj heq
        exact hinvoked
      · exact h.invoked other op' (List.mem_append_right _ hmem)
  answered other ret hret := by
    have hold := h.answered other ret hret
    rw [Object.answers_append, List.mem_append] at hold ⊢
    refine hold.imp_right fun hbehind => ?_
    rcases hsame with rfl | hsame
    · simp [Object.answers] at hbehind
    · rw [Object.answers, hsame]
      exact List.mem_cons_of_mem _ hbehind
  realTime a ret b op' hpair hb := by
    rw [List.map_append, List.map_cons] at hb ⊢
    by_cases hid : b = id
    · subst hid
      have ha := List.singleton_sublist.mpr (hbefore a ret op' hpair)
      exact ha.append (List.singleton_sublist.mpr List.mem_cons_self)
    · have hb' : b ∈ (before ++ behind).map Prod.fst := by
        rw [List.map_append, List.mem_append]
        simpa [hid] using hb
      have hold := h.realTime a ret b op' hpair hb'
      rw [List.map_append] at hold
      exact hold.trans ((List.Sublist.refl _).append (List.sublist_cons_self _ _))

/-- A call is placed behind all others. -/
theorem place_last (h : Linearizes obj history order) (hinvoked : .invoke id op ∈ history)
    (hfresh : id ∉ order.map Prod.fst) : Linearizes obj history (order ++ [(id, op)]) := by
  apply place (by rwa [List.append_nil]) hinvoked (by rwa [List.append_nil]) ?_ (.inl rfl)
  intro a ret op' hpair
  exact h.mem_of_respond (hpair.subset List.mem_cons_self)

/-- A call returns. -/
theorem respond (h : Linearizes obj history order)
    (hanswer : (id, ret) ∈ obj.answers obj.init order) :
    Linearizes obj (history ++ [.respond id ret]) order where
  once := h.once
  invoked other op hmem := List.mem_append_left _ (h.invoked other op hmem)
  answered other ret' hret := by
    rcases List.mem_append.mp hret with hold | hnew
    · exact h.answered other ret' hold
    · obtain ⟨rfl, rfl⟩ := Event.respond.inj (List.mem_singleton.mp hnew)
      exact hanswer
  realTime a ret' b op hpair hb := by
    rcases pair_sublist_append hpair with hold | hnew
    · exact h.realTime a ret' b op hold hb
    · simp at hnew

end Linearizes

end Rules

/-! ### Changes and looks -/

section Cut

variable {α : Type*} {change : α → Bool} {n m : Nat} {l before behind : List α} {a look : α}

/-- All that comes before the change number `n`, counted from zero. -/
def upTo (change : α → Bool) : Nat → List α → List α
  | _, [] => []
  | 0, a :: l => if change a then [] else a :: upTo change 0 l
  | n + 1, a :: l => a :: upTo change (if change a then n else n + 1) l

theorem upTo_look (h : change look = false) (n : Nat) (l : List α) :
    upTo change n (look :: l) = look :: upTo change n l := by
  cases n <;> simp [upTo, h]

theorem upTo_change_zero (h : change a = true) (l : List α) : upTo change 0 (a :: l) = [] := by
  simp [upTo, h]

theorem upTo_change_succ (h : change a = true) (n : Nat) (l : List α) :
    upTo change (n + 1) (a :: l) = a :: upTo change n l := by
  simp [upTo, h]

theorem upTo_append_rest (change : α → Bool) (n : Nat) (l : List α) :
    ∃ rest, l = upTo change n l ++ rest := by
  induction l generalizing n with
  | nil => exact ⟨[], by cases n <;> rfl⟩
  | cons a l ih =>
    cases hchange : change a with
    | false =>
      obtain ⟨rest, hrest⟩ := ih n
      refine ⟨rest, ?_⟩
      rw [upTo_look hchange, List.cons_append, ← hrest]
    | true =>
      cases n with
      | zero => exact ⟨a :: l, by rw [upTo_change_zero hchange, List.nil_append]⟩
      | succ n =>
        obtain ⟨rest, hrest⟩ := ih n
        refine ⟨rest, ?_⟩
        rw [upTo_change_succ hchange, List.cons_append, ← hrest]

theorem filter_upTo (change : α → Bool) (n : Nat) (l : List α) :
    (upTo change n l).filter change = (l.filter change).take n := by
  induction l generalizing n with
  | nil => cases n <;> rfl
  | cons a l ih =>
    cases hchange : change a with
    | false => simp [upTo_look hchange, hchange, ih]
    | true =>
      cases n with
      | zero => simp [upTo_change_zero hchange]
      | succ n => simp [upTo_change_succ hchange, hchange, ih]

theorem mem_upTo_of_le (h : a ∈ upTo change n l) (hle : n ≤ m) : a ∈ upTo change m l := by
  induction l generalizing n m with
  | nil => cases n <;> simp [upTo] at h
  | cons b l ih =>
    cases hchange : change b with
    | false =>
      rw [upTo_look hchange, List.mem_cons] at h ⊢
      exact h.imp id fun h => ih h hle
    | true =>
      cases n with
      | zero => simp [upTo_change_zero hchange] at h
      | succ n =>
        obtain ⟨m, rfl⟩ : ∃ k, m = k + 1 := ⟨m - 1, by omega⟩
        rw [upTo_change_succ hchange, List.mem_cons] at h ⊢
        exact h.imp id fun h => ih h (by omega)

/-- A longer order is cut no earlier. -/
theorem mem_upTo_append (h : a ∈ upTo change n l) (more : List α) :
    a ∈ upTo change n (l ++ more) := by
  induction l generalizing n with
  | nil => cases n <;> simp [upTo] at h
  | cons b l ih =>
    rw [List.cons_append]
    cases hchange : change b with
    | false =>
      rw [upTo_look hchange, List.mem_cons] at h ⊢
      exact h.imp id ih
    | true =>
      cases n with
      | zero => simp [upTo_change_zero hchange] at h
      | succ n =>
        rw [upTo_change_succ hchange, List.mem_cons] at h ⊢
        exact h.imp id ih

/-- Nor is an order with another look in it. -/
theorem mem_upTo_insert (hlook : change look = false) (h : a ∈ upTo change n (before ++ behind)) :
    a ∈ upTo change n (before ++ look :: behind) := by
  induction before generalizing n with
  | nil =>
    rw [List.nil_append, upTo_look hlook]
    exact List.mem_cons_of_mem _ h
  | cons b before ih =>
    rw [List.cons_append] at h ⊢
    cases hchange : change b with
    | false =>
      rw [upTo_look hchange, List.mem_cons] at h ⊢
      exact h.imp id ih
    | true =>
      cases n with
      | zero => simp [upTo_change_zero hchange] at h
      | succ n =>
        rw [upTo_change_succ hchange, List.mem_cons] at h ⊢
        exact h.imp id ih

/-- A look with at most `n` changes before it is before the cut. -/
theorem look_mem_upTo (hlook : change look = false) (hcount : before.countP change ≤ n) :
    look ∈ upTo change n (before ++ look :: behind) := by
  induction before generalizing n with
  | nil =>
    rw [List.nil_append, upTo_look hlook]
    exact List.mem_cons_self
  | cons b before ih =>
    rw [List.cons_append]
    cases hchange : change b with
    | false =>
      rw [List.countP_cons_of_neg (by simp [hchange])] at hcount
      rw [upTo_look hchange]
      exact List.mem_cons_of_mem _ (ih hcount)
    | true =>
      rw [List.countP_cons_of_pos hchange] at hcount
      obtain ⟨n, rfl⟩ : ∃ k, n = k + 1 := ⟨n - 1, by omega⟩
      rw [upTo_change_succ hchange]
      exact List.mem_cons_of_mem _ (ih (by omega))

theorem countP_upTo_le (change : α → Bool) (n : Nat) (l : List α) :
    (upTo change n l).countP change ≤ n := by
  rw [List.countP_eq_length_filter, filter_upTo]
  exact List.length_take_le _ _

/-- The changes before the cut. -/
theorem change_mem_upTo {p : Nat} (h : (l.filter change)[p]? = some a) (hp : p < n) :
    a ∈ upTo change n l := by
  have hmem : a ∈ (upTo change n l).filter change := by
    rw [filter_upTo]
    exact List.mem_of_getElem? (by rw [List.getElem?_take_of_lt hp, h])
  exact (List.mem_filter.mp hmem).1

end Cut

/-- The looks in an order do not matter for the state. -/
theorem Object.after_filter {State Op Ret Id : Type*} {obj : Object State Op Ret}
    (change : Id × Op → Bool)
    (hlook : ∀ s call, change call = false → obj.next s call.2 = s) (s : State)
    (order : List (Id × Op)) : obj.after s (order.filter change) = obj.after s order := by
  induction order generalizing s with
  | nil => rfl
  | cons call order ih =>
    cases hchange : change call with
    | false =>
      rw [List.filter_cons_of_neg (by simp [hchange]), ih]
      simp only [after, List.foldl_cons, hlook s call hchange]
    | true =>
      rw [List.filter_cons_of_pos hchange]
      exact ih (obj.next s call.2)

end Linearizability
