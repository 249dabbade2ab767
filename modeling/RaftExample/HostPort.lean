import Mathlib.Algebra.Group.Nat.Defs
import Mathlib.Data.List.Basic
import RaftExample.JsonText

/-!
# Addresses with ports

Splitting `host:port` at the last colon, with brackets around hosts that contain colons,
and reading decimal numbers with a sign.
-/

namespace HostPort

open JsonText

def colon : UInt8 := 58
def leftBracket : UInt8 := 91
def rightBracket : UInt8 := 93

@[simp] theorem colon_ne_leftBracket : colon ≠ leftBracket := by decide

@[simp] theorem leftBracket_ne_colon : leftBracket ≠ colon := by decide

@[simp] theorem rightBracket_ne_colon : rightBracket ≠ colon := by decide

@[simp] theorem rightBracket_ne_leftBracket : rightBracket ≠ leftBracket := by decide

@[simp] theorem leftBracket_ne_rightBracket : leftBracket ≠ rightBracket := by decide

/-! ### Positions of a byte -/

def lastIndex (c : UInt8) (s : List UInt8) : Option Nat :=
  (s.reverse.idxOf? c).map fun i => s.length - 1 - i

section Positions

variable {c : UInt8} {s before after : List UInt8} {i : Nat}

theorem idxOf?_append (hbefore : c ∉ before) (after : List UInt8) :
    (before ++ c :: after).idxOf? c = some before.length := by
  rw [List.idxOf?_eq_some_iff]
  refine ⟨by simp, by simp, ?_⟩
  intro j hj
  rw [List.getElem_append_left hj]
  intro heq
  exact hbefore (by simpa [heq] using List.getElem_mem hj)

theorem exists_of_idxOf? (h : s.idxOf? c = some i) :
    ∃ before after, s = before ++ c :: after ∧ c ∉ before ∧ before.length = i := by
  obtain ⟨hi, hc, hfirst⟩ := List.idxOf?_eq_some_iff.mp h
  refine ⟨s.take i, s.drop (i + 1), ?_, ?_, by simp; omega⟩
  · rw [← hc, ← List.drop_eq_getElem_cons hi, List.take_append_drop]
  · intro hmem
    obtain ⟨j, hj, heq⟩ := List.mem_take_iff_getElem.mp hmem
    exact hfirst j (by omega) heq

theorem lastIndex_append (hafter : c ∉ after) (before : List UInt8) :
    lastIndex c (before ++ c :: after) = some before.length := by
  have hreverse : (before ++ c :: after).reverse = after.reverse ++ c :: before.reverse := by simp
  rw [lastIndex, hreverse, idxOf?_append (by simpa using hafter)]
  simp

theorem exists_of_lastIndex (h : lastIndex c s = some i) :
    ∃ before after, s = before ++ c :: after ∧ c ∉ after ∧ before.length = i := by
  obtain ⟨j, hj, rfl⟩ := Option.map_eq_some_iff.mp h
  obtain ⟨before, after, hs, hbefore, rfl⟩ := exists_of_idxOf? hj
  refine ⟨after.reverse, before.reverse, ?_, by simpa using hbefore, ?_⟩
  · rw [← List.reverse_reverse s, hs]
    simp
  · have hlength := congrArg List.length hs
    simp at hlength ⊢
    omega

end Positions

/-! ### Host and port -/

inductive AddrErr where
  | missingPort
  | tooManyColons
  | missingRightBracket
  | unexpectedLeftBracket
  | unexpectedRightBracket
deriving DecidableEq, Repr

/-- The last checks, from the positions before which there can be no left bracket and no
    right bracket. -/
def checkBrackets (hostport : List UInt8) (j k : Nat) (host port : List UInt8) :
    Except AddrErr (List UInt8 × List UInt8) :=
  if leftBracket ∈ hostport.drop j then .error .unexpectedLeftBracket
  else if rightBracket ∈ hostport.drop k then .error .unexpectedRightBracket
  else .ok (host, port)

/-- The port starts after the last colon; a bracketed host ends right before it. -/
def splitHostPort (hostport : List UInt8) : Except AddrErr (List UInt8 × List UInt8) :=
  match lastIndex colon hostport with
  | none => .error .missingPort
  | some i =>
    if hostport.head? = some leftBracket then
      match hostport.idxOf? rightBracket with
      | none => .error .missingRightBracket
      | some stop =>
        if stop + 1 = hostport.length then .error .missingPort
        else if stop + 1 = i then
          checkBrackets hostport 1 (stop + 1) ((hostport.take stop).drop 1) (hostport.drop (i + 1))
        else if hostport[stop + 1]? = some colon then .error .tooManyColons
        else .error .missingPort
    else if colon ∈ hostport.take i then .error .tooManyColons
    else checkBrackets hostport 0 0 (hostport.take i) (hostport.drop (i + 1))

/-- Without the characters that structure an address. -/
def Plain (s : List UInt8) : Prop :=
  colon ∉ s ∧ leftBracket ∉ s ∧ rightBracket ∉ s

/-- The two ways to write an address. -/
inductive Address (host port : List UInt8) : List UInt8 → Prop
  | bare (hhost : Plain host) : Address host port (host ++ colon :: port)
  | bracketed (hleft : leftBracket ∉ host) (hright : rightBracket ∉ host) :
      Address host port (leftBracket :: (host ++ rightBracket :: colon :: port))

section Split

variable {hostport host port host' port' : List UInt8}

theorem checkBrackets_ok {j k : Nat} :
    checkBrackets hostport j k host port = .ok (host', port') ↔
      leftBracket ∉ hostport.drop j ∧ rightBracket ∉ hostport.drop k ∧ host = host' ∧
        port = port' := by
  unfold checkBrackets
  split
  · rename_i hleft
    simp [hleft]
  · rename_i hleft
    split
    · rename_i hright
      simp [hright]
    · rename_i hright
      simp [hleft, hright]

theorem splitHostPort_address (h : Address host port hostport) (hport : Plain port) :
    splitHostPort hostport = .ok (host, port) := by
  obtain ⟨hcolon, hleft, hright⟩ := hport
  cases h with
  | bare hhost =>
    obtain ⟨hhostColon, hhostLeft, hhostRight⟩ := hhost
    have hhead : (host ++ colon :: port).head? ≠ some leftBracket := by
      cases host with
      | nil => simp
      | cons c host =>
        intro heq
        simp_all
    rw [splitHostPort, lastIndex_append hcolon]
    simp only [hhead, if_false]
    rw [if_neg (by simpa using hhostColon), checkBrackets_ok]
    simp [hhostLeft, hhostRight, hleft, hright]
  | bracketed hhostLeft hhostRight =>
    have hlast : lastIndex colon (leftBracket :: (host ++ rightBracket :: colon :: port)) =
        some (host.length + 2) := by
      have hsplit := lastIndex_append hcolon (leftBracket :: host ++ [rightBracket])
      simpa using hsplit
    have hfirst : (leftBracket :: (host ++ rightBracket :: colon :: port)).idxOf? rightBracket =
        some (host.length + 1) :=
      idxOf?_append (show rightBracket ∉ leftBracket :: host by simpa using hhostRight)
        (colon :: port)
    rw [splitHostPort, hlast]
    simp only [hfirst, List.head?_cons, if_true]
    rw [if_neg (by simp), checkBrackets_ok]
    simp [hhostLeft, hleft, hright]

theorem address_of_splitHostPort (h : splitHostPort hostport = .ok (host, port)) :
    Address host port hostport ∧ Plain port := by
  unfold splitHostPort at h
  split at h
  · simp at h
  · rename_i i hi
    obtain ⟨before, after, rfl, hcolon, rfl⟩ := exists_of_lastIndex hi
    split at h
    · rename_i hhead
      split at h
      · simp at h
      · rename_i stop hstop
        obtain ⟨inside, rest, heq, hright, rfl⟩ := exists_of_idxOf? hstop
        split at h
        · simp at h
        split at h
        · -- the right bracket stands right before the last colon
          rename_i hlength
          have hsplit : before ++ colon :: after = (inside ++ [rightBracket]) ++ rest := by
            rw [heq]
            simp
          obtain ⟨rfl, rfl⟩ := List.append_inj hsplit (by simpa using hlength.symm)
          cases inside with
          | nil => simp at hhead
          | cons c inside =>
            obtain rfl : c = leftBracket := by simpa using hhead
            obtain ⟨hnoLeft, hnoRight, hhost, hport⟩ := checkBrackets_ok.mp h
            obtain rfl : inside = host := by simpa using hhost
            obtain rfl : after = port := by simpa using hport
            simp only [List.cons_append, List.append_assoc, List.nil_append, List.drop_succ_cons,
              List.drop_zero, List.mem_append, List.mem_cons, not_or] at hnoLeft
            have hnoRight' : rightBracket ∉ colon :: after := by simpa using hnoRight
            simp only [List.mem_cons, not_or] at hright hnoRight'
            rw [List.append_assoc, List.cons_append]
            exact ⟨.bracketed hnoLeft.1 hright.2, hcolon, hnoLeft.2.2.2, hnoRight'.2⟩
        · split at h <;> simp at h
    · split at h
      · simp at h
      · rename_i hhostColon
        obtain ⟨hnoLeft, hnoRight, hhost, hport⟩ := checkBrackets_ok.mp h
        obtain rfl : before = host := by simpa using hhost
        obtain rfl : after = port := by simpa using hport
        simp only [List.drop_zero, List.mem_append, List.mem_cons, not_or] at hnoLeft hnoRight
        rw [List.take_left] at hhostColon
        exact ⟨.bare ⟨hhostColon, hnoLeft.1, hnoRight.1⟩, hcolon, hnoLeft.2.2, hnoRight.2.2⟩

end Split

/-! ### Decimal numbers -/

inductive NumErr where
  | invalid
  | range
deriving DecidableEq, Repr

def signed (negative : Bool) (n : Nat) : Int := if negative then -n else n

/-- Digits after a number `n`.  They are read one by one: what comes first decides, a
    character that is none or a digit that takes the number beyond 64 bits. -/
def parseUint : Nat → List UInt8 → Except NumErr Nat
  | n, [] => .ok n
  | n, c :: digits =>
      if isDigit c = false then .error .invalid
      else if 2 ^ 64 ≤ n * 10 + (c.toNat - 48) then .error .range
      else parseUint (n * 10 + (c.toNat - 48)) digits

/-- A number of 64 bits from its digits. -/
def ofDigits (negative : Bool) (digits : List UInt8) : Except NumErr Int :=
  if digits = [] then .error .invalid
  else
    match parseUint 0 digits with
    | .error e => .error e
    | .ok n =>
      if -2 ^ 63 ≤ signed negative n ∧ signed negative n < 2 ^ 63 then .ok (signed negative n)
      else .error .range

def atoi : List UInt8 → Except NumErr Int
  | [] => .error .invalid
  | c :: s =>
      if c = 45 then ofDigits true s
      else if c = 43 then ofDigits false s
      else ofDigits false (c :: s)

/-- Digits, with or without a sign. -/
inductive Numeral : List UInt8 → Int → Prop
  | unsigned {digits : List UInt8} (hne : digits ≠ []) (hdigits : digits.all isDigit = true) :
      Numeral digits (natOf digits)
  | plus {digits : List UInt8} (hne : digits ≠ []) (hdigits : digits.all isDigit = true) :
      Numeral (43 :: digits) (natOf digits)
  | minus {digits : List UInt8} (hne : digits ≠ []) (hdigits : digits.all isDigit = true) :
      Numeral (45 :: digits) (-natOf digits)

section Numbers

variable {digits text : List UInt8} {negative : Bool} {value : Int}

/-- A number does not get smaller as digits are added. -/
theorem le_foldl_digits (digits : List UInt8) (n : Nat) :
    n ≤ digits.foldl (fun n c => n * 10 + (c.toNat - 48)) n := by
  induction digits generalizing n with
  | nil => exact Nat.le_refl n
  | cons c digits ih =>
    calc n ≤ n * 10 + (c.toNat - 48) := by omega
      _ ≤ _ := ih _

theorem parseUint_ok {n m : Nat} (hn : n < 2 ^ 64) :
    parseUint n digits = .ok m ↔ digits.all isDigit = true ∧
      digits.foldl (fun n c => n * 10 + (c.toNat - 48)) n = m ∧ m < 2 ^ 64 := by
  induction digits generalizing n with
  | nil =>
    simp only [parseUint, Except.ok.injEq, List.all_nil, List.foldl_nil, true_and]
    constructor
    · rintro rfl
      exact ⟨rfl, hn⟩
    · exact fun h => h.1
  | cons c digits ih =>
    rw [parseUint, List.all_cons, List.foldl_cons]
    split
    · rename_i hc
      simp [hc]
    · rename_i hc
      rw [Bool.not_eq_false] at hc
      split
      · rename_i hlarge
        have hgrows := le_foldl_digits digits (n * 10 + (c.toNat - 48))
        constructor
        · intro h
          simp at h
        · rintro ⟨-, rfl, hm⟩
          omega
      · rename_i hsmall
        rw [ih (by omega), hc, Bool.true_and]

/-- The range of the signed number is within that of the unsigned one. -/
theorem ofDigits_ok :
    ofDigits negative digits = .ok value ↔ digits ≠ [] ∧ digits.all isDigit = true ∧
      value = signed negative (natOf digits) ∧ -2 ^ 63 ≤ value ∧ value < 2 ^ 63 := by
  unfold ofDigits
  by_cases hnil : digits = []
  · simp [hnil]
  · rw [if_neg hnil]
    constructor
    · intro h
      split at h
      · simp at h
      · rename_i n hparse
        obtain ⟨hdigits, hn, -⟩ := (parseUint_ok (by decide)).mp hparse
        split at h
        · rename_i hrange
          obtain rfl := Except.ok.inj h
          exact ⟨hnil, hdigits, by rw [natOf, hn], hrange⟩
        · simp at h
    · rintro ⟨-, hdigits, rfl, hlow, hhigh⟩
      have hsmall : natOf digits < 2 ^ 64 := by
        cases negative with
        | false =>
          simp only [signed, Bool.false_eq_true, if_false] at hhigh
          omega
        | true =>
          simp only [signed, if_true] at hlow
          omega
      rw [(parseUint_ok (by decide)).mpr ⟨hdigits, rfl, hsmall⟩]
      exact if_pos ⟨hlow, hhigh⟩

/-- Twenty nines are out of range even before a letter, nineteen are a bad number with it. -/
example : ofDigits false (List.replicate 20 57 ++ [120]) = .error .range ∧
    ofDigits false (List.replicate 19 57 ++ [120]) = .error .invalid := by decide +kernel

/-- A sign is not a digit. -/
theorem head_of_digits {c : UInt8} (h : (c :: digits).all isDigit = true) : c ≠ 45 ∧ c ≠ 43 := by
  have hc : isDigit c = true := List.all_eq_true.mp h c (by simp)
  constructor
  · rintro rfl
    simp [isDigit] at hc
  · rintro rfl
    simp [isDigit] at hc

theorem atoi_ok : atoi text = .ok value ↔ Numeral text value ∧ -2 ^ 63 ≤ value ∧ value < 2 ^ 63 := by
  constructor
  · intro h
    cases text with
    | nil => simp [atoi] at h
    | cons c s =>
      rw [atoi] at h
      split at h
      · rename_i hc
        obtain ⟨hne, hdigits, rfl, hrange⟩ := ofDigits_ok.mp h
        exact ⟨hc ▸ .minus hne hdigits, hrange⟩
      · split at h
        · rename_i hc
          obtain ⟨hne, hdigits, rfl, hrange⟩ := ofDigits_ok.mp h
          exact ⟨hc ▸ .plus hne hdigits, hrange⟩
        · obtain ⟨hne, hdigits, rfl, hrange⟩ := ofDigits_ok.mp h
          exact ⟨.unsigned hne hdigits, hrange⟩
  · rintro ⟨hnumeral, hrange⟩
    cases hnumeral with
    | minus hne hdigits =>
      rw [atoi, if_pos rfl, ofDigits_ok]
      exact ⟨hne, hdigits, rfl, hrange⟩
    | plus hne hdigits =>
      rw [atoi, if_neg (by decide), if_pos rfl, ofDigits_ok]
      exact ⟨hne, hdigits, rfl, hrange⟩
    | unsigned hne hdigits =>
      cases text with
      | nil => exact absurd rfl hne
      | cons c s =>
        obtain ⟨hminus, hplus⟩ := head_of_digits hdigits
        rw [atoi, if_neg hminus, if_neg hplus, ofDigits_ok]
        exact ⟨hne, hdigits, rfl, hrange⟩

theorem plain_of_digits (h : digits.all isDigit = true) : Plain digits := by
  have hdigit : ∀ c ∈ digits, isDigit c = true := List.all_eq_true.mp h
  refine ⟨fun hc => ?_, fun hc => ?_, fun hc => ?_⟩
  · exact absurd (hdigit _ hc) (by decide)
  · exact absurd (hdigit _ hc) (by decide)
  · exact absurd (hdigit _ hc) (by decide)

theorem Plain.cons {c : UInt8} (hcolon : colon ≠ c) (hleft : leftBracket ≠ c)
    (hright : rightBracket ≠ c) (h : Plain text) : Plain (c :: text) := by
  obtain ⟨hcolons, hlefts, hrights⟩ := h
  simp only [Plain, List.mem_cons, not_or]
  exact ⟨⟨hcolon, hcolons⟩, ⟨hleft, hlefts⟩, hright, hrights⟩

theorem Numeral.plain (h : Numeral text value) : Plain text := by
  cases h with
  | unsigned hne hdigits => exact plain_of_digits hdigits
  | plus hne hdigits =>
    exact (plain_of_digits hdigits).cons (by decide) (by decide) (by decide)
  | minus hne hdigits =>
    exact (plain_of_digits hdigits).cons (by decide) (by decide) (by decide)

end Numbers

end HostPort
