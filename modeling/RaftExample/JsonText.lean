import Mathlib.Algebra.Ring.Int.Defs
import RaftExample.Base64
import RaftExample.JsonString

/-!
# JSON documents and Go structs

A reader for JSON texts as `encoding/json` accepts them, and the two directions between a
text and a struct: `printObject` writes an object member by member, `unmarshal` stores the
members of an object into the fields with their names.  The reader takes any order of the
members, repeated and unknown ones, and names that differ in case.  What was printed is
read back member by member.
-/

namespace JsonText

/-! ### Numbers -/

def isDigit (c : UInt8) : Bool := decide (48 ≤ c ∧ c ≤ 57)

/-- A run of digits, and what follows it. -/
def scanDigits (s : List UInt8) : List UInt8 × List UInt8 :=
  (s.takeWhile isDigit, s.dropWhile isDigit)

/-- The digits before the point: no zero in front of others. -/
def scanInt : List UInt8 → Option (List UInt8 × List UInt8)
  | [] => none
  | c :: rest =>
      if c = 48 then some ([48], rest)
      else if isDigit c then some (scanDigits (c :: rest))
      else none

def scanFraction : List UInt8 → Option (List UInt8 × List UInt8)
  | [] => some ([], [])
  | c :: rest =>
      if c = 46 then
        match scanDigits rest with
        | ([], _) => none
        | (digits, rest) => some (46 :: digits, rest)
      else some ([], c :: rest)

/-- An exponent may have a sign. -/
def scanSign : List UInt8 → List UInt8 × List UInt8
  | [] => ([], [])
  | c :: rest => if c = 43 ∨ c = 45 then ([c], rest) else ([], c :: rest)

def scanExponent : List UInt8 → Option (List UInt8 × List UInt8)
  | [] => some ([], [])
  | c :: rest =>
      if c = 101 ∨ c = 69 then
        let (sign, rest) := scanSign rest
        match scanDigits rest with
        | ([], _) => none
        | (digits, rest) => some (c :: (sign ++ digits), rest)
      else some ([], c :: rest)

/-- The number without its sign. -/
def scanUnsigned (s : List UInt8) : Option (List UInt8 × List UInt8) :=
  match scanInt s with
  | none => none
  | some (int, s) =>
    match scanFraction s with
    | none => none
    | some (fraction, s) =>
      match scanExponent s with
      | none => none
      | some (exponent, s) => some (int ++ fraction ++ exponent, s)

/-- A number literal, as it is written. -/
def scanNumber : List UInt8 → Option (List UInt8 × List UInt8)
  | [] => none
  | c :: rest =>
      if c = 45 then (scanUnsigned rest).map fun (literal, rest) => (45 :: literal, rest)
      else scanUnsigned (c :: rest)

/-! ### Values -/

inductive Value where
  | null
  | bool (b : Bool)
  | number (literal : List UInt8)
  | string (s : List UInt8)
  | array (elements : List Value)
  | object (members : List (List UInt8 × Value))

/-- Spaces, tabs and line ends. -/
def isSpace (c : UInt8) : Bool := decide (c = 32 ∨ c = 9 ∨ c = 10 ∨ c = 13)

def skipSpace (s : List UInt8) : List UInt8 := s.dropWhile isSpace

/-- The three literals that are words. -/
def scanWord (s : List UInt8) : Option (Value × List UInt8) :=
  if s.take 4 = [110, 117, 108, 108] then some (.null, s.drop 4)
  else if s.take 4 = [116, 114, 117, 101] then some (.bool true, s.drop 4)
  else if s.take 5 = [102, 97, 108, 115, 101] then some (.bool false, s.drop 5)
  else none

mutual

/-- A value and what follows it.  `depth` more arrays and objects may be opened; `fuel`
    bounds the recursion, and a text has fewer values than bytes. -/
def parseValue : (fuel depth : Nat) → List UInt8 → Option (Value × List UInt8)
  | 0, _, _ => none
  | fuel + 1, depth, s =>
      match skipSpace s with
      | [] => none
      | c :: rest =>
          if c = 34 then (unquote 0 0 rest).map fun (s, rest) => (.string s, rest)
          else if c = 123 then
            match depth with
            | 0 => none
            | depth + 1 =>
                if (skipSpace rest).head? = some 125 then some (.object [], (skipSpace rest).tail)
                else (parseMembers fuel depth rest).map fun (members, rest) => (.object members, rest)
          else if c = 91 then
            match depth with
            | 0 => none
            | depth + 1 =>
                if (skipSpace rest).head? = some 93 then some (.array [], (skipSpace rest).tail)
                else (parseElements fuel depth rest).map fun (elements, rest) => (.array elements, rest)
          else match scanWord (c :: rest) with
            | some read => some read
            | none => (scanNumber (c :: rest)).map fun (literal, rest) => (.number literal, rest)

/-- The members of an object, up to and with its closing brace. -/
def parseMembers : (fuel depth : Nat) → List UInt8 →
    Option (List (List UInt8 × Value) × List UInt8)
  | 0, _, _ => none
  | fuel + 1, depth, s =>
      match skipSpace s with
      | [] => none
      | c :: rest =>
          if c = 34 then
            match unquote 0 0 rest with
            | none => none
            | some (key, rest) =>
              match skipSpace rest with
              | [] => none
              | colon :: rest =>
                  if colon = 58 then
                    match parseValue fuel depth rest with
                    | none => none
                    | some (value, rest) =>
                      match skipSpace rest with
                      | [] => none
                      | next :: rest =>
                          if next = 44 then
                            (parseMembers fuel depth rest).map fun (members, rest) =>
                              ((key, value) :: members, rest)
                          else if next = 125 then some ([(key, value)], rest)
                          else none
                  else none
          else none

/-- The elements of an array, up to and with its closing bracket. -/
def parseElements : (fuel depth : Nat) → List UInt8 → Option (List Value × List UInt8)
  | 0, _, _ => none
  | fuel + 1, depth, s =>
      match parseValue fuel depth s with
      | none => none
      | some (value, rest) =>
        match skipSpace rest with
        | [] => none
        | next :: rest =>
            if next = 44 then
              (parseElements fuel depth rest).map fun (elements, rest) => (value :: elements, rest)
            else if next = 93 then some ([value], rest)
            else none

end

def maxNestingDepth : Nat := 10000

/-- A whole text: one value, with space around it. -/
def parse (s : List UInt8) : Option Value :=
  match parseValue (s.length + 1) maxNestingDepth s with
  | none => none
  | some (value, rest) => if skipSpace rest = [] then some value else none

/-! ### Structs -/

/-- A field of a struct: its name, and how a value is stored into it. -/
structure StructField (σ : Type) where
  name : List UInt8
  store : Value → σ → Option σ

/-- Names are compared in upper case.  Outside ASCII only the Kelvin sign and the long s
    have an upper case that is ASCII. -/
def foldName : List UInt8 → List UInt8
  | [] => []
  | 0xE2 :: 0x84 :: 0xAA :: rest => 75 :: foldName rest
  | 0xC5 :: 0xBF :: rest => 83 :: foldName rest
  | c :: rest => (if 97 ≤ c ∧ c ≤ 122 then c - 32 else c) :: foldName rest

variable {σ : Type}

/-- The field a member belongs to: the one of its name, or one whose name differs in case. -/
def findField (fields : List (StructField σ)) (key : List UInt8) : Option (StructField σ) :=
  match fields.find? fun field => field.name = key with
  | some field => some field
  | none => fields.find? fun field => foldName field.name = foldName key

/-- Later members overwrite earlier ones, and members without a field are skipped. -/
def storeMembers (fields : List (StructField σ)) : List (List UInt8 × Value) → σ → Option σ
  | [], s => some s
  | (key, value) :: members, s =>
      match findField fields key with
      | none => storeMembers fields members s
      | some field =>
        match field.store value s with
        | none => none
        | some s => storeMembers fields members s

/-- The document `null` stores nothing. -/
def unmarshal (fields : List (StructField σ)) (zero : σ) (text : List UInt8) : Option σ :=
  match parse text with
  | some (.object members) => storeMembers fields members zero
  | some .null => some zero
  | _ => none

def natOf (digits : List UInt8) : Nat := digits.foldl (fun n c => n * 10 + (c.toNat - 48)) 0

/-- Digits only, and a value of 64 bits. -/
def int64? (digits : List UInt8) (value : Int) : Option Int :=
  if digits.all isDigit ∧ -2 ^ 63 ≤ value ∧ value < 2 ^ 63 then some value else none

/-- A literal without fraction and exponent. -/
def parseInt (literal : List UInt8) : Option Int :=
  if literal.head? = some 45 then int64? literal.tail (-(natOf literal.tail : Int))
  else int64? literal (natOf literal)

/-- An `int` field. -/
def intField (name : List UInt8) (set : Int → σ → σ) : StructField σ where
  name := name
  store value s :=
    match value with
    | .null => some s
    | .number literal => (parseInt literal).map fun n => set n s
    | _ => none

/-- A byte slice, and what its array holds behind it.  Behind that, and behind the end of
    an array that has to grow, are zeros. -/
structure Slice where
  bytes : List UInt8
  behind : List UInt8

def Slice.array (slice : Slice) : List UInt8 := slice.bytes ++ slice.behind

/-- A slice of an array of its own. -/
def Slice.fresh (bytes : List UInt8) : Slice := ⟨bytes, []⟩

/-- The elements of an array, as bytes; `null` leaves what was there. -/
def storeElements : List UInt8 → List Value → Option (List UInt8)
  | _, [] => some []
  | old, .null :: elements => (storeElements old.tail elements).map fun bytes => old.headD 0 :: bytes
  | old, .number literal :: elements =>
      if literal.all isDigit ∧ natOf literal < 256 then
        (storeElements old.tail elements).map fun bytes => UInt8.ofNat (natOf literal) :: bytes
      else none
  | _, _ => none

/-- The elements go into the array that is there, also where it is longer than the slice;
    only no elements at all make a new one. -/
def storeArray (old : Slice) (elements : List Value) : Option Slice :=
  if elements.isEmpty then some (.fresh [])
  else (storeElements old.array elements).map fun bytes =>
    ⟨bytes, old.array.drop elements.length⟩

/-- A `[]byte` field: base64, or the bytes one by one. -/
def bytesField (name : List UInt8) (get : σ → Slice) (set : Slice → σ → σ) : StructField σ where
  name := name
  store value s :=
    match value with
    | .null => some (set (.fresh []) s)
    | .string text => (Base64.decode text).map fun bytes => set (.fresh bytes) s
    | .array elements => (storeArray (get s) elements).map fun slice => set slice s
    | _ => none

def stringField (name : List UInt8) (set : List UInt8 → σ → σ) : StructField σ where
  name := name
  store value s :=
    match value with
    | .null => some s
    | .string text => some (set text s)
    | _ => none

/-! ### Printing -/

/-- Members with the texts of their values, separated by commas. -/
def printMembers : List (List UInt8 × List UInt8) → List UInt8
  | [] => []
  | [(name, text)] => quote name ++ 58 :: text
  | (name, text) :: member :: members =>
      quote name ++ 58 :: (text ++ 44 :: printMembers (member :: members))

def printObject (members : List (List UInt8 × List UInt8)) : List UInt8 :=
  123 :: (printMembers members ++ [125])

/-- A `[]byte` as a string literal. -/
def printBytes (bytes : List UInt8) : List UInt8 := 34 :: (Base64.encode bytes ++ [34])

/-- The text of a value inside an object, whatever follows. -/
def Reads (text : List UInt8) (value : Value) : Prop :=
  ∀ fuel depth next rest, next = 44 ∨ next = 125 →
    parseValue (fuel + 1) depth (text ++ next :: rest) = some (value, next :: rest)

theorem skipSpace_cons {c : UInt8} (h : isSpace c = false) (s : List UInt8) :
    skipSpace (c :: s) = c :: s := by
  rw [skipSpace, List.dropWhile_cons_of_neg (by simp [h])]

/-- After an opening quote a value is the literal. -/
theorem parseValue_string {s text rest : List UInt8} (fuel depth : Nat)
    (h : unquote 0 0 text = some (s, rest)) :
    parseValue (fuel + 1) depth (34 :: text) = some (.string s, rest) := by
  rw [parseValue, skipSpace_cons (by decide)]
  simp [h]

theorem reads_quote (s : List UInt8) : Reads (quote s) (.string (toValid s)) := by
  intro fuel depth next rest _
  have hread := unquote_quoteBody s (next :: rest)
  simp only [quote, List.cons_append, List.append_assoc, List.nil_append]
  exact parseValue_string fuel depth hread

/-- A text of printable ASCII characters other than quotes and backslashes is its own
    literal. -/
theorem unquote_plain (s : List UInt8)
    (h : ∀ c ∈ s, 32 ≤ c.toNat ∧ c.toNat < 128 ∧ c ≠ 34 ∧ c ≠ 92) (rest : List UInt8) :
    unquote 0 0 (s ++ 34 :: rest) = some (s, rest) := by
  induction s with
  | nil => rfl
  | cons c s ih =>
    obtain ⟨hlow, hhigh, hquote, hbackslash⟩ := h c (by simp)
    have hcontrol : ¬ c < 32 := fun hlt => Nat.not_lt.mpr hlow hlt
    rw [List.cons_append, unquote, if_neg hquote, if_neg hbackslash, if_neg hcontrol,
      runeTail_ascii (show c < 0x80 from hhigh)]
    simp only
    rw [ih fun c' hc' => h c' (by simp [hc']), prepend_some, List.singleton_append]

theorem reads_printBytes (bytes : List UInt8) :
    Reads (printBytes bytes) (.string (Base64.encode bytes)) := by
  intro fuel depth next rest _
  have hread := unquote_plain (Base64.encode bytes) (fun _ => Base64.mem_encode) (next :: rest)
  simp only [printBytes, List.cons_append, List.append_assoc, List.nil_append]
  exact parseValue_string fuel depth hread

theorem scanDigits_append {digits : List UInt8} (hdigits : digits.all isDigit = true)
    {next : UInt8} (hnext : isDigit next = false) (rest : List UInt8) :
    scanDigits (digits ++ next :: rest) = (digits, next :: rest) := by
  have hall : ∀ c ∈ digits, isDigit c = true := List.all_eq_true.mp hdigits
  simp [scanDigits, List.takeWhile_append_of_pos hall, List.dropWhile_append_of_pos hall, hnext]

/-- An integer stops at the comma or the brace after it. -/
theorem scanUnsigned_digits {digits : List UInt8} (hdigits : digits.all isDigit = true)
    (hne : digits ≠ []) (hzero : digits.head? = some 48 → digits = [48]) {next : UInt8}
    (hnext : next = 44 ∨ next = 125) (rest : List UInt8) :
    scanUnsigned (digits ++ next :: rest) = some (digits, next :: rest) := by
  have hstop : isDigit next = false ∧ next ≠ 46 ∧ ¬ (next = 101 ∨ next = 69) := by
    rcases hnext with rfl | rfl <;> decide
  have hint : scanInt (digits ++ next :: rest) = some (digits, next :: rest) := by
    cases digits with
    | nil => exact absurd rfl hne
    | cons c digits =>
      rw [List.cons_append, scanInt]
      by_cases hc : c = 48
      · have hone : c :: digits = [48] := hzero (by simp [hc])
        obtain ⟨rfl, rfl⟩ : c = 48 ∧ digits = [] := by simpa using hone
        rw [if_pos rfl, List.nil_append]
      · have hdigit : isDigit c = true := by simp_all
        rw [if_neg hc, if_pos hdigit, ← List.cons_append, scanDigits_append hdigits hstop.1]
  simp [scanUnsigned, hint, scanFraction, scanExponent, hstop.2]

/-- A minus sign or a digit starts a number and nothing else. -/
theorem parseValue_number {c : UInt8} (hc : c = 45 ∨ (48 ≤ c ∧ c ≤ 57)) (fuel depth : Nat)
    (text : List UInt8) :
    parseValue (fuel + 1) depth (c :: text) =
      (scanNumber (c :: text)).map fun (literal, rest) => (.number literal, rest) := by
  have hother : ∀ d ∈ [32, 9, 10, 13, 34, 123, 91, 110, 116, 102], c ≠ d := by
    rintro d hd rfl
    rcases hc with rfl | hdigit
    · revert hd
      decide
    · simp only [List.mem_cons, List.not_mem_nil, or_false] at hd
      rcases hd with rfl | rfl | rfl | rfl | rfl | rfl | rfl | rfl | rfl | rfl <;>
        exact absurd hdigit (by decide)
  simp only [List.forall_mem_cons, List.not_mem_nil, false_implies, implies_true, and_true]
    at hother
  rw [parseValue, skipSpace_cons (by simp [isSpace, hother])]
  simp [hother, scanWord]

/-- A printed integer is read back as its literal. -/
theorem reads_number {sign digits : List UInt8} (hsign : sign = [] ∨ sign = [45])
    (hdigits : digits.all isDigit = true) (hne : digits ≠ [])
    (hzero : digits.head? = some 48 → digits = [48]) :
    Reads (sign ++ digits) (.number (sign ++ digits)) := by
  intro fuel depth next rest hnext
  have hscan := scanUnsigned_digits hdigits hne hzero hnext rest
  obtain ⟨c, text, htext, hfirst⟩ : ∃ c text, sign ++ digits = c :: text ∧
      (c = 45 ∨ (48 ≤ c ∧ c ≤ 57)) := by
    rcases hsign with rfl | rfl
    · cases digits with
      | nil => exact absurd rfl hne
      | cons c digits =>
        refine ⟨c, digits, rfl, .inr ?_⟩
        simp only [List.all_cons, Bool.and_eq_true] at hdigits
        exact of_decide_eq_true hdigits.1
    · exact ⟨45, digits, rfl, .inl rfl⟩
  have hnumber : scanNumber (sign ++ digits ++ next :: rest) =
      some (sign ++ digits, next :: rest) := by
    rcases hsign with rfl | rfl
    · rw [List.nil_append] at htext ⊢
      have hminus : c ≠ 45 := by
        rintro rfl
        rw [htext] at hdigits
        simp [isDigit] at hdigits
      rw [htext, List.cons_append, scanNumber, if_neg hminus, ← List.cons_append, ← htext, hscan]
    · rw [List.append_assoc, List.singleton_append, scanNumber, if_pos rfl, hscan]
      rfl
  rw [htext, List.cons_append] at hnumber ⊢
  rw [parseValue_number hfirst, hnumber]
  rfl

/-- One printed member. -/
theorem parseMembers_member {text : List UInt8} {value : Value} (hreads : Reads text value)
    (name rest : List UInt8) (fuel depth : Nat) {next : UInt8} (hnext : next = 44 ∨ next = 125) :
    parseMembers (fuel + 2) depth (quote name ++ 58 :: (text ++ next :: rest)) =
      if next = 44 then
        (parseMembers (fuel + 1) depth rest).map fun (members, rest) =>
          ((toValid name, value) :: members, rest)
      else some ([(toValid name, value)], rest) := by
  have hname := unquote_quoteBody name (58 :: (text ++ next :: rest))
  have hvalue := hreads fuel depth next rest hnext
  have hspace : isSpace next = false := by rcases hnext with rfl | rfl <;> rfl
  simp only [quote, List.cons_append, List.append_assoc, List.nil_append]
  rw [parseMembers, skipSpace_cons (by decide)]
  simp only [if_true, hname, skipSpace_cons (show isSpace 58 = false from rfl), hvalue,
    skipSpace_cons hspace]
  rcases hnext with rfl | rfl
  · simp
  · simp

theorem parseMembers_printMembers (members : List (List UInt8 × List UInt8 × Value))
    (hne : members ≠ []) (hreads : ∀ m ∈ members, Reads m.2.1 m.2.2) (fuel depth : Nat)
    (hfuel : members.length < fuel) (rest : List UInt8) :
    parseMembers fuel depth (printMembers (members.map fun m => (m.1, m.2.1)) ++ 125 :: rest) =
      some (members.map fun m => (toValid m.1, m.2.2), rest) := by
  induction members generalizing fuel with
  | nil => exact absurd rfl hne
  | cons m members ih =>
    obtain ⟨fuel, rfl⟩ : ∃ k, fuel = k + 2 := ⟨fuel - 2, by simp at hfuel; omega⟩
    have hm := hreads m (by simp)
    cases members with
    | nil =>
      simp only [List.map_cons, List.map_nil, printMembers, List.append_assoc, List.cons_append]
      rw [parseMembers_member hm _ _ _ _ (.inr rfl), if_neg (by decide)]
    | cons m' members =>
      have hmore := ih (by simp) (fun k hk => hreads k (by simp [hk])) (fuel + 1)
        (by simp at hfuel ⊢; omega)
      simp only [List.map_cons, printMembers, List.append_assoc, List.cons_append] at hmore ⊢
      rw [parseMembers_member hm _ _ _ _ (.inl rfl), if_pos rfl, hmore]
      rfl

theorem length_printMembers (members : List (List UInt8 × List UInt8)) :
    members.length ≤ (printMembers members).length := by
  induction members using printMembers.induct with
  | case1 => simp [printMembers]
  | case2 name text => simp [printMembers, quote]
  | case3 name text member members ih =>
    simp only [printMembers, quote, List.length_append, List.length_cons] at ih ⊢
    omega

theorem printMembers_cons (member : List UInt8 × List UInt8)
    (members : List (List UInt8 × List UInt8)) :
    ∃ text, printMembers (member :: members) = 34 :: text := by
  cases members with
  | nil => exact ⟨_, rfl⟩
  | cons member' members => exact ⟨_, rfl⟩

/-- A printed object is read back member by member. -/
theorem parse_printObject (members : List (List UInt8 × List UInt8 × Value)) (hne : members ≠ [])
    (hreads : ∀ m ∈ members, Reads m.2.1 m.2.2) :
    parse (printObject (members.map fun m => (m.1, m.2.1))) =
      some (.object (members.map fun m => (toValid m.1, m.2.2))) := by
  have hlen := length_printMembers (members.map fun m => (m.1, m.2.1))
  obtain ⟨text, htext⟩ : ∃ text,
      printMembers (members.map fun m => (m.1, m.2.1)) = 34 :: text := by
    cases members with
    | nil => exact absurd rfl hne
    | cons m members => exact printMembers_cons _ _
  have hmembers := parseMembers_printMembers members hne hreads
    (printObject (members.map fun m => (m.1, m.2.1))).length 9999
    (by simp [printObject] at hlen ⊢; omega) []
  have hopen : (skipSpace (printMembers (members.map fun m => (m.1, m.2.1)) ++ [125])).head? ≠
      some 125 := by
    rw [htext, List.cons_append, skipSpace_cons (by decide)]
    simp
  have hvalue : parseValue ((printObject (members.map fun m => (m.1, m.2.1))).length + 1)
      maxNestingDepth (printObject (members.map fun m => (m.1, m.2.1))) =
      some (.object (members.map fun m => (toValid m.1, m.2.2)), []) := by
    rw [parseValue, printObject, skipSpace_cons (by decide)]
    simp only [printObject, List.length_cons, List.length_append, List.length_nil] at hmembers
    simp [hopen, hmembers, maxNestingDepth]
  rw [parse, hvalue]
  rfl

/-- What is stored from a printed object. -/
theorem unmarshal_printObject (fields : List (StructField σ)) (zero : σ)
    (members : List (List UInt8 × List UInt8 × Value)) (hne : members ≠ [])
    (hreads : ∀ m ∈ members, Reads m.2.1 m.2.2) :
    unmarshal fields zero (printObject (members.map fun m => (m.1, m.2.1))) =
      storeMembers fields (members.map fun m => (toValid m.1, m.2.2)) zero := by
  rw [unmarshal, parse_printObject members hne hreads]

theorem store_bytesField (name : List UInt8) (get : σ → Slice) (set : Slice → σ → σ)
    (bytes : List UInt8) (s : σ) :
    (bytesField name get set).store (.string (Base64.encode bytes)) s =
      some (set (.fresh bytes) s) := by
  simp [bytesField, Base64.decode_encode]

end JsonText
