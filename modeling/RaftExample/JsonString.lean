import Mathlib.Data.List.Basic
import Mathlib.Data.Nat.Basic

/-!
# JSON string literals

Strings are byte strings, as in Go.  The writer escapes quotes, backslashes, control
characters, the characters that matter to HTML and the two line separators of Unicode; it
copies every other well-formed UTF-8 character and writes the replacement character for
every byte that belongs to none.  The reader undoes all this and puts the replacement
character in place of stray bytes as well.  So what is written is read back exactly if it
is UTF-8, and as its valid part otherwise.
-/

namespace JsonText

/-! ### UTF-8 -/

/-- For a first byte: how many bytes follow, and the range of the first of them. -/
def follow (a : UInt8) : Option (Nat × UInt8 × UInt8) :=
  if a < 0x80 then some (0, 0x80, 0xBF)
  else if 0xC2 ≤ a ∧ a ≤ 0xDF then some (1, 0x80, 0xBF)
  else if a = 0xE0 then some (2, 0xA0, 0xBF)
  else if a = 0xED then some (2, 0x80, 0x9F)
  else if 0xE1 ≤ a ∧ a ≤ 0xEF then some (2, 0x80, 0xBF)
  else if a = 0xF0 then some (3, 0x90, 0xBF)
  else if 0xF1 ≤ a ∧ a ≤ 0xF3 then some (3, 0x80, 0xBF)
  else if a = 0xF4 then some (3, 0x80, 0x8F)
  else none

/-- The text starts with `n` continuation bytes, the first of them in the given range. -/
def tailOk (low high : UInt8) : Nat → List UInt8 → Bool
  | 0, _ => true
  | _ + 1, [] => false
  | n + 1, b :: rest => decide (low ≤ b ∧ b ≤ high) && tailOk 0x80 0xBF n rest

/-- How many bytes follow the first byte of the well-formed character that starts here. -/
def runeTail (a : UInt8) (rest : List UInt8) : Option Nat :=
  match follow a with
  | none => none
  | some (n, low, high) => if tailOk low high n rest then some n else none

/-- The replacement character. -/
def replacement : List UInt8 := [0xEF, 0xBF, 0xBD]

/-- The bytes of a character; surrogates and numbers that are too large have none. -/
def encodeRune (r : Nat) : List UInt8 :=
  if r < 0x80 then [UInt8.ofNat r]
  else if r < 0x800 then [UInt8.ofNat (0xC0 + r / 64), UInt8.ofNat (0x80 + r % 64)]
  else if (0xD800 ≤ r ∧ r < 0xE000) ∨ 0x10FFFF < r then replacement
  else if r < 0x10000 then
    [UInt8.ofNat (0xE0 + r / 4096), UInt8.ofNat (0x80 + r / 64 % 64), UInt8.ofNat (0x80 + r % 64)]
  else
    [UInt8.ofNat (0xF0 + r / 262144), UInt8.ofNat (0x80 + r / 4096 % 64),
      UInt8.ofNat (0x80 + r / 64 % 64), UInt8.ofNat (0x80 + r % 64)]

/-- Every byte outside a well-formed character replaced; `copy` bytes of a character that
    has begun are still to come. -/
def toValidFrom : Nat → List UInt8 → List UInt8
  | _, [] => []
  | copy + 1, b :: rest => b :: toValidFrom copy rest
  | 0, b :: rest =>
      match runeTail b rest with
      | none => replacement ++ toValidFrom 0 rest
      | some n => b :: toValidFrom n rest

def toValid (s : List UInt8) : List UInt8 := toValidFrom 0 s

/-! ### Writing -/

def hexDigit (n : Nat) : UInt8 := if n < 10 then UInt8.ofNat (48 + n) else UInt8.ofNat (87 + n)

/-- One byte below 128. -/
def quoteAscii (b : UInt8) : List UInt8 :=
  if b = 34 ∨ b = 92 then [92, b]
  else if b = 8 then [92, 98]
  else if b = 12 then [92, 102]
  else if b = 10 then [92, 110]
  else if b = 13 then [92, 114]
  else if b = 9 then [92, 116]
  else if b < 32 ∨ b = 38 ∨ b = 60 ∨ b = 62 then
    [92, 117, 48, 48, hexDigit (b.toNat / 16), hexDigit (b.toNat % 16)]
  else [b]

/-- The last hexadecimal digit of a line separator, U+2028 or U+2029. -/
def lineSeparator (b : UInt8) (rest : List UInt8) : Option UInt8 :=
  if b = 0xE2 ∧ rest.take 2 = [0x80, 0xA8] then some 56
  else if b = 0xE2 ∧ rest.take 2 = [0x80, 0xA9] then some 57
  else none

/-- The text between the quotes; `drop` and `copy` are what is left of a character that was
    escaped or copied. -/
def quoteBody : (drop copy : Nat) → List UInt8 → List UInt8
  | _, _, [] => []
  | drop + 1, copy, _ :: rest => quoteBody drop copy rest
  | 0, copy + 1, b :: rest => b :: quoteBody 0 copy rest
  | 0, 0, b :: rest =>
      if b < 0x80 then quoteAscii b ++ quoteBody 0 0 rest
      else match runeTail b rest with
        | none => [92, 117, 102, 102, 102, 100] ++ quoteBody 0 0 rest
        | some n =>
            match lineSeparator b rest with
            | some last => [92, 117, 50, 48, 50, last] ++ quoteBody 2 0 rest
            | none => b :: quoteBody 0 n rest

def quote (s : List UInt8) : List UInt8 := 34 :: (quoteBody 0 0 s ++ [34])

/-! ### Reading -/

def hexValue? (c : UInt8) : Option Nat :=
  if 48 ≤ c.toNat ∧ c.toNat ≤ 57 then some (c.toNat - 48)
  else if 97 ≤ c.toNat ∧ c.toNat ≤ 102 then some (c.toNat - 87)
  else if 65 ≤ c.toNat ∧ c.toNat ≤ 70 then some (c.toNat - 55)
  else none

/-- Four hexadecimal digits. -/
def hex4? : List UInt8 → Option Nat
  | a :: b :: c :: d :: _ =>
      match hexValue? a, hexValue? b, hexValue? c, hexValue? d with
      | some a, some b, some c, some d => some (((a * 16 + b) * 16 + c) * 16 + d)
      | _, _, _, _ => none
  | _ => none

/-- The character of an escape with one letter. -/
def letterEscape (c : UInt8) : Option UInt8 :=
  if c = 34 ∨ c = 92 ∨ c = 47 then some c
  else if c = 98 then some 8
  else if c = 102 then some 12
  else if c = 110 then some 10
  else if c = 114 then some 13
  else if c = 116 then some 9
  else none

/-- The second half of a surrogate pair, as an escape. -/
def lowSurrogate? : List UInt8 → Option Nat
  | 92 :: 117 :: rest =>
      match hex4? rest with
      | some low => if 0xDC00 ≤ low ∧ low < 0xE000 then some low else none
      | none => none
  | _ => none

/-- What follows a backslash: the character, and how many bytes stand for it.  A surrogate
    without its other half is replaced. -/
def escape : List UInt8 → Option (List UInt8 × Nat)
  | [] => none
  | c :: rest =>
      if c = 117 then
        match hex4? rest with
        | none => none
        | some u =>
            if 0xD800 ≤ u ∧ u < 0xDC00 then
              match lowSurrogate? (rest.drop 4) with
              | some low => some (encodeRune ((u - 0xD800) * 1024 + (low - 0xDC00) + 0x10000), 11)
              | none => some (replacement, 5)
            else some (encodeRune u, 5)
      else (letterEscape c).map fun b => ([b], 1)

/-- Put a character in front of what the rest of the literal reads as. -/
def prepend (char : List UInt8) (read : Option (List UInt8 × List UInt8)) :
    Option (List UInt8 × List UInt8) :=
  read.map fun (s, rest) => (char ++ s, rest)

/-- A literal after its opening quote: its value, and what follows the closing quote.
    Quotes and backslashes continue no character, so one pass can do what the scanner and
    the decoder do one after the other. -/
def unquote : (drop copy : Nat) → List UInt8 → Option (List UInt8 × List UInt8)
  | _, _, [] => none
  | drop + 1, copy, _ :: rest => unquote drop copy rest
  | 0, copy + 1, b :: rest => prepend [b] (unquote 0 copy rest)
  | 0, 0, b :: rest =>
      if b = 34 then some ([], rest)
      else if b = 92 then
        match escape rest with
        | none => none
        | some (char, used) => prepend char (unquote used 0 rest)
      else if b < 32 then none
      else match runeTail b rest with
        | none => prepend replacement (unquote 0 0 rest)
        | some n => prepend [b] (unquote 0 n rest)

/-! ### Characters -/

@[simp] theorem prepend_some (char s rest : List UInt8) :
    prepend char (some (s, rest)) = some (char ++ s, rest) := rfl

@[simp] theorem prepend_nil (read : Option (List UInt8 × List UInt8)) : prepend [] read = read := by
  cases read with
  | none => rfl
  | some read => rfl

@[simp] theorem prepend_prepend (char char' : List UInt8)
    (read : Option (List UInt8 × List UInt8)) :
    prepend char (prepend char' read) = prepend (char ++ char') read := by
  cases read with
  | none => rfl
  | some read => simp [prepend]

theorem length_le_of_tailOk {low high : UInt8} {n : Nat} {s : List UInt8}
    (h : tailOk low high n s = true) : n ≤ s.length := by
  induction n generalizing low high s with
  | zero => exact Nat.zero_le _
  | succ n ih =>
    cases s with
    | nil => simp [tailOk] at h
    | cons b rest =>
      simp only [tailOk, Bool.and_eq_true] at h
      exact Nat.succ_le_succ (ih h.2)

/-- Only the continuation bytes themselves matter. -/
theorem tailOk_take_append {low high : UInt8} {n : Nat} {s : List UInt8}
    (h : tailOk low high n s = true) (t : List UInt8) :
    tailOk low high n (s.take n ++ t) = true := by
  induction n generalizing low high s with
  | zero => rfl
  | succ n ih =>
    cases s with
    | nil => simp [tailOk] at h
    | cons b rest =>
      simp only [tailOk, Bool.and_eq_true] at h
      simp only [List.take_succ_cons, List.cons_append, tailOk, Bool.and_eq_true]
      exact ⟨h.1, ih h.2⟩

theorem runeTail_ascii {b : UInt8} (h : b < 0x80) (rest : List UInt8) :
    runeTail b rest = some 0 := by
  simp [runeTail, follow, h, tailOk]

theorem length_le_of_runeTail {b : UInt8} {rest : List UInt8} {n : Nat}
    (h : runeTail b rest = some n) : n ≤ rest.length := by
  unfold runeTail at h
  split at h
  · simp at h
  · split at h
    · rename_i htail
      obtain rfl := Option.some.inj h
      exact length_le_of_tailOk htail
    · simp at h

theorem runeTail_take_append {b : UInt8} {rest : List UInt8} {n : Nat}
    (h : runeTail b rest = some n) (t : List UInt8) :
    runeTail b (rest.take n ++ t) = some n := by
  unfold runeTail at h ⊢
  split at h
  · simp at h
  · split at h
    · rename_i htail
      obtain rfl := Option.some.inj h
      rw [if_pos (tailOk_take_append htail t)]
    · simp at h

theorem unquote_drop (xs rest : List UInt8) (copy : Nat) :
    unquote xs.length copy (xs ++ rest) = unquote 0 copy rest := by
  induction xs with
  | nil => rfl
  | cons x xs ih =>
    rw [List.length_cons, List.cons_append, unquote]
    exact ih

/-! ### Escapes -/

/-- An escape reads as the character that was escaped. -/
theorem unquote_escape (text rest : List UInt8) {char : List UInt8}
    (h : escape (text ++ rest) = some (char, text.length)) :
    unquote 0 0 (92 :: (text ++ rest)) = prepend char (unquote 0 0 rest) := by
  rw [unquote, if_neg (by decide), if_pos rfl, h]
  simp only [unquote_drop]

theorem hexValue?_hexDigit {n : Nat} (h : n < 16) : hexValue? (hexDigit n) = some n := by
  have hall : ∀ n < 16, hexValue? (hexDigit n) = some n := by decide
  exact hall n h

/-- The long escape of a byte below 128. -/
theorem escape_hex {b : UInt8} (hb : b < 0x80) (rest : List UInt8) :
    escape (117 :: 48 :: 48 :: hexDigit (b.toNat / 16) :: hexDigit (b.toNat % 16) :: rest) =
      some ([b], 5) := by
  have hlt : b.toNat < 128 := hb
  have hzero : hexValue? 48 = some 0 := rfl
  have hhex : hex4? (48 :: 48 :: hexDigit (b.toNat / 16) :: hexDigit (b.toNat % 16) :: rest) =
      some b.toNat := by
    simp only [hex4?, hzero, hexValue?_hexDigit (show b.toNat / 16 < 16 by omega),
      hexValue?_hexDigit (show b.toNat % 16 < 16 by omega), Option.some.injEq]
    omega
  rw [escape, if_pos rfl, hhex]
  simp only
  rw [if_neg (by omega), encodeRune, if_pos hlt, UInt8.ofNat_toNat]

theorem escape_replacement (rest : List UInt8) :
    escape ([117, 102, 102, 102, 100] ++ rest) = some (replacement, 5) := rfl

theorem unquote_quoteAscii {b : UInt8} (hb : b < 0x80) (rest : List UInt8) :
    unquote 0 0 (quoteAscii b ++ rest) = prepend [b] (unquote 0 0 rest) := by
  unfold quoteAscii
  split
  · rename_i hquote
    apply unquote_escape [b] rest
    rcases hquote with rfl | rfl <;> rfl
  · rename_i hquote
    split
    · subst_vars
      exact unquote_escape [98] rest rfl
    split
    · subst_vars
      exact unquote_escape [102] rest rfl
    split
    · subst_vars
      exact unquote_escape [110] rest rfl
    split
    · subst_vars
      exact unquote_escape [114] rest rfl
    split
    · subst_vars
      exact unquote_escape [116] rest rfl
    split
    · exact unquote_escape [117, 48, 48, hexDigit (b.toNat / 16), hexDigit (b.toNat % 16)] rest
        (escape_hex hb rest)
    · rename_i hplain
      rw [not_or] at hquote
      simp only [not_or] at hplain
      rw [List.singleton_append, unquote, if_neg hquote.1, if_neg hquote.2, if_neg hplain.1,
        runeTail_ascii hb]

/-! ### Round trip -/

/-- What is left of a copied character goes through both ways. -/
theorem quoteBody_copy (n : Nat) (s : List UInt8) :
    quoteBody 0 n s = s.take n ++ quoteBody 0 0 (s.drop n) := by
  induction n generalizing s with
  | zero => rfl
  | succ n ih =>
    cases s with
    | nil => rfl
    | cons b rest => rw [quoteBody, ih, List.take_succ_cons, List.drop_succ_cons, List.cons_append]

theorem toValidFrom_copy (n : Nat) (s : List UInt8) :
    toValidFrom n s = s.take n ++ toValidFrom 0 (s.drop n) := by
  induction n generalizing s with
  | zero => rfl
  | succ n ih =>
    cases s with
    | nil => rfl
    | cons b rest =>
      rw [toValidFrom, ih, List.take_succ_cons, List.drop_succ_cons, List.cons_append]

theorem quoteBody_drop (n : Nat) (s : List UInt8) : quoteBody n 0 s = quoteBody 0 0 (s.drop n) := by
  induction n generalizing s with
  | zero => rfl
  | succ n ih =>
    cases s with
    | nil => rfl
    | cons b rest => rw [quoteBody, ih, List.drop_succ_cons]

theorem unquote_copy (xs rest : List UInt8) :
    unquote 0 xs.length (xs ++ rest) = prepend xs (unquote 0 0 rest) := by
  induction xs with
  | nil => exact (prepend_nil _).symm
  | cons x xs ih =>
    rw [List.length_cons, List.cons_append, unquote, ih, prepend_prepend, List.singleton_append]

theorem lineSeparator_spec {b last : UInt8} {rest : List UInt8}
    (h : lineSeparator b rest = some last) :
    ∃ third, rest.take 2 = [0x80, third] ∧ (∀ n, runeTail b rest = some n → n = 2) ∧
      ∀ t, escape ([117, 50, 48, 50, last] ++ t) = some ([b, 0x80, third], 5) := by
  have hfollow : follow 0xE2 = some (2, 0x80, 0xBF) := rfl
  have htwo : ∀ n, runeTail 0xE2 rest = some n → n = 2 := by
    intro n hrune
    simp only [runeTail, hfollow] at hrune
    split at hrune
    · exact (Option.some.inj hrune).symm
    · simp at hrune
  unfold lineSeparator at h
  split at h
  · rename_i hsep
    obtain rfl := Option.some.inj h
    obtain ⟨rfl, htake⟩ := hsep
    exact ⟨_, htake, htwo, fun t => rfl⟩
  · split at h
    · rename_i hsep
      obtain rfl := Option.some.inj h
      obtain ⟨rfl, htake⟩ := hsep
      exact ⟨_, htake, htwo, fun t => rfl⟩
    · simp at h

/-- A character that is copied. -/
theorem unquote_raw {b : UInt8} {s : List UInt8} {n : Nat} (hb : ¬ b < 0x80)
    (hrune : runeTail b s = some n) (rest : List UInt8) :
    unquote 0 0 (b :: (s.take n ++ rest)) = prepend (b :: s.take n) (unquote 0 0 rest) := by
  have hlen : (s.take n).length = n := List.length_take_of_le (length_le_of_runeTail hrune)
  have hcopy := unquote_copy (s.take n) rest
  rw [hlen] at hcopy
  have hquote : b ≠ 34 := by rintro rfl; exact hb (by decide)
  have hbackslash : b ≠ 92 := by rintro rfl; exact hb (by decide)
  have hcontrol : ¬ b < 32 := fun hlt => hb (UInt8.lt_trans hlt (by decide))
  rw [unquote, if_neg hquote, if_neg hbackslash, if_neg hcontrol, runeTail_take_append hrune]
  simp only [hcopy, prepend_prepend, List.singleton_append]

/-- Every byte string is read back as its valid part. -/
theorem unquote_quoteBody (s rest : List UInt8) :
    unquote 0 0 (quoteBody 0 0 s ++ 34 :: rest) = some (toValid s, rest) := by
  -- a character may be several bytes long, so the induction is on the length
  induction hlen : s.length using Nat.strong_induction_on generalizing s with
  | _ len ih =>
    cases s with
    | nil => rfl
    | cons b s =>
      have hafter : ∀ n, unquote 0 0 (quoteBody 0 0 (s.drop n) ++ 34 :: rest) =
          some (toValid (s.drop n), rest) := by
        intro n
        refine ih _ ?_ (s.drop n) rfl
        rw [← hlen, List.length_drop, List.length_cons]
        omega
      have hnext := hafter 0
      rw [List.drop_zero] at hnext
      by_cases hb : b < 0x80
      · rw [quoteBody, if_pos hb, List.append_assoc, unquote_quoteAscii hb, hnext, prepend_some,
          toValid, toValid, toValidFrom, runeTail_ascii hb]
        rfl
      · rw [quoteBody, if_neg hb, toValid, toValidFrom]
        cases hrune : runeTail b s with
        | none =>
          have hescape := unquote_escape [117, 102, 102, 102, 100]
            (quoteBody 0 0 s ++ 34 :: rest) (escape_replacement _)
          simp only [List.cons_append, List.nil_append] at hescape ⊢
          rw [hescape, hnext]
          rfl
        | some n =>
          simp only [toValidFrom_copy n]
          cases hsep : lineSeparator b s with
          | none =>
            simp only [quoteBody_copy n, List.cons_append, List.append_assoc]
            rw [unquote_raw hb hrune, hafter n]
            rfl
          | some last =>
            obtain ⟨third, htake, htwo, hescape⟩ := lineSeparator_spec hsep
            obtain rfl := htwo n hrune
            have hread := unquote_escape [117, 50, 48, 50, last] _
              (hescape (quoteBody 0 0 (s.drop 2) ++ 34 :: rest))
            simp only [quoteBody_drop 2, List.cons_append, List.nil_append] at hread ⊢
            rw [hread, hafter 2, htake]
            rfl

end JsonText
