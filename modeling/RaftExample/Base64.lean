import Mathlib.Data.List.Basic
import Mathlib.Data.Nat.Basic

/-!
# Base64

The standard alphabet with padding.  Three bytes are four digits; what is left at the end
is filled up with `=`.  The decoder skips line ends wherever they stand and does not look
at the bits that the padding cuts off.
-/

namespace Base64

/-- `=` -/
def pad : UInt8 := 61

/-- The digit of a number below 64. -/
def digit (n : Nat) : UInt8 :=
  if n < 26 then UInt8.ofNat (65 + n)
  else if n < 52 then UInt8.ofNat (71 + n)
  else if n < 62 then UInt8.ofNat (n - 4)
  else if n = 62 then 43
  else 47

/-- The number of a digit. -/
def value? (c : UInt8) : Option Nat :=
  if 65 ≤ c.toNat ∧ c.toNat ≤ 90 then some (c.toNat - 65)
  else if 97 ≤ c.toNat ∧ c.toNat ≤ 122 then some (c.toNat - 71)
  else if 48 ≤ c.toNat ∧ c.toNat ≤ 57 then some (c.toNat + 4)
  else if c = 43 then some 62
  else if c = 47 then some 63
  else none

def encode : List UInt8 → List UInt8
  | [] => []
  | [a] => [digit (a.toNat / 4), digit (a.toNat % 4 * 16), pad, pad]
  | [a, b] =>
      [digit (a.toNat / 4), digit (a.toNat % 4 * 16 + b.toNat / 16), digit (b.toNat % 16 * 4), pad]
  | a :: b :: c :: rest =>
      digit (a.toNat / 4) :: digit (a.toNat % 4 * 16 + b.toNat / 16) ::
        digit (b.toNat % 16 * 4 + c.toNat / 64) :: digit (c.toNat % 64) :: encode rest

/-- The three bytes of four digits. -/
def byte₁ (a b : Nat) : UInt8 := UInt8.ofNat (a * 4 + b / 16)
def byte₂ (b c : Nat) : UInt8 := UInt8.ofNat (b % 16 * 16 + c / 4)
def byte₃ (c d : Nat) : UInt8 := UInt8.ofNat (c % 4 * 64 + d)

/-- Four characters at a time.  Padding ends the text. -/
def decodeQuanta : List UInt8 → Option (List UInt8)
  | [] => some []
  | a :: b :: c :: d :: rest =>
      match value? a, value? b with
      | some a, some b =>
          if c = pad then if d = pad ∧ rest = [] then some [byte₁ a b] else none
          else match value? c with
            | none => none
            | some c =>
                if d = pad then if rest = [] then some [byte₁ a b, byte₂ b c] else none
                else match value? d with
                  | none => none
                  | some d =>
                      (decodeQuanta rest).map fun bytes =>
                        byte₁ a b :: byte₂ b c :: byte₃ c d :: bytes
      | _, _ => none
  | _ => none

/-- Carriage returns and line feeds do not count. -/
def decode (text : List UInt8) : Option (List UInt8) :=
  decodeQuanta (text.filter fun c => c ≠ 10 ∧ c ≠ 13)

/-! ### Digits -/

theorem value?_digit {n : Nat} (h : n < 64) : value? (digit n) = some n := by
  have hall : ∀ n < 64, value? (digit n) = some n := by decide
  exact hall n h

/-- Digits are printable and neither quotes nor backslashes, nor do they look like padding. -/
theorem digit_spec (n : Nat) :
    digit n ≠ pad ∧ 32 ≤ (digit n).toNat ∧ (digit n).toNat < 128 ∧ digit n ≠ 34 ∧ digit n ≠ 92 := by
  have hall : ∀ n < 63, digit n ≠ pad ∧ 32 ≤ (digit n).toNat ∧ (digit n).toNat < 128 ∧
      digit n ≠ 34 ∧ digit n ≠ 92 := by decide
  by_cases hn : n < 63
  · exact hall n hn
  · have hlast : digit n = 47 := by
      unfold digit
      rw [if_neg (by omega), if_neg (by omega), if_neg (by omega), if_neg (by omega)]
    rw [hlast]
    decide

/-! ### Bytes -/

theorem byte₁_digits (a : UInt8) (x : Nat) (hx : x < 16) :
    byte₁ (a.toNat / 4) (a.toNat % 4 * 16 + x) = a := by
  have hsplit : a.toNat / 4 * 4 + (a.toNat % 4 * 16 + x) / 16 = a.toNat := by omega
  rw [byte₁, hsplit, UInt8.ofNat_toNat]

theorem byte₂_digits (y : Nat) (b : UInt8) (x : Nat) (hx : x < 4) :
    byte₂ (y * 16 + b.toNat / 16) (b.toNat % 16 * 4 + x) = b := by
  have hb := b.toNat_lt
  have hsplit : (y * 16 + b.toNat / 16) % 16 * 16 + (b.toNat % 16 * 4 + x) / 4 = b.toNat := by
    omega
  rw [byte₂, hsplit, UInt8.ofNat_toNat]

theorem byte₃_digits (y : Nat) (c : UInt8) :
    byte₃ (y * 4 + c.toNat / 64) (c.toNat % 64) = c := by
  have hc := c.toNat_lt
  have hsplit : (y * 4 + c.toNat / 64) % 4 * 64 + c.toNat % 64 = c.toNat := by omega
  rw [byte₃, hsplit, UInt8.ofNat_toNat]

/-! ### Round trip -/

theorem decodeQuanta_encode (bytes : List UInt8) : decodeQuanta (encode bytes) = some bytes := by
  induction bytes using encode.induct with
  | case1 => rfl
  | case2 a =>
    have ha := a.toNat_lt
    have hbyte := byte₁_digits a 0 (by omega)
    rw [Nat.add_zero] at hbyte
    simp [encode, decodeQuanta, value?_digit (show a.toNat / 4 < 64 by omega),
      value?_digit (show a.toNat % 4 * 16 < 64 by omega), hbyte]
  | case3 a b =>
    have ha := a.toNat_lt
    have hb := b.toNat_lt
    have hbyte := byte₂_digits (a.toNat % 4) b 0 (by omega)
    rw [Nat.add_zero] at hbyte
    simp [encode, decodeQuanta, value?_digit (show a.toNat / 4 < 64 by omega),
      value?_digit (show a.toNat % 4 * 16 + b.toNat / 16 < 64 by omega),
      value?_digit (show b.toNat % 16 * 4 < 64 by omega), (digit_spec _).1,
      byte₁_digits a (b.toNat / 16) (by omega), hbyte]
  | case4 a b c rest ih =>
    have ha := a.toNat_lt
    have hb := b.toNat_lt
    have hc := c.toNat_lt
    simp [encode, decodeQuanta, value?_digit (show a.toNat / 4 < 64 by omega),
      value?_digit (show a.toNat % 4 * 16 + b.toNat / 16 < 64 by omega),
      value?_digit (show b.toNat % 16 * 4 + c.toNat / 64 < 64 by omega),
      value?_digit (show c.toNat % 64 < 64 by omega), (digit_spec _).1,
      byte₁_digits a (b.toNat / 16) (by omega), byte₂_digits (a.toNat % 4) b (c.toNat / 64) (by omega),
      byte₃_digits, ih]

/-- What the encoder emits: printable, without quotes and backslashes. -/
theorem mem_encode {bytes : List UInt8} {c : UInt8} (h : c ∈ encode bytes) :
    32 ≤ c.toNat ∧ c.toNat < 128 ∧ c ≠ 34 ∧ c ≠ 92 := by
  have hpad : 32 ≤ pad.toNat ∧ pad.toNat < 128 ∧ pad ≠ 34 ∧ pad ≠ 92 := by decide
  induction bytes using encode.induct with
  | case1 => simp [encode] at h
  | case2 a =>
    simp only [encode, List.mem_cons, List.not_mem_nil, or_false] at h
    rcases h with rfl | rfl | rfl | rfl
    · exact (digit_spec _).2
    · exact (digit_spec _).2
    · exact hpad
    · exact hpad
  | case3 a b =>
    simp only [encode, List.mem_cons, List.not_mem_nil, or_false] at h
    rcases h with rfl | rfl | rfl | rfl
    · exact (digit_spec _).2
    · exact (digit_spec _).2
    · exact (digit_spec _).2
    · exact hpad
  | case4 a b c rest ih =>
    simp only [encode, List.mem_cons] at h
    rcases h with rfl | rfl | rfl | rfl | h
    · exact (digit_spec _).2
    · exact (digit_spec _).2
    · exact (digit_spec _).2
    · exact (digit_spec _).2
    · exact ih h

theorem decode_encode (bytes : List UInt8) : decode (encode bytes) = some bytes := by
  have hall : (encode bytes).filter (fun c => c ≠ 10 ∧ c ≠ 13) = encode bytes := by
    rw [List.filter_eq_self]
    intro c hc
    have hprintable := (mem_encode hc).1
    have hten : c ≠ 10 := by rintro rfl; revert hprintable; decide
    have hthirteen : c ≠ 13 := by rintro rfl; revert hprintable; decide
    simp [hten, hthirteen]
  rw [decode, hall, decodeQuanta_encode]

example : encode [77, 97] = [84, 87, 69, 61] := by decide

end Base64
