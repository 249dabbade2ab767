import Mathlib.Algebra.Ring.Nat
import Mathlib.Data.List.Basic
import Mathlib.Data.Nat.Bits
import Mathlib.Logic.Function.Basic

/-!
# Linear shift registers and bursts of errors

A register of `w` bits is shifted towards its low end; when a one falls out, a polynomial
is added without carries.  A message is fed in digits of `c` bits, low bit first.  Steps
are linear, and if the polynomial has its top bit set they are also injective.  Hence two
messages that differ only within as many consecutive digits as fit into the register
leave it in different states, however long the messages are.
-/

namespace ShiftRegister

variable {w : Nat} (poly : BitVec w)

def step (r : BitVec w) : BitVec w :=
  if r.getLsbD 0 then (r >>> 1) ^^^ poly else r >>> 1

def steps : Nat → BitVec w → BitVec w
  | 0, r => r
  | n + 1, r => steps n (step poly r)

/-- Feed one digit. -/
def feed {c : Nat} (r : BitVec w) (digit : BitVec c) : BitVec w :=
  steps poly c (r ^^^ digit.setWidth w)

/-- Feed a message. -/
def feedAll {c : Nat} (r : BitVec w) (digits : List (BitVec c)) : BitVec w :=
  digits.foldl (feed poly) r

/-! ### Steps are linear and injective -/

theorem step_xor (a b : BitVec w) : step poly (a ^^^ b) = step poly a ^^^ step poly b := by
  unfold step
  rw [BitVec.getLsbD_xor, BitVec.ushiftRight_xor_distrib]
  cases a.getLsbD 0 with
  | false =>
    cases b.getLsbD 0 with
    | false => rfl
    | true => exact BitVec.xor_assoc ..
  | true =>
    cases b.getLsbD 0 with
    | false =>
      change a >>> 1 ^^^ b >>> 1 ^^^ poly = a >>> 1 ^^^ poly ^^^ b >>> 1
      rw [BitVec.xor_assoc, BitVec.xor_comm (b >>> 1), ← BitVec.xor_assoc]
    | true =>
      change a >>> 1 ^^^ b >>> 1 = a >>> 1 ^^^ poly ^^^ (b >>> 1 ^^^ poly)
      rw [BitVec.xor_comm (b >>> 1) poly, BitVec.xor_assoc, ← BitVec.xor_assoc poly poly,
        BitVec.xor_self, BitVec.zero_xor]

theorem steps_xor (n : Nat) (a b : BitVec w) :
    steps poly n (a ^^^ b) = steps poly n a ^^^ steps poly n b := by
  induction n generalizing a b with
  | zero => rfl
  | succ n ih => rw [steps, steps, steps, step_xor, ih]

theorem steps_add (m n : Nat) (r : BitVec w) :
    steps poly (m + n) r = steps poly n (steps poly m r) := by
  induction m generalizing r with
  | zero => rw [Nat.zero_add, steps]
  | succ m ih => rw [Nat.succ_add, steps, steps, ih]

/-- Nothing falls out of a register whose low bits are clear. -/
theorem steps_of_low_clear {n : Nat} {r : BitVec w} (h : ∀ i, i < n → r.getLsbD i = false) :
    steps poly n r = r >>> n := by
  induction n generalizing r with
  | zero => rw [steps, BitVec.ushiftRight_zero]
  | succ n ih =>
    have hstep : step poly r = r >>> 1 := by
      unfold step
      rw [h 0 (Nat.succ_pos n)]
      rfl
    rw [steps, hstep, ih]
    · rw [← BitVec.shiftRight_add, Nat.add_comm]
    · intro i hi
      rw [BitVec.getLsbD_ushiftRight]
      exact h (1 + i) (by omega)

variable {poly}

/-- The top bit of the polynomial tells whether a one has fallen out. -/
theorem step_eq_zero (hpoly : poly.msb = true) {r : BitVec w} (h : step poly r = 0#w) :
    r = 0#w := by
  have hw : 0 < w := by
    rcases Nat.eq_zero_or_pos w with rfl | hpos
    · simp [BitVec.msb, BitVec.getMsbD] at hpoly
    · exact hpos
  unfold step at h
  cases hlow : r.getLsbD 0 with
  | true =>
    rw [hlow, if_pos rfl, BitVec.xor_eq_zero_iff] at h
    rw [← h, BitVec.msb_eq_getLsbD_last, BitVec.getLsbD_ushiftRight,
      BitVec.getLsbD_of_ge r _ (by omega)] at hpoly
    cases hpoly
  | false =>
    rw [hlow, if_neg (by decide)] at h
    apply BitVec.eq_of_getLsbD_eq
    intro i _
    cases i with
    | zero => rw [hlow, BitVec.getLsbD_zero]
    | succ i =>
      have hbit : (r >>> 1).getLsbD i = r.getLsbD (i + 1) := by
        rw [BitVec.getLsbD_ushiftRight, Nat.add_comm]
      rw [← hbit, h, BitVec.getLsbD_zero, BitVec.getLsbD_zero]

theorem steps_eq_zero (hpoly : poly.msb = true) {n : Nat} {r : BitVec w}
    (h : steps poly n r = 0#w) : r = 0#w := by
  induction n generalizing r with
  | zero => exact h
  | succ n ih => exact step_eq_zero hpoly (ih h)

theorem steps_injective (hpoly : poly.msb = true) (n : Nat) :
    Function.Injective (steps poly n) := by
  intro a b hab
  apply BitVec.xor_eq_zero_iff.mp
  apply steps_eq_zero hpoly (n := n)
  rw [steps_xor, hab, BitVec.xor_self]

theorem feedAll_injective (hpoly : poly.msb = true) {c : Nat} (digits : List (BitVec c)) :
    Function.Injective fun r => feedAll poly r digits := by
  induction digits with
  | nil => exact fun a b hab => hab
  | cons digit digits ih =>
    intro a b hab
    have hxor : a ^^^ digit.setWidth w = b ^^^ digit.setWidth w := steps_injective hpoly c (ih hab)
    have hcancel := congrArg (· ^^^ digit.setWidth w) hxor
    simpa [BitVec.xor_assoc] using hcancel

/-! ### A few digits as one number -/

/-- Digits as a number, the first one lowest. -/
def pack {c : Nat} : List (BitVec c) → Nat
  | [] => 0
  | digit :: digits => 2 ^ c * pack digits + digit.toNat

theorem pack_lt {c : Nat} (digits : List (BitVec c)) : pack digits < 2 ^ (c * digits.length) := by
  induction digits with
  | nil => simp [pack]
  | cons digit digits ih =>
    have hdigit : digit.toNat < 2 ^ c := digit.isLt
    have hpow : 2 ^ (c * (digit :: digits).length) = 2 ^ c * 2 ^ (c * digits.length) := by
      rw [List.length_cons, Nat.mul_succ, Nat.add_comm, Nat.pow_add]
    rw [pack, hpow]
    calc 2 ^ c * pack digits + digit.toNat < 2 ^ c * pack digits + 2 ^ c :=
          Nat.add_lt_add_left hdigit _
      _ = 2 ^ c * (pack digits + 1) := (Nat.mul_succ ..).symm
      _ ≤ 2 ^ c * 2 ^ (c * digits.length) := Nat.mul_le_mul_left _ ih

theorem pack_injective {c : Nat} {digits digits' : List (BitVec c)}
    (hlen : digits.length = digits'.length) (h : pack digits = pack digits') :
    digits = digits' := by
  induction digits generalizing digits' with
  | nil => exact (List.length_eq_zero_iff.mp hlen.symm).symm
  | cons digit digits ih =>
    cases digits' with
    | nil => simp at hlen
    | cons digit' digits' =>
      have hlow : digit.toNat = digit'.toNat := by
        have hmod := congrArg (· % 2 ^ c) h
        simpa [pack, Nat.mul_add_mod, Nat.mod_eq_of_lt digit.isLt,
          Nat.mod_eq_of_lt digit'.isLt] using hmod
      have hhigh : pack digits = pack digits' := by
        rw [pack, pack, hlow] at h
        exact Nat.eq_of_mul_eq_mul_left (Nat.two_pow_pos c) (Nat.add_right_cancel h)
      rw [BitVec.eq_of_toNat_eq hlow, ih (by simpa using hlen) hhigh]

theorem ofNat_pack_cons {c : Nat} (digit : BitVec c) (digits : List (BitVec c)) :
    BitVec.ofNat w (pack (digit :: digits)) =
      digit.setWidth w ^^^ BitVec.ofNat w (pack digits) <<< c := by
  apply BitVec.eq_of_getLsbD_eq
  intro i hi
  rw [pack, BitVec.getLsbD_ofNat, Nat.testBit_two_pow_mul_add _ digit.isLt, BitVec.getLsbD_xor,
    BitVec.getLsbD_setWidth, BitVec.getLsbD_shiftLeft, BitVec.getLsbD_ofNat]
  by_cases hlow : i < c
  · simp [hi, hlow, BitVec.getLsbD]
  · have hbit : digit.getLsbD i = false := BitVec.getLsbD_of_ge digit i (by omega)
    simp [hi, hlow, hbit, show i - c < w by omega]

/-- As long as it fits, a message is fed by adding it to the register and shifting. -/
theorem feedAll_eq_steps (poly : BitVec w) {c : Nat} (r : BitVec w) (digits : List (BitVec c))
    (hfits : c * digits.length ≤ w) :
    feedAll poly r digits =
      steps poly (c * digits.length) (r ^^^ BitVec.ofNat w (pack digits)) := by
  induction digits generalizing r with
  | nil =>
    have hzero : BitVec.ofNat w 0 = 0#w := rfl
    rw [List.length_nil, Nat.mul_zero, steps, pack, hzero, BitVec.xor_zero]
    rfl
  | cons digit digits ih =>
    have hlen : c * (digit :: digits).length = c + c * digits.length := by
      rw [List.length_cons, Nat.mul_succ, Nat.add_comm]
    rw [hlen] at hfits
    have hclear : ∀ i, i < c → (BitVec.ofNat w (pack digits) <<< c).getLsbD i = false := by
      intro i hi
      simp [hi]
    -- the later digits are too short to be pushed out at the top
    have hback : BitVec.ofNat w (pack digits) <<< c >>> c = BitVec.ofNat w (pack digits) := by
      apply BitVec.eq_of_getLsbD_eq
      intro i hi
      rw [BitVec.getLsbD_ushiftRight, BitVec.getLsbD_shiftLeft]
      by_cases hin : c + i < w
      · simp [hin]
      · have hsmall : pack digits < 2 ^ i :=
          Nat.lt_of_lt_of_le (pack_lt digits) (Nat.pow_le_pow_right (by decide) (by omega))
        have hbit : (BitVec.ofNat w (pack digits)).getLsbD i = false := by
          rw [BitVec.getLsbD_ofNat, Nat.testBit_lt_two_pow hsmall, Bool.and_false]
        simp [hin, hbit]
    calc feedAll poly r (digit :: digits)
        = feedAll poly (feed poly r digit) digits := rfl
      _ = steps poly (c * digits.length)
            (feed poly r digit ^^^ BitVec.ofNat w (pack digits)) := ih _ (by omega)
      _ = steps poly (c * digits.length) (steps poly c (r ^^^ digit.setWidth w) ^^^
            steps poly c (BitVec.ofNat w (pack digits) <<< c)) := by
          rw [steps_of_low_clear poly hclear, hback, feed]
      _ = steps poly (c * (digit :: digits).length)
            (r ^^^ BitVec.ofNat w (pack (digit :: digits))) := by
          rw [← steps_xor, ← steps_add, hlen, ofNat_pack_cons, BitVec.xor_assoc]

/-! ### Bursts -/

/-- Two messages that differ only in a part that fits into the register leave it in
    different states. -/
theorem burst_detected (hpoly : poly.msb = true) {c : Nat} (r : BitVec w)
    (before after : List (BitVec c)) {burst burst' : List (BitVec c)}
    (hlen : burst.length = burst'.length) (hfits : c * burst.length ≤ w)
    (hne : burst ≠ burst') :
    feedAll poly r (before ++ burst ++ after) ≠ feedAll poly r (before ++ burst' ++ after) := by
  intro heq
  have hfits' : c * burst'.length ≤ w := hlen ▸ hfits
  generalize hstart : feedAll poly r before = start
  have hmiddle : feedAll poly start burst = feedAll poly start burst' := by
    apply feedAll_injective hpoly after
    simpa [feedAll, List.foldl_append, ← hstart] using heq
  rw [feedAll_eq_steps poly start burst hfits, feedAll_eq_steps poly start burst' hfits',
    ← hlen] at hmiddle
  have hpacked := steps_injective hpoly _ hmiddle
  have hcancel : BitVec.ofNat w (pack burst) = BitVec.ofNat w (pack burst') := by
    have hxor := congrArg (start ^^^ ·) hpacked
    simpa [← BitVec.xor_assoc] using hxor
  apply hne
  apply pack_injective hlen
  have hnat := congrArg BitVec.toNat hcancel
  have hlt : pack burst < 2 ^ w :=
    Nat.lt_of_lt_of_le (pack_lt burst) (Nat.pow_le_pow_right (by decide) hfits)
  have hlt' : pack burst' < 2 ^ w :=
    Nat.lt_of_lt_of_le (pack_lt burst') (Nat.pow_le_pow_right (by decide) hfits')
  rwa [BitVec.toNat_ofNat, BitVec.toNat_ofNat, Nat.mod_eq_of_lt hlt, Nat.mod_eq_of_lt hlt'] at hnat

/-- The same for a window of positions outside of which the messages agree. -/
theorem window_detected (hpoly : poly.msb = true) {c : Nat} (r : BitVec w)
    {digits digits' : List (BitVec c)} (hlen : digits.length = digits'.length)
    (hne : digits ≠ digits') (start size : Nat) (hfits : c * size ≤ w)
    (hwindow : ∀ p, digits[p]? ≠ digits'[p]? → start ≤ p ∧ p < start + size) :
    feedAll poly r digits ≠ feedAll poly r digits' := by
  have hsame : ∀ p, p < start ∨ start + size ≤ p → digits[p]? = digits'[p]? := by
    intro p hp
    by_contra hdiffer
    have hin := hwindow p hdiffer
    omega
  have hbefore : digits.take start = digits'.take start := by
    apply List.ext_getElem?
    intro p
    by_cases hp : p < start
    · rw [List.getElem?_take_of_lt hp, List.getElem?_take_of_lt hp]
      exact hsame p (.inl hp)
    · rw [List.getElem?_eq_none (by rw [List.length_take]; omega),
        List.getElem?_eq_none (by rw [List.length_take]; omega)]
  have hafter : digits.drop (start + size) = digits'.drop (start + size) := by
    apply List.ext_getElem?
    intro p
    rw [List.getElem?_drop, List.getElem?_drop]
    exact hsame _ (.inr (by omega))
  have hsplit : ∀ message : List (BitVec c), message = message.take start ++
      (message.drop start).take size ++ message.drop (start + size) := by
    intro message
    rw [List.append_assoc, ← List.drop_drop, List.take_append_drop, List.take_append_drop]
  have hburstLen : ((digits.drop start).take size).length =
      ((digits'.drop start).take size).length := by
    rw [List.length_take, List.length_take, List.length_drop, List.length_drop, hlen]
  have hburstFits : c * ((digits.drop start).take size).length ≤ w :=
    Nat.le_trans (Nat.mul_le_mul_left c (List.length_take_le ..)) hfits
  rw [hsplit digits, hsplit digits', ← hbefore, ← hafter]
  apply burst_detected hpoly r _ _ hburstLen hburstFits
  intro hburst
  apply hne
  rw [hsplit digits, hsplit digits', hbefore, hafter, hburst]

end ShiftRegister
