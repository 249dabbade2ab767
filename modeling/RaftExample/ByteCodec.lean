import Mathlib.Data.List.Basic
import Mathlib.Data.Nat.Basic
import Mathlib.Tactic.Ring
import Mathlib.Tactic.NormNum

/-!
# Byte strings, little-endian words and exact reads

Go strings and byte slices are both byte strings.  Fixed-width integers travel
through files and snapshot streams as little-endian words, and streams are read
with a reader that fills a buffer completely or reports how it fell short.
Nothing here depends on what the bytes mean.
-/

namespace RaftExample

abbrev Bytes := List UInt8

instance instLawfulBEqBytes : LawfulBEq Bytes := inferInstance

/-! ### Little-endian words -/

/-- The `width` low-order bytes of `value`, least significant byte first. -/
def leBytes : Nat → Nat → Bytes
  | 0, _ => []
  | width + 1, value => UInt8.ofNat (value % 256) :: leBytes width (value / 256)

/-- The number a little-endian byte string denotes. -/
def leNat : Bytes → Nat
  | [] => 0
  | byte :: bytes => byte.toNat + 256 * leNat bytes

@[simp] theorem length_leBytes (width value : Nat) :
    (leBytes width value).length = width := by
  induction width generalizing value with
  | zero => rfl
  | succ width ih => simp [leBytes, ih]

theorem leNat_leBytes (width value : Nat) :
    leNat (leBytes width value) = value % 256 ^ width := by
  induction width generalizing value with
  | zero => simp [leBytes, leNat, Nat.mod_one]
  | succ width ih =>
      have hbyte : (UInt8.ofNat (value % 256)).toNat = value % 256 := by
        simp
      rw [leBytes, leNat, ih, hbyte, pow_succ', Nat.mod_mul]

theorem leNat_leBytes_of_lt {width value : Nat} (h : value < 256 ^ width) :
    leNat (leBytes width value) = value := by
  rw [leNat_leBytes, Nat.mod_eq_of_lt h]

theorem leNat_lt (bytes : Bytes) : leNat bytes < 256 ^ bytes.length := by
  induction bytes with
  | nil => simp [leNat]
  | cons byte bytes ih =>
      have hbyte : byte.toNat < 256 := byte.toNat_lt
      simp only [leNat, List.length_cons, pow_succ']
      omega

theorem leBytes_leNat (bytes : Bytes) : leBytes bytes.length (leNat bytes) = bytes := by
  induction bytes with
  | nil => rfl
  | cons byte bytes ih =>
      have hbyte : byte.toNat < 256 := byte.toNat_lt
      have hlow : (byte.toNat + 256 * leNat bytes) % 256 = byte.toNat := by omega
      have hhigh : (byte.toNat + 256 * leNat bytes) / 256 = leNat bytes := by omega
      simp only [List.length_cons, leBytes, leNat, hlow, hhigh, ih]
      simp

/-! ### Filling a buffer from a stream -/

/-- What reading exactly `n` bytes can report: the buffer was filled, the stream
was already exhausted, or it ended after a non-empty proper part. -/
inductive ReadResult where
  | full (data rest : Bytes)
  | eof
  | unexpectedEof (got : Bytes)
deriving DecidableEq, Repr

/-- `io.ReadFull` on the unread part of a stream.  An empty buffer is filled
without looking at the stream, so it never reports the end of the stream. -/
def readFull (n : Nat) (stream : Bytes) : ReadResult :=
  if n ≤ stream.length then .full (stream.take n) (stream.drop n)
  else if stream = [] then .eof
  else .unexpectedEof stream

theorem readFull_append (data rest : Bytes) :
    readFull data.length (data ++ rest) = .full data rest := by
  simp [readFull]

theorem readFull_append_of_length {n : Nat} {data : Bytes} (h : data.length = n)
    (rest : Bytes) : readFull n (data ++ rest) = .full data rest := by
  subst h; exact readFull_append data rest

theorem readFull_nil {n : Nat} (h : 0 < n) : readFull n [] = .eof := by
  simp [readFull]; omega

theorem readFull_short {n : Nat} {stream : Bytes} (hne : stream ≠ [])
    (hlt : stream.length < n) : readFull n stream = .unexpectedEof stream := by
  simp [readFull, hne, Nat.not_le.mpr hlt]

theorem readFull_eq_full {n : Nat} {stream data rest : Bytes}
    (h : readFull n stream = .full data rest) :
    stream = data ++ rest ∧ data.length = n := by
  unfold readFull at h
  split at h
  · rename_i hle
    injection h with hdata hrest
    subst hdata hrest
    exact ⟨(List.take_append_drop n stream).symm, by simp [hle]⟩
  · split at h <;> simp at h

theorem readFull_eq_eof {n : Nat} {stream : Bytes} (h : readFull n stream = .eof) :
    stream = [] ∧ 0 < n := by
  unfold readFull at h
  split at h
  · simp at h
  · rename_i hle
    split at h
    · rename_i hnil
      exact ⟨hnil, by subst hnil; simp at hle; omega⟩
    · simp at h

theorem readFull_eq_unexpectedEof {n : Nat} {stream got : Bytes}
    (h : readFull n stream = .unexpectedEof got) :
    got = stream ∧ stream ≠ [] ∧ stream.length < n := by
  unfold readFull at h
  split at h
  · simp at h
  · rename_i hle
    split at h
    · simp at h
    · rename_i hne
      injection h with hgot
      exact ⟨hgot.symm, hne, Nat.not_le.mp hle⟩

end RaftExample
