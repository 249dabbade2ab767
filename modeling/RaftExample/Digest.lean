import RaftExample.ByteCodec

/-!
# CRC-32 and MD5

The two digests the store relies on: the IEEE CRC-32 that trails a snapshot and
the MD5 sum whose first half guards the pointer file.  Both are given as
executable definitions over byte strings.  The CRC is the running checksum of a
hasher, so it is stated with its intermediate value.
-/

namespace RaftExample

/-! ### CRC-32 (IEEE, reflected) -/

def crcPolynomial : BitVec 32 := 0xEDB88320#32

/-- Divide out one bit of the message. -/
def crcBit (crc : BitVec 32) : BitVec 32 :=
  if crc.getLsbD 0 then (crc >>> 1) ^^^ crcPolynomial else crc >>> 1

def crcBits : Nat → BitVec 32 → BitVec 32
  | 0, crc => crc
  | n + 1, crc => crcBits n (crcBit crc)

/-- Fold one byte into the shift register. -/
def crcByte (crc : BitVec 32) (byte : UInt8) : BitVec 32 :=
  crcBits 8 (crc ^^^ byte.toBitVec.setWidth 32)

/-- The `Write` method of the hasher: the register is complemented on the way in
and on the way out, so the stored value is always the checksum so far. -/
def crc32Update (crc : BitVec 32) (data : Bytes) : BitVec 32 :=
  ~~~ (data.foldl crcByte (~~~ crc))

/-- The checksum of a whole message; a fresh hasher holds zero. -/
def crc32 (data : Bytes) : BitVec 32 := crc32Update 0#32 data

@[simp] theorem crc32Update_nil (crc : BitVec 32) : crc32Update crc [] = crc := by
  simp [crc32Update]

/-- Writing in pieces is writing the concatenation. -/
theorem crc32Update_append (crc : BitVec 32) (first second : Bytes) :
    crc32Update (crc32Update crc first) second = crc32Update crc (first ++ second) := by
  simp [crc32Update, List.foldl_append]

example : crc32 [49, 50, 51, 52, 53, 54, 55, 56, 57] = 0xCBF43926#32 := by decide +kernel

/-! ### MD5 -/

def md5Shifts : List (BitVec 32) :=
  let row := fun a b c d : BitVec 32 => [a, b, c, d, a, b, c, d, a, b, c, d, a, b, c, d]
  row 7 12 17 22 ++ row 5 9 14 20 ++ row 4 11 16 23 ++ row 6 10 15 21

/-- The sixty-four additive constants, `⌊2³² · |sin (i + 1)|⌋`. -/
def md5Constants : List (BitVec 32) := [
  0xd76aa478, 0xe8c7b756, 0x242070db, 0xc1bdceee, 0xf57c0faf, 0x4787c62a, 0xa8304613, 0xfd469501,
  0x698098d8, 0x8b44f7af, 0xffff5bb1, 0x895cd7be, 0x6b901122, 0xfd987193, 0xa679438e, 0x49b40821,
  0xf61e2562, 0xc040b340, 0x265e5a51, 0xe9b6c7aa, 0xd62f105d, 0x02441453, 0xd8a1e681, 0xe7d3fbc8,
  0x21e1cde6, 0xc33707d6, 0xf4d50d87, 0x455a14ed, 0xa9e3e905, 0xfcefa3f8, 0x676f02d9, 0x8d2a4c8a,
  0xfffa3942, 0x8771f681, 0x6d9d6122, 0xfde5380c, 0xa4beea44, 0x4bdecfa9, 0xf6bb4b60, 0xbebfbc70,
  0x289b7ec6, 0xeaa127fa, 0xd4ef3085, 0x04881d05, 0xd9d4d039, 0xe6db99e5, 0x1fa27cf8, 0xc4ac5665,
  0xf4292244, 0x432aff97, 0xab9423a7, 0xfc93a039, 0x655b59c3, 0x8f0ccc92, 0xffeff47d, 0x85845dd1,
  0x6fa87e4f, 0xfe2ce6e0, 0xa3014314, 0x4e0811a1, 0xf7537e82, 0xbd3af235, 0x2ad7d2bb, 0xeb86d391]

structure Md5State where
  a : BitVec 32
  b : BitVec 32
  c : BitVec 32
  d : BitVec 32
deriving DecidableEq, Repr

def md5Init : Md5State := ⟨0x67452301, 0xefcdab89, 0x98badcfe, 0x10325476⟩

/-- The non-linear function of a round and the message word it consumes. -/
def md5Mix (i : Nat) (s : Md5State) : BitVec 32 × Nat :=
  if i < 16 then ((s.b &&& s.c) ||| (~~~ s.b &&& s.d), i)
  else if i < 32 then ((s.d &&& s.b) ||| (~~~ s.d &&& s.c), (5 * i + 1) % 16)
  else if i < 48 then (s.b ^^^ s.c ^^^ s.d, (3 * i + 5) % 16)
  else (s.c ^^^ (s.b ||| ~~~ s.d), (7 * i) % 16)

def md5Round (words : List (BitVec 32)) (s : Md5State)
    (step : Nat × BitVec 32 × BitVec 32) : Md5State :=
  let (f, g) := md5Mix step.1 s
  let sum := s.a + f + step.2.1 + words.getD g 0
  let turned := (sum <<< step.2.2) ||| (sum >>> (32 - step.2.2))
  ⟨s.d, s.b + turned, s.b, s.c⟩

/-- Sixteen little-endian words of a block. -/
def md5Words : Nat → Bytes → List (BitVec 32)
  | 0, _ => []
  | n + 1, block => BitVec.ofNat 32 (leNat (block.take 4)) :: md5Words n (block.drop 4)

def md5Block (s : Md5State) (block : Bytes) : Md5State :=
  let steps := (List.range 64).zip (md5Constants.zip md5Shifts)
  let t := steps.foldl (md5Round (md5Words 16 block)) s
  ⟨s.a + t.a, s.b + t.b, s.c + t.c, s.d + t.d⟩

def md5Blocks : Nat → Md5State → Bytes → Md5State
  | 0, s, _ => s
  | n + 1, s, data => md5Blocks n (md5Block s (data.take 64)) (data.drop 64)

/-- The message, a one bit, zeros up to 56 bytes modulo 64, and the bit length. -/
def md5Padded (data : Bytes) : Bytes :=
  let zeros := (119 - data.length % 64) % 64
  data ++ [0x80] ++ List.replicate zeros 0 ++ leBytes 8 (8 * data.length)

def md5 (data : Bytes) : Bytes :=
  let s := md5Blocks ((md5Padded data).length / 64) md5Init (md5Padded data)
  leBytes 4 s.a.toNat ++ leBytes 4 s.b.toNat ++ leBytes 4 s.c.toNat ++ leBytes 4 s.d.toNat

@[simp] theorem length_md5 (data : Bytes) : (md5 data).length = 16 := by
  simp [md5]

example : (md5 []).take 8 = [0xd4, 0x1d, 0x8c, 0xd9, 0x8f, 0x00, 0xb2, 0x04] := by decide +kernel

example : (md5 [0x61, 0x62, 0x63]).take 8 = [0x90, 0x01, 0x50, 0x98, 0x3c, 0xd2, 0x4f, 0xb0] := by
  decide +kernel

end RaftExample
