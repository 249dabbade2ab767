import RaftExample.CrashLogic

/-!
# Vocabulary of the `fsm` package

The content of a Pebble database, the errors the package reports, and the places
in its source where the disk is touched.  A `Disk` computation is a piece of the
package that performs its disk operations at those places.
-/

namespace RaftExample

/-- The content of a Pebble database: byte strings under byte strings, iterated in
    key order. -/
abbrev KV := Std.ExtTreeMap Bytes Bytes compare

inductive ReadErr where
  | eof
  | unexpectedEof
deriving DecidableEq, Repr

inductive HeaderErr where
  | readHeader (e : ReadErr)
  | invalidMagic (expected got : UInt32)
  | unsupportedVersion (version supported : UInt32)
  | readNodeId (e : ReadErr)
  | readChecksum (e : ReadErr)
deriving DecidableEq, Repr

inductive Err where
  | fs (e : FsErr)
  | closed
  | corruptedContent
  | corruptedSum
  | dbDirDeleted
  | header (e : HeaderErr)
  | checksumMismatch (expected actual : Nat)
  | partialRead (n : Nat)
  | read (e : ReadErr)
  | invalidKeyLength (n : Nat)
  | decompress
  | newIter
  | sinkWrite
  | compress
  | iterator
  | sinkClose
  | badCommand
  | badPayload
  | undefinedCommand
deriving DecidableEq, Repr

/-- The two halves of removing a directory tree. -/
inductive Phase where
  | contents
  | entry
deriving DecidableEq, Repr

/-- The three callers of `getCurrentDBDirName`. -/
inductive PointerReader where
  | cleanup
  | startup
  | restore
deriving DecidableEq, Repr

/-- Where the package touches the disk.  Operations inside loops carry the number
    or the name that tells their executions apart. -/
inductive Site where
  -- newStore and getPebbleDBDir
  | mkdirBase
  | statRunning
  | statCurrent
  -- saveCurrentDBDirName
  | createUpdating
  | writeSum
  | writeName
  | syncUpdating
  | closeUpdating
  | syncSaved
  -- replaceCurrentDBFile
  | renameUpdating
  | syncReplaced
  -- getCurrentDBDirName
  | readPointer (reader : PointerReader)
  -- cleanupNodeDataDir
  | removeUpdating (phase : Phase)
  | listBase
  | removeStray (name : Name) (phase : Phase)
  -- OpenPebbleDB
  | makeDbDir
  | initDb
  -- recoverSnapShot
  | put (n : Nat)
  | commit (n : Nat)
  | flushNew
  | closeNew
  | removeNew (phase : Phase)
  | closeOld
  | removeOld (phase : Phase)
  | syncParent
  -- insert
  | commitInsert
deriving DecidableEq

abbrev Disk := Proc Site KV

/-! ### Generated directory names -/

/-- Decimal digits, least significant first; `fuel` bounds their number. -/
def digitsLE : Nat → Nat → Bytes
  | 0, _ => []
  | fuel + 1, n =>
      UInt8.ofNat (48 + n % 10) :: (if n < 10 then [] else digitsLE fuel (n / 10))

/-- The verb `%d` for a natural number. -/
def decimal (n : Nat) : Bytes := (digitsLE (n + 1) n).reverse

/-- The verb `%d` for an integer. -/
def decimalInt (i : Int) : Bytes :=
  if i < 0 then 45 :: decimal i.natAbs else decimal i.natAbs

/-- A random number and the current time in nanoseconds. -/
structure Stamp where
  rn : UInt64
  ct : Int64
deriving DecidableEq, Repr

def stampBytes (stamp : Stamp) : Bytes :=
  decimal stamp.rn.toNat ++ 95 :: decimalInt stamp.ct.toInt

theorem sep_not_mem_digitsLE (fuel n : Nat) : sep ∉ digitsLE fuel n := by
  induction fuel generalizing n with
  | zero => simp [digitsLE]
  | succ fuel ih =>
      have hdigit : UInt8.ofNat (48 + n % 10) ≠ sep := by
        intro heq
        have hnat := congrArg UInt8.toNat heq
        rw [UInt8.toNat_ofNat_of_lt' (by simp [UInt8.size]; omega)] at hnat
        simp only [sep] at hnat
        have : (47 : UInt8).toNat = 47 := rfl
        omega
      rw [digitsLE, List.mem_cons, not_or]
      refine ⟨fun heq => hdigit heq.symm, ?_⟩
      split
      · simp
      · exact ih (n / 10)

theorem sep_not_mem_decimalInt (i : Int) : sep ∉ decimalInt i := by
  unfold decimalInt decimal
  split
  · rw [List.mem_cons, not_or]
    exact ⟨by decide, by simpa using sep_not_mem_digitsLE _ _⟩
  · simpa using sep_not_mem_digitsLE _ _

/-- Whatever the random number and the clock, the generated string names one entry:
    the underscore keeps it from being a dot or two, and digits are no separators. -/
theorem isName_stampBytes (stamp : Stamp) : IsName (stampBytes stamp) := by
  have hunderscore : (95 : UInt8) ∈ stampBytes stamp := by simp [stampBytes]
  refine ⟨?_, ?_, ?_, ?_⟩
  · intro h; rw [h] at hunderscore; simp at hunderscore
  · intro h; rw [h] at hunderscore; simp [dot] at hunderscore
  · intro h; rw [h] at hunderscore; simp [dotdot] at hunderscore
  · unfold stampBytes
    rw [List.mem_append, List.mem_cons, not_or, not_or]
    exact ⟨by simpa [decimal] using sep_not_mem_digitsLE _ _, by decide, sep_not_mem_decimalInt _⟩

def stampName (stamp : Stamp) : Name := ⟨stampBytes stamp, isName_stampBytes stamp⟩

example : stampBytes ⟨0, 1700⟩ = [48, 95, 49, 55, 48, 48] := by decide

/-! ### A node to run the code on -/

def nodeDir : Bytes := [100]

def nodeStamp : Stamp := ⟨0, 1⟩

def restoreStamp : Stamp := ⟨0, 2⟩

end RaftExample
