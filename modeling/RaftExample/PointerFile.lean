import RaftExample.StoreBase
import RaftExample.Digest

/-!
# The pointer to the current database directory

A node keeps its database in a directory with a generated name and records the
path of the current one in a small file, `pebble.running`: eight bytes of MD5,
then the path.  A new path is written to `pebble.updating` first and renamed into
place.  On a restart everything the pointer does not name is removed.  This is
`fsm/utils.go`, with the disk operations at their sites.
-/

namespace RaftExample

/-- `pebble.running` -/
def currentDBFilename : Name :=
  ⟨[112, 101, 98, 98, 108, 101, 46, 114, 117, 110, 110, 105, 110, 103], by decide⟩

/-- `pebble.updating` -/
def updatingDBFilename : Name :=
  ⟨[112, 101, 98, 98, 108, 101, 46, 117, 112, 100, 97, 116, 105, 110, 103], by decide⟩

/-- Errors of the operating system are passed on as they are. -/
def Err.ofFs : Except FsErr Unit → Except Err Unit
  | .ok () => .ok ()
  | .error e => .error (.fs e)

/-- Only a definite "does not exist" counts: any other error makes the program
    believe that a pointer is there. -/
def isNewRun (dir : Bytes) : Disk Bool := do
  match ← Proc.stat .statRunning (join dir currentDBFilename.bytes) with
  | .error .notExist => return true
  | _ => return false

def getNewRandomDBDirName (dir : Bytes) (stamp : Stamp) : Bytes :=
  join dir (stampName stamp).bytes

def replaceCurrentDBFile (dir : Bytes) : Disk (Except Err Unit) := do
  match ← Proc.rename .renameUpdating (join dir updatingDBFilename.bytes)
      (join dir currentDBFilename.bytes) with
  | .error e => return .error (.fs e)
  | .ok () => return Err.ofFs (← Proc.syncDir .syncReplaced dir)

/-- What the pointer file for `dbdir` contains. -/
def pointerContent (dbdir : Bytes) : Bytes := (md5 dbdir).take 8 ++ dbdir

/-- The two writes and the flush of the pointer file. -/
def writePointer (file dbdir : Bytes) : Disk (Except Err Unit) := do
  match ← Proc.write .writeSum file ((md5 dbdir).take 8) with
  | .error e => return .error (.fs e)
  | .ok () =>
    match ← Proc.write .writeName file dbdir with
    | .error e => return .error (.fs e)
    | .ok () => return Err.ofFs (← Proc.settle .syncUpdating)

def saveCurrentDBDirName (dir dbdir : Bytes) : Disk (Except Err Unit) := do
  match ← Proc.create .createUpdating (join dir updatingDBFilename.bytes) with
  | .error e => return .error (.fs e)
  | .ok () =>
    let result ← writePointer (join dir updatingDBFilename.bytes) dbdir
    -- the deferred close and directory flush run on every exit and panic on failure
    match ← Proc.settle .closeUpdating with
    | .error _ => Proc.panic
    | .ok () =>
      match ← Proc.syncDir .syncSaved dir with
      | .error _ => Proc.panic
      | .ok () => return result

/-- The check of the pointer file's content. -/
def decodePointer (data : Bytes) : Except Err Bytes :=
  if data.length ≤ 8 then .error .corruptedContent
  else if data.take 8 ≠ (md5 (data.drop 8)).take 8 then .error .corruptedSum
  else .ok (data.drop 8)

def getCurrentDBDirName (reader : PointerReader) (dir : Bytes) : Disk (Except Err Bytes) := do
  match ← Proc.readFile (.readPointer reader) (join dir currentDBFilename.bytes) with
  | .error e => return .error (.fs e)
  | .ok data => return decodePointer data

/-- Remove the listed directories that are not the current one.  The comparison is
    between path strings. -/
def removeStrays (dir dbdir : Bytes) : List (Name × Bool) → Disk (Except Err Unit)
  | [] => return .ok ()
  | (name, isDirectory) :: files =>
      if isDirectory = false ∨ join dir name.bytes = dbdir then removeStrays dir dbdir files
      else do
        match ← Proc.removeAll (.removeStray name .contents) (.removeStray name .entry)
            (join dir name.bytes) with
        | .error e => return .error (.fs e)
        | .ok () => removeStrays dir dbdir files

def cleanupNodeDataDir (dir : Bytes) : Disk (Except Err Unit) := do
  let _ ← Proc.removeAll (.removeUpdating .contents) (.removeUpdating .entry)
    (join dir updatingDBFilename.bytes)
  match ← getCurrentDBDirName .cleanup dir with
  | .error e => return .error e
  | .ok dbdir =>
    match ← Proc.readDir .listBase dir with
    | .error e => return .error (.fs e)
    | .ok files => removeStrays dir dbdir files

/-- The branch of a first start: publish a fresh name, which nobody has created yet. -/
def publishFreshDir (dir : Bytes) (stamp : Stamp) : Disk (Except Err Bytes) := do
  let dbdir := getNewRandomDBDirName dir stamp
  match ← saveCurrentDBDirName dir dbdir with
  | .error e => return .error e
  | .ok () =>
    match ← replaceCurrentDBFile dir with
    | .error e => return .error e
    | .ok () => return .ok dbdir

/-- The branch of a restart: clean up, and insist that the named directory exists. -/
def reuseCurrentDir (dir : Bytes) : Disk (Except Err Bytes) := do
  match ← cleanupNodeDataDir dir with
  | .error e => return .error e
  | .ok () =>
    match ← getCurrentDBDirName .startup dir with
    | .error e => return .error e
    | .ok dbdir =>
      match ← Proc.stat .statCurrent dbdir with
      | .error .notExist => return .error .dbDirDeleted
      | _ => return .ok dbdir

def getPebbleDBDir (dir : Bytes) (stamp : Stamp) : Disk (Except Err Bytes) := do
  if ← isNewRun dir then publishFreshDir dir stamp else reuseCurrentDir dir

/-! ### The pointer's check -/

@[simp] theorem length_take_md5 (data : Bytes) : ((md5 data).take 8).length = 8 := by simp

/-- The check accepts what the writer wrote. -/
theorem decodePointer_pointerContent {dbdir : Bytes} (h : dbdir ≠ []) :
    decodePointer (pointerContent dbdir) = .ok dbdir := by
  have hlen : 0 < dbdir.length := List.length_pos_iff.mpr h
  have htake : (pointerContent dbdir).take 8 = (md5 dbdir).take 8 :=
    List.take_left' (length_take_md5 dbdir)
  have hdrop : (pointerContent dbdir).drop 8 = dbdir := List.drop_left' (length_take_md5 dbdir)
  unfold decodePointer
  rw [if_neg, hdrop, htake, if_neg]
  · simp
  · simp [pointerContent]; omega

theorem join_name_ne_nil (dir : Bytes) (name : Name) : join dir name.bytes ≠ [] := by
  intro h
  have hloc := resolve_join [] dir name
  rw [h, resolve_nil] at hloc
  simp at hloc

/-- Different directories have different pointer files. -/
theorem pointerContent_join_injective (dir : Bytes) {left right : Name}
    (h : pointerContent (join dir left.bytes) = pointerContent (join dir right.bytes)) :
    left = right := by
  have hleft := decodePointer_pointerContent (join_name_ne_nil dir left)
  rw [h, decodePointer_pointerContent (join_name_ne_nil dir right)] at hleft
  injection hleft with hjoin
  exact (join_injective dir hjoin).symm

end RaftExample
