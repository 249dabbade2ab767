import RaftExample.UnixPath
import Mathlib.Data.List.Infix

/-!
# A file system under faults and crashes

Directories hold plain files and the files of embedded databases.  The latter are
opaque: a database directory carries the content a database opened there would
show, and nothing says how the content is spread over files.

A `Proc` is a computation of a process that reads and changes the file system.
Every operation that touches the disk is performed at a named *site*, and the
environment fixes the *fate* of every site: the operation takes effect, it fails
and reports an error, or the process is killed just before it.  Quantifying over
environments therefore quantifies over all failure patterns and over all moments
at which a process can die between two disk operations.  Removing a directory
tree is two operations, because a process can die when some of it is gone.
-/

namespace RaftExample

/-! ### The tree -/

/-- What a directory holds, as far as an embedded database is concerned. -/
inductive DirState (γ : Type) where
  | plain
  | database (content : γ)
  | damaged
deriving DecidableEq, Repr

inductive Node (γ : Type) where
  | file (data : Bytes)
  | dir (state : DirState γ)
deriving DecidableEq, Repr

abbrev FS (γ : Type) := Std.ExtTreeMap Loc (Node γ) compare

inductive FsErr where
  | notExist
  | notDir
  | isDir
  | corrupt
  | io
deriving DecidableEq, Repr

variable {γ : Type}

def FS.set (fs : FS γ) (loc : Loc) (node : Node γ) : FS γ := fs.insert loc node

def FS.remove (fs : FS γ) (loc : Loc) : FS γ := fs.erase loc

/-- The root always exists. -/
def FS.isDir (fs : FS γ) (loc : Loc) : Bool :=
  match loc, fs[loc]? with
  | [], _ => true
  | _, some (.dir _) => true
  | _, _ => false

/-- Everything strictly below `loc`. -/
def below (loc other : Loc) : Bool := loc.isPrefixOf other && other != loc

/-- The entries of a directory, in the order of the tree. -/
def FS.entries (fs : FS γ) (loc : Loc) : List (Name × Bool) :=
  fs.toList.filterMap fun entry =>
    match entry.1.getLast? with
    | some name =>
        if entry.1.dropLast = loc then
          some (name, match entry.2 with | .dir _ => true | .file _ => false)
        else none
    | none => none

/-- Make `loc` and its missing ancestors directories. -/
def FS.mkdirAll (fs : FS γ) (loc : Loc) : FS γ :=
  (loc.inits.drop 1).foldl (fun fs ancestor =>
    if fs.isDir ancestor then fs else fs.set ancestor (.dir .plain)) fs

/-- A plain file stands where an ancestor of `loc`, or `loc`, has to be a directory. -/
def FS.blocked (fs : FS γ) (loc : Loc) : Bool :=
  (loc.inits.drop 1).any fun ancestor => match fs[ancestor]? with | some (.file _) => true | _ => false

/-- Unlink what is inside a directory, its database files included. -/
def FS.unlinkContents (fs : FS γ) (loc : Loc) : FS γ :=
  let kept : FS γ := fs.filter fun other _ => !below loc other
  match fs[loc]? with
  | some (.dir (.database _)) => kept.set loc (.dir .damaged)
  | _ => kept

/-- Unlink an entry and what is still below it. -/
def FS.unlink (fs : FS γ) (loc : Loc) : FS γ :=
  fs.filter fun other _ => !loc.isPrefixOf other

/-! ### Lookups after an update -/

theorem FS.lookup_set (fs : FS γ) (loc other : Loc) (node : Node γ) :
    (fs.set loc node)[other]? = if loc = other then some node else fs[other]? := by
  rw [FS.set, Std.ExtTreeMap.getElem?_insert]
  simp only [Std.compare_eq_iff_eq]

@[simp] theorem FS.lookup_set_self (fs : FS γ) (loc : Loc) (node : Node γ) :
    (fs.set loc node)[loc]? = some node := by
  rw [FS.lookup_set, if_pos rfl]

theorem FS.lookup_set_ne (fs : FS γ) {loc other : Loc} (h : loc ≠ other) (node : Node γ) :
    (fs.set loc node)[other]? = fs[other]? := by
  rw [FS.lookup_set, if_neg h]

theorem FS.lookup_remove (fs : FS γ) (loc other : Loc) :
    (fs.remove loc)[other]? = if loc = other then none else fs[other]? := by
  rw [FS.remove, Std.ExtTreeMap.getElem?_erase]
  simp only [Std.compare_eq_iff_eq]

theorem not_isPrefixOf {loc other : Loc} (h : ¬ loc <+: other) :
    loc.isPrefixOf other = false := by
  rw [← Bool.not_eq_true]
  exact fun htrue => h (List.isPrefixOf_iff_prefix.mp htrue)

theorem FS.lookup_unlink (fs : FS γ) (loc other : Loc) :
    (fs.unlink loc)[other]? = if loc <+: other then none else fs[other]? := by
  rw [FS.unlink, Std.ExtTreeMap.getElem?_filter']
  by_cases h : loc <+: other
  · have htrue : loc.isPrefixOf other = true := List.isPrefixOf_iff_prefix.mpr h
    cases hnode : fs[other]? <;> simp [h, htrue]
  · cases hnode : fs[other]? <;> simp [h, not_isPrefixOf h]

/-- Outside the tree under `loc`, unlinking its contents changes nothing. -/
theorem FS.lookup_unlinkContents_of_not_prefix (fs : FS γ) {loc other : Loc}
    (h : ¬ loc <+: other) : (fs.unlinkContents loc)[other]? = fs[other]? := by
  have hkept : (fs.filter fun other _ => !below loc other)[other]? = fs[other]? := by
    rw [Std.ExtTreeMap.getElem?_filter']
    cases hnode : fs[other]? <;> simp [below, not_isPrefixOf h]
  have hne : loc ≠ other := fun heq => h (heq ▸ List.prefix_refl loc)
  unfold FS.unlinkContents
  split
  · rw [FS.lookup_set_ne _ hne, hkept]
  · exact hkept

theorem FS.isDir_congr {fs fs' : FS γ} {loc : Loc} (h : fs[loc]? = fs'[loc]?) :
    fs.isDir loc = fs'.isDir loc := by
  unfold FS.isDir
  rw [h]

theorem FS.isDir_iff {fs : FS γ} {loc : Loc} :
    fs.isDir loc = true ↔ loc = [] ∨ ∃ state, fs[loc]? = some (.dir state) := by
  unfold FS.isDir
  split
  · simp
  · rename_i state hne hnode
    simp [hnode]
  · rename_i hne hnode
    constructor
    · simp
    · rintro (hroot | ⟨state, hstate⟩)
      · exact absurd hroot hne
      · exact absurd hstate (hnode state)

theorem FS.isDir_of_lookup {fs : FS γ} {loc : Loc} {state : DirState γ}
    (h : fs[loc]? = some (.dir state)) : fs.isDir loc = true :=
  FS.isDir_iff.mpr (.inr ⟨state, h⟩)

/-- An entry of a directory that is missing or a file is not a directory. -/
theorem FS.isDir_concat_eq_false {fs : FS γ} {base : Loc} {name : Name}
    (h : ∀ state, fs[base ++ [name]]? ≠ some (.dir state)) :
    fs.isDir (base ++ [name]) = false := by
  rw [← Bool.not_eq_true, FS.isDir_iff]
  rintro (hroot | ⟨state, hstate⟩)
  · simp at hroot
  · exact h state hstate

theorem FS.isDir_set_dir (fs : FS γ) (loc : Loc) (state : DirState γ) {other : Loc}
    (h : fs.isDir other = true) : (fs.set loc (.dir state)).isDir other = true := by
  by_cases heq : loc = other
  · subst heq
    exact FS.isDir_of_lookup (FS.lookup_set_self ..)
  · rw [← h]
    exact FS.isDir_congr (FS.lookup_set_ne fs heq _)

/-- Unlinking makes no directories. -/
theorem FS.isDir_of_unlink {fs : FS γ} {loc other : Loc}
    (h : (fs.unlink loc).isDir other = true) : fs.isDir other = true := by
  rw [FS.isDir_iff] at h ⊢
  rcases h with hroot | ⟨state, hstate⟩
  · exact .inl hroot
  · rw [FS.lookup_unlink] at hstate
    split at hstate
    · simp at hstate
    · exact .inr ⟨state, hstate⟩

theorem FS.isDir_of_unlinkContents {fs : FS γ} {loc other : Loc}
    (h : (fs.unlinkContents loc).isDir other = true) : fs.isDir other = true := by
  have hkept : ∀ state, (fs.filter fun other _ => !below loc other : FS γ)[other]? =
      some (.dir state) → fs[other]? = some (.dir state) := by
    intro state hstate
    rw [Std.ExtTreeMap.getElem?_filter', Option.filter_eq_some_iff] at hstate
    exact hstate.1
  rw [FS.isDir_iff] at h ⊢
  rcases h with hroot | ⟨state, hstate⟩
  · exact .inl hroot
  · right
    unfold FS.unlinkContents at hstate
    split at hstate
    · rename_i hdatabase
      rw [FS.lookup_set] at hstate
      split at hstate
      · rename_i heq
        exact ⟨_, heq ▸ hdatabase⟩
      · exact ⟨state, hkept state hstate⟩
    · exact ⟨state, hkept state hstate⟩

/-- The listing of a directory, read off the tree. -/
theorem FS.mem_entries (fs : FS γ) (loc : Loc) (name : Name) (flag : Bool) :
    (name, flag) ∈ fs.entries loc ↔
      ∃ node, fs[loc ++ [name]]? = some node ∧
        flag = (match node with | .dir _ => true | .file _ => false) := by
  unfold FS.entries
  rw [List.mem_filterMap]
  constructor
  · rintro ⟨⟨path, node⟩, hmem, hentry⟩
    rw [Std.ExtTreeMap.mem_toList_iff_getElem?_eq_some] at hmem
    rcases List.eq_nil_or_concat path with rfl | ⟨parent, last, rfl⟩
    · simp at hentry
    · rw [List.concat_eq_append] at hmem hentry
      simp only [List.getLast?_concat, List.dropLast_concat] at hentry
      split at hentry
      · rename_i hparent
        simp only [Option.some.injEq, Prod.mk.injEq] at hentry
        obtain ⟨rfl, rfl⟩ := hentry
        exact ⟨node, hparent ▸ hmem, rfl⟩
      · simp at hentry
  · rintro ⟨node, hnode, rfl⟩
    refine ⟨(loc ++ [name], node), Std.ExtTreeMap.mem_toList_iff_getElem?_eq_some.mpr hnode, ?_⟩
    simp

theorem FS.mkdirAll_of_isDir (fs : FS γ) {loc : Loc}
    (h : ∀ ancestor, ancestor <+: loc → fs.isDir ancestor = true) : fs.mkdirAll loc = fs := by
  have hfold : ∀ paths : List Loc, (∀ path ∈ paths, path <+: loc) →
      paths.foldl (fun fs ancestor =>
        if fs.isDir ancestor then fs else fs.set ancestor (.dir .plain)) fs = fs := by
    intro paths hpaths
    induction paths with
    | nil => rfl
    | cons path rest ih =>
        rw [List.foldl_cons, if_pos (h path (hpaths path (by simp)))]
        exact ih fun p hp => hpaths p (by simp [hp])
  exact hfold _ fun path hpath => (List.mem_inits _ _).mp (List.mem_of_mem_drop hpath)

/-- Making directories touches the ancestors of the location only. -/
theorem FS.lookup_mkdirAll_of_not_prefix (fs : FS γ) {loc other : Loc} (h : ¬ other <+: loc) :
    (fs.mkdirAll loc)[other]? = fs[other]? := by
  have hfold : ∀ (paths : List Loc) (fs : FS γ), (∀ path ∈ paths, path <+: loc) →
      (paths.foldl (fun fs ancestor =>
        if fs.isDir ancestor then fs else fs.set ancestor (.dir .plain)) fs)[other]? =
        fs[other]? := by
    intro paths
    induction paths with
    | nil => intro fs _; rfl
    | cons path rest ih =>
        intro fs hpaths
        have hne : path ≠ other := by
          rintro rfl
          exact h (hpaths path (by simp))
        rw [List.foldl_cons, ih _ fun p hp => hpaths p (by simp [hp])]
        split
        · rfl
        · exact FS.lookup_set_ne fs hne _
  exact hfold _ fs fun path hpath => (List.mem_inits _ _).mp (List.mem_of_mem_drop hpath)

/-- Afterwards they all are directories. -/
theorem FS.isDir_mkdirAll (fs : FS γ) {loc ancestor : Loc} (h : ancestor <+: loc) :
    (fs.mkdirAll loc).isDir ancestor = true := by
  have hfold : ∀ (paths : List Loc) (fs : FS γ), ancestor ∈ paths ∨ fs.isDir ancestor = true →
      (paths.foldl (fun fs ancestor =>
        if fs.isDir ancestor then fs else fs.set ancestor (.dir .plain)) fs).isDir ancestor =
        true := by
    intro paths
    induction paths with
    | nil =>
        rintro fs (hmem | hdir)
        · simp at hmem
        · exact hdir
    | cons path rest ih =>
        intro fs hor
        rw [List.foldl_cons]
        apply ih
        rcases hor with hmem | hdir
        · rcases List.mem_cons.mp hmem with rfl | hmem
          · right
            split
            · assumption
            · exact FS.isDir_of_lookup (FS.lookup_set_self ..)
          · exact .inl hmem
        · right
          split
          · exact hdir
          · exact FS.isDir_set_dir fs path .plain hdir
  apply hfold
  by_cases hroot : ancestor = []
  · subst hroot
    exact .inr rfl
  · left
    have hmem := (List.mem_inits _ _).mpr h
    cases loc with
    | nil => simp_all
    | cons name rest => simpa [hroot] using hmem

/-- Making a directory whose ancestors are there adds that directory only. -/
theorem FS.mkdirAll_concat (fs : FS γ) {base : Loc} {name : Name}
    (h : ∀ ancestor, ancestor <+: base → fs.isDir ancestor = true)
    (hnew : fs.isDir (base ++ [name]) = false) :
    fs.mkdirAll (base ++ [name]) = fs.set (base ++ [name]) (.dir .plain) := by
  have hinits : (base ++ [name]).inits.drop 1 = base.inits.drop 1 ++ [base ++ [name]] := by
    rw [List.inits_append, List.drop_append_of_le_length (by simp)]
    simp
  have hbase := FS.mkdirAll_of_isDir fs h
  unfold FS.mkdirAll at hbase ⊢
  rw [hinits, List.foldl_append, hbase]
  simp [hnew]

theorem FS.blocked_eq_false (fs : FS γ) {loc : Loc}
    (h : ∀ ancestor, ancestor <+: loc → fs.isDir ancestor = true ∨ fs[ancestor]? = none) :
    fs.blocked loc = false := by
  unfold FS.blocked
  rw [List.any_eq_false]
  intro ancestor hmem
  have habove := (List.mem_inits _ _).mp (List.mem_of_mem_drop hmem)
  have hne : ancestor ≠ [] := by
    rintro rfl
    cases loc <;> simp at hmem
  rcases h ancestor habove with hdir | hnone
  · unfold FS.isDir at hdir
    split at hdir
    · exact absurd rfl hne
    · rename_i heq; simp [heq]
    · simp at hdir
  · simp [hnone]

/-- A location made of a directory and one more name is not above the directory. -/
theorem not_concat_prefix_of_prefix {base loc : Loc} {name : Name} (h : loc <+: base) :
    ¬ (base ++ [name]) <+: loc := by
  intro habove
  have hlen := (habove.trans h).length_le
  simp at hlen

theorem concat_prefix_concat {base : Loc} {left right : Name}
    (h : (base ++ [left]) <+: (base ++ [right])) : left = right := by
  have heq := h.eq_of_length (by simp)
  simpa using heq

/-! ### Frames -/

/-- The two trees agree on the locations that satisfy `kept`. -/
def FS.Keeps (kept : Loc → Prop) (fs fs' : FS γ) : Prop :=
  ∀ loc, kept loc → fs'[loc]? = fs[loc]?

namespace FS.Keeps

variable {kept kept' : Loc → Prop} {fs fs' fs'' : FS γ} {loc : Loc}

theorem refl (fs : FS γ) : FS.Keeps kept fs fs := fun _ _ => rfl

theorem trans (h : FS.Keeps kept fs fs') (h' : FS.Keeps kept fs' fs'') :
    FS.Keeps kept fs fs'' := fun loc hloc => (h' loc hloc).trans (h loc hloc)

theorem mono (h : FS.Keeps kept fs fs') (hsub : ∀ loc, kept' loc → kept loc) :
    FS.Keeps kept' fs fs' := fun loc hloc => h loc (hsub loc hloc)

theorem set (fs : FS γ) (hloc : ¬ kept loc) (node : Node γ) :
    FS.Keeps kept fs (fs.set loc node) := by
  intro other hother
  have hne : loc ≠ other := by rintro rfl; exact hloc hother
  exact FS.lookup_set_ne fs hne node

theorem unlink (fs : FS γ) (hloc : ∀ other, loc <+: other → ¬ kept other) :
    FS.Keeps kept fs (fs.unlink loc) := by
  intro other hother
  rw [FS.lookup_unlink, if_neg fun habove => hloc other habove hother]

theorem unlinkContents (fs : FS γ) (hloc : ∀ other, loc <+: other → ¬ kept other) :
    FS.Keeps kept fs (fs.unlinkContents loc) := fun other hother =>
  FS.lookup_unlinkContents_of_not_prefix fs fun habove => hloc other habove hother

theorem isDir (h : FS.Keeps kept fs fs') (hloc : kept loc) : fs'.isDir loc = fs.isDir loc :=
  FS.isDir_congr (h loc hloc)

end FS.Keeps

/-- Only the tree under `loc` is touched, and no directory is made. -/
def FS.Prunes (loc : Loc) (fs fs' : FS γ) : Prop :=
  FS.Keeps (fun other => ¬ loc <+: other) fs fs' ∧
    ∀ other, fs'.isDir other = true → fs.isDir other = true

/-! ### Computations of a process -/

inductive Fate where
  | ok
  | fail
  | crash
deriving DecidableEq, Repr

structure Env (ι : Type) where
  cwd : Loc
  fate : ι → Fate

/-- How a computation ends: with a value, in a panic nobody recovers from, or
    because the process was killed. -/
inductive Outcome (α : Type) where
  | value (a : α)
  | panic
  | crashed
deriving DecidableEq, Repr

def Proc (ι γ α : Type) := Env ι → FS γ → Outcome α × FS γ

namespace Proc

variable {ι α β : Type}

def pure (a : α) : Proc ι γ α := fun _ fs => (.value a, fs)

def bind (m : Proc ι γ α) (f : α → Proc ι γ β) : Proc ι γ β := fun env fs =>
  match m env fs with
  | (.value a, fs') => f a env fs'
  | (.panic, fs') => (.panic, fs')
  | (.crashed, fs') => (.crashed, fs')

instance : Monad (Proc ι γ) where
  pure := Proc.pure
  bind := Proc.bind

def panic : Proc ι γ α := fun _ fs => (.panic, fs)

/-- Look at open files without touching the disk. -/
def look (f : FS γ → α) : Proc ι γ α := fun _ fs => (.value (f fs), fs)

/-- One disk operation at a site.  A failing operation has no effect. -/
def perform (site : ι) (effect : Loc → FS γ → Except FsErr α × FS γ) :
    Proc ι γ (Except FsErr α) := fun env fs =>
  match env.fate site with
  | .ok => (.value (effect env.cwd fs).1, (effect env.cwd fs).2)
  | .fail => (.value (.error .io), fs)
  | .crash => (.crashed, fs)

def stat (site : ι) (path : Bytes) : Proc ι γ (Except FsErr Unit) :=
  perform site fun cwd fs =>
    let loc := resolve cwd path
    (if fs.isDir loc || fs.contains loc then .ok () else .error .notExist, fs)

def mkdirAll (site : ι) (path : Bytes) : Proc ι γ (Except FsErr Unit) :=
  perform site fun cwd fs =>
    let loc := resolve cwd path
    if fs.blocked loc then (.error .notDir, fs) else (.ok (), fs.mkdirAll loc)

/-- Create a file, or truncate the one that is there. -/
def create (site : ι) (path : Bytes) : Proc ι γ (Except FsErr Unit) :=
  perform site fun cwd fs =>
    let loc := resolve cwd path
    if fs.isDir loc then (.error .isDir, fs)
    else if fs.isDir loc.dropLast then (.ok (), fs.set loc (.file []))
    else (.error .notExist, fs)

def write (site : ι) (path : Bytes) (data : Bytes) : Proc ι γ (Except FsErr Unit) :=
  perform site fun cwd fs =>
    let loc := resolve cwd path
    match fs[loc]? with
    | some (.file old) => (.ok (), fs.set loc (.file (old ++ data)))
    | _ => (.error .notExist, fs)

/-- An operation that makes durable what is already visible, or closes a handle. -/
def settle (site : ι) : Proc ι γ (Except FsErr Unit) :=
  perform site fun _ fs => (.ok (), fs)

def readFile (site : ι) (path : Bytes) : Proc ι γ (Except FsErr Bytes) :=
  perform site fun cwd fs =>
    match fs[resolve cwd path]? with
    | some (.file data) => (.ok data, fs)
    | some (.dir _) => (.error .isDir, fs)
    | none => (.error .notExist, fs)

def readDir (site : ι) (path : Bytes) : Proc ι γ (Except FsErr (List (Name × Bool))) :=
  perform site fun cwd fs =>
    let loc := resolve cwd path
    if fs.isDir loc then (.ok (fs.entries loc), fs) else (.error .notDir, fs)

/-- Renaming a file replaces the target in one step. -/
def rename (site : ι) (source target : Bytes) : Proc ι γ (Except FsErr Unit) :=
  perform site fun cwd fs =>
    match fs[resolve cwd source]? with
    | some (.file data) =>
        (.ok (), (fs.remove (resolve cwd source)).set (resolve cwd target) (.file data))
    | _ => (.error .notExist, fs)

/-- Flush a directory's entries to disk.  A missing directory is an error, a plain
    file is not. -/
def syncDir (site : ι) (path : Bytes) : Proc ι γ (Except FsErr Unit) :=
  perform site fun cwd fs =>
    let loc := resolve cwd path
    (if fs.isDir loc || fs.contains loc then .ok () else .error .notExist, fs)

/-- Remove a tree: what is inside first, the entry itself last.  Removing what
    does not exist succeeds. -/
def removeAll (contents entry : ι) (path : Bytes) : Proc ι γ (Except FsErr Unit) := do
  match ← perform contents fun cwd fs => (.ok (), fs.unlinkContents (resolve cwd path)) with
  | .error e => return .error e
  | .ok () => perform entry fun cwd fs => (.ok (), fs.unlink (resolve cwd path))

/-- Open the database in a directory, creating both when they are missing.  The
    handle is the location: it stays valid when the working directory changes. -/
def openDatabase [EmptyCollection γ] (makeDir initDb : ι) (path : Bytes) :
    Proc ι γ (Except FsErr Loc) := do
  match ← mkdirAll makeDir path with
  | .error e => return .error e
  | .ok () => perform initDb fun cwd fs =>
      let loc := resolve cwd path
      match fs[loc]? with
      | some (.dir .plain) => (.ok loc, fs.set loc (.dir (.database ∅)))
      | some (.dir (.database _)) => (.ok loc, fs)
      | _ => (.error .corrupt, fs)

/-- Apply one batch to an open database, all of it or nothing. -/
def commit (site : ι) (handle : Loc) (batch : γ → γ) : Proc ι γ (Except FsErr Unit) :=
  perform site fun _ fs =>
    match fs[handle]? with
    | some (.dir (.database content)) =>
        (.ok (), fs.set handle (.dir (.database (batch content))))
    | _ => (.error .corrupt, fs)

/-! ### Running -/

@[simp] theorem pure_run (a : α) (env : Env ι) (fs : FS γ) :
    (Pure.pure a : Proc ι γ α) env fs = (.value a, fs) := rfl

theorem bind_run (m : Proc ι γ α) (f : α → Proc ι γ β) (env : Env ι) (fs : FS γ) :
    (m >>= f) env fs = match m env fs with
      | (.value a, fs') => f a env fs'
      | (.panic, fs') => (.panic, fs')
      | (.crashed, fs') => (.crashed, fs') := rfl

theorem run_of_outcome {m : Proc ι γ α} {env : Env ι} {fs : FS γ} {outcome : Outcome α}
    (h : (m env fs).1 = outcome) : m env fs = (outcome, (m env fs).2) := by
  rw [← h]

theorem perform_ok {site : ι} {env : Env ι} (h : env.fate site = .ok)
    (effect : Loc → FS γ → Except FsErr α × FS γ) (fs : FS γ) :
    perform site effect env fs = (.value (effect env.cwd fs).1, (effect env.cwd fs).2) := by
  simp [perform, h]

theorem perform_fail {site : ι} {env : Env ι} (h : env.fate site = .fail)
    (effect : Loc → FS γ → Except FsErr α × FS γ) (fs : FS γ) :
    perform site effect env fs = (.value (.error .io), fs) := by
  simp [perform, h]

theorem perform_crash {site : ι} {env : Env ι} (h : env.fate site = .crash)
    (effect : Loc → FS γ → Except FsErr α × FS γ) (fs : FS γ) :
    perform site effect env fs = (.crashed, fs) := by
  simp [perform, h]

end Proc

end RaftExample
