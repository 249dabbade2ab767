import RaftExample.ByteCodec

/-!
# Unix paths: spellings and locations

A program names files by *spellings*: byte strings with separators, dots and
redundant elements, absolute or relative to a working directory.  A file system
stores them under *locations*: lists of plain names from the root.  This module
gives the lexical operations on spellings (`Clean`, `Join`, `Dir` of a path
library) and the location a spelling denotes, and proves that the lexical
operations do not change what is denoted.  There are no symbolic links here, so
`..` is the parent of a location.
-/

namespace RaftExample

/-! ### Names and locations -/

def sep : UInt8 := 47
def dot : Bytes := [46]
def dotdot : Bytes := [46, 46]

/-- A byte string that names exactly one directory entry. -/
def IsName (name : Bytes) : Prop :=
  name ≠ [] ∧ name ≠ dot ∧ name ≠ dotdot ∧ sep ∉ name

instance (name : Bytes) : Decidable (IsName name) := by unfold IsName; infer_instance

/-- A directory entry's name.  Dots, separators and the empty string are no names,
    so a location built from names needs no further normalisation. -/
structure Name where
  bytes : Bytes
  valid : IsName bytes
deriving DecidableEq

instance : Ord Name := ⟨compareOn Name.bytes⟩

instance : Std.TransOrd Name := inferInstanceAs (Std.TransCmp (compareOn Name.bytes))

instance : Std.LawfulEqOrd Name where
  eq_of_compare {a b} h := by
    have hbytes : a.bytes = b.bytes := Std.LawfulEqOrd.eq_of_compare (α := Bytes) h
    cases a; cases b; simpa using hbytes

abbrev Loc := List Name

/-! ### Splitting and rendering -/

/-- The elements of a spelling, empty ones included. -/
def splitPath : Bytes → List Bytes
  | [] => [[]]
  | byte :: bytes =>
      if byte = sep then [] :: splitPath bytes
      else match splitPath bytes with
        | [] => [[byte]]
        | element :: elements => (byte :: element) :: elements

def joinElements : List Bytes → Bytes
  | [] => []
  | [element] => element
  | element :: elements => element ++ sep :: joinElements elements

def isRooted : Bytes → Bool
  | [] => false
  | byte :: _ => byte == sep

theorem splitPath_ne_nil (path : Bytes) : splitPath path ≠ [] := by
  cases path with
  | nil => simp [splitPath]
  | cons byte bytes =>
      simp only [splitPath]
      split
      · simp
      · split <;> simp

theorem splitPath_append_sep (left right : Bytes) :
    splitPath (left ++ sep :: right) = splitPath left ++ splitPath right := by
  induction left with
  | nil => simp [splitPath]
  | cons byte bytes ih =>
      simp only [List.cons_append, splitPath, ih]
      split
      · rfl
      · rcases hsplit : splitPath bytes with _ | ⟨element, elements⟩
        · exact absurd hsplit (splitPath_ne_nil bytes)
        · rfl

theorem splitPath_of_not_mem {element : Bytes} (h : sep ∉ element) :
    splitPath element = [element] := by
  induction element with
  | nil => rfl
  | cons byte bytes ih =>
      simp only [List.mem_cons, not_or] at h
      rw [splitPath, ih h.2, if_neg (fun heq => h.1 heq.symm)]

theorem sep_not_mem_splitPath (path : Bytes) : ∀ element ∈ splitPath path, sep ∉ element := by
  induction path with
  | nil => simp [splitPath]
  | cons byte bytes ih =>
      intro element h
      simp only [splitPath] at h
      split at h
      · rcases List.mem_cons.mp h with rfl | hmem
        · simp
        · exact ih element hmem
      · rename_i hbyte
        rcases hsplit : splitPath bytes with _ | ⟨head, elements⟩
        · exact absurd hsplit (splitPath_ne_nil bytes)
        · simp only [hsplit, List.mem_cons] at h
          rcases h with rfl | hmem
          · have hhead : sep ∉ head := ih head (by simp [hsplit])
            simp only [List.mem_cons, not_or]
            exact ⟨fun heq => hbyte heq.symm, hhead⟩
          · exact ih element (by simp [hsplit, hmem])

theorem splitPath_joinElements {elements : List Bytes} (hne : elements ≠ [])
    (h : ∀ element ∈ elements, sep ∉ element) :
    splitPath (joinElements elements) = elements := by
  induction elements with
  | nil => exact absurd rfl hne
  | cons element rest ih =>
      cases rest with
      | nil => exact splitPath_of_not_mem (h element (by simp))
      | cons second rest =>
          rw [joinElements, splitPath_append_sep, splitPath_of_not_mem (h element (by simp)),
            ih (by simp) (fun e he => h e (by simp [he]))]
          · rfl
          · simp

/-! ### Lexical cleaning -/

/-- One element of a spelling, folded into the reversed cleaned prefix. -/
def cleanStep (rooted : Bool) (acc : List Bytes) (element : Bytes) : List Bytes :=
  if element = [] ∨ element = dot then acc
  else if element = dotdot then
    match acc with
    | [] => if rooted then [] else [dotdot]
    | top :: rest => if top = dotdot then dotdot :: acc else rest
  else element :: acc

def cleanElements (rooted : Bool) (elements : List Bytes) : List Bytes :=
  (elements.foldl (cleanStep rooted) []).reverse

/-- The spelling of cleaned elements. -/
def renderPath (rooted : Bool) (elements : List Bytes) : Bytes :=
  if rooted then sep :: joinElements elements
  else if elements = [] then dot
  else joinElements elements

/-- `filepath.Clean` on Unix. -/
def clean (path : Bytes) : Bytes :=
  renderPath (isRooted path) (cleanElements (isRooted path) (splitPath path))

/-- `filepath.Join` of a directory and one more element. -/
def join (dir element : Bytes) : Bytes :=
  if dir = [] then (if element = [] then [] else clean element)
  else if element = [] then clean dir
  else clean (dir ++ sep :: element)

/-- `filepath.Dir`: everything up to the last separator, cleaned. -/
def dirOf (path : Bytes) : Bytes :=
  clean (path.reverse.dropWhile (· ≠ sep)).reverse

/-! ### The location a spelling denotes -/

def locStep (loc : Loc) (element : Bytes) : Loc :=
  if h : IsName element then loc ++ [⟨element, h⟩]
  else if element = dotdot then loc.dropLast
  else loc

def resolve (cwd : Loc) (path : Bytes) : Loc :=
  (splitPath path).foldl locStep (if isRooted path then [] else cwd)

@[simp] theorem locStep_nil (loc : Loc) : locStep loc [] = loc := by
  simp [locStep, IsName, dotdot]

@[simp] theorem locStep_dot (loc : Loc) : locStep loc dot = loc := by
  simp [locStep, IsName, dot, dotdot]

@[simp] theorem locStep_dotdot (loc : Loc) : locStep loc dotdot = loc.dropLast := by
  simp [locStep, IsName]

theorem locStep_name (loc : Loc) (name : Name) :
    locStep loc name.bytes = loc ++ [name] := by
  simp [locStep, name.valid]

/-- Cleaned elements are names, or leading parent references. -/
def Cleaned (elements : List Bytes) : Prop :=
  ∀ element ∈ elements, element = dotdot ∨ IsName element

theorem Cleaned.step {acc : List Bytes} (h : Cleaned acc) (rooted : Bool)
    {element : Bytes} (hsep : sep ∉ element) : Cleaned (cleanStep rooted acc element) := by
  intro candidate hcandidate
  unfold cleanStep at hcandidate
  split at hcandidate
  · exact h candidate hcandidate
  · rename_i hskip
    split at hcandidate
    · split at hcandidate
      · split at hcandidate
        · simp at hcandidate
        · exact Or.inl (by simpa using hcandidate)
      · split at hcandidate
        · rcases List.mem_cons.mp hcandidate with heq | hmem
          · exact Or.inl heq
          · exact h candidate hmem
        · exact h candidate (List.mem_cons_of_mem _ hcandidate)
    · rename_i hparent
      rcases List.mem_cons.mp hcandidate with rfl | hmem
      · simp only [not_or] at hskip
        exact Or.inr ⟨hskip.1, hskip.2, hparent, hsep⟩
      · exact h candidate hmem

theorem Cleaned.cleanElements (rooted : Bool) {elements : List Bytes}
    (hsep : ∀ element ∈ elements, sep ∉ element) :
    Cleaned (cleanElements rooted elements) := by
  have hfold : ∀ acc, Cleaned acc → Cleaned (elements.foldl (cleanStep rooted) acc) := by
    induction elements with
    | nil => exact fun acc hacc => hacc
    | cons element rest ih =>
        intro acc hacc
        exact ih (fun e he => hsep e (by simp [he])) _
          (hacc.step rooted (hsep element (by simp)))
  intro element helement
  exact hfold [] (by intro e he; cases he) element (by simpa [RaftExample.cleanElements] using helement)

/-- Folding one element into the cleaned prefix follows it in the tree. -/
theorem resolve_cleanStep {rooted : Bool} {start : Loc} (hstart : rooted = true → start = [])
    {acc : List Bytes} (hacc : Cleaned acc) (element : Bytes) (hsep : sep ∉ element) :
    (cleanStep rooted acc element).reverse.foldl locStep start =
      locStep (acc.reverse.foldl locStep start) element := by
  unfold cleanStep
  split
  · rename_i hskip
    rcases hskip with rfl | rfl <;> simp
  · split
    · rename_i hparent
      subst hparent
      split
      · split
        · rename_i hrooted
          simp [hstart hrooted]
        · simp
      · rename_i top rest
        split
        · simp
        · rename_i htop
          have hname : IsName top := (hacc top (by simp)).resolve_left htop
          have hstep := locStep_name (rest.reverse.foldl locStep start) ⟨top, hname⟩
          rw [List.reverse_cons, List.foldl_append, List.foldl_cons, List.foldl_nil,
            locStep_dotdot, hstep, List.dropLast_concat]
    · simp

theorem resolve_cleanElements (rooted : Bool) {start : Loc} (hstart : rooted = true → start = [])
    {elements : List Bytes} (hsep : ∀ element ∈ elements, sep ∉ element) :
    (cleanElements rooted elements).foldl locStep start = elements.foldl locStep start := by
  have hfold : ∀ acc, Cleaned acc →
      (elements.foldl (cleanStep rooted) acc).reverse.foldl locStep start =
        elements.foldl locStep (acc.reverse.foldl locStep start) := by
    induction elements with
    | nil => exact fun acc _ => rfl
    | cons element rest ih =>
        intro acc hacc
        have helement := hsep element (by simp)
        rw [List.foldl_cons, ih (fun e he => hsep e (by simp [he])) _ (hacc.step rooted helement),
          resolve_cleanStep hstart hacc element helement, List.foldl_cons]
  exact hfold [] (by intro e he; cases he)

theorem Cleaned.sep_not_mem {elements : List Bytes} (h : Cleaned elements) :
    ∀ element ∈ elements, sep ∉ element := by
  intro element helement
  rcases h element helement with rfl | hname
  · simp [dotdot, sep]
  · exact hname.2.2.2

theorem isRooted_renderPath (rooted : Bool) {elements : List Bytes} (h : Cleaned elements) :
    isRooted (renderPath rooted elements) = rooted := by
  unfold renderPath
  split
  · rename_i hrooted; rw [hrooted]; rfl
  · rename_i hrooted
    have hfalse : rooted = false := by simpa using hrooted
    split
    · rw [hfalse]; rfl
    · rename_i hne
      rcases elements with _ | ⟨first, rest⟩
      · exact absurd rfl hne
      · have hfirst : first ≠ [] := by
          rcases h first (by simp) with rfl | hname
          · simp [dotdot]
          · exact hname.1
        have hsep := h.sep_not_mem first (by simp)
        rcases first with _ | ⟨byte, bytes⟩
        · exact absurd rfl hfirst
        · have hbyte : byte ≠ sep := fun heq => hsep (by simp [heq])
          cases rest <;> simp [joinElements, isRooted, hbyte, hfalse]

/-- Following a rendered spelling follows its elements. -/
theorem resolve_renderPath (cwd : Loc) (rooted : Bool) {elements : List Bytes}
    (h : Cleaned elements) :
    resolve cwd (renderPath rooted elements) =
      elements.foldl locStep (if rooted then [] else cwd) := by
  rw [resolve, isRooted_renderPath rooted h]
  unfold renderPath
  by_cases hne : elements = []
  · subst hne
    cases rooted
    · have hdot : splitPath dot = [dot] := rfl
      simp [hdot]
    · simp [splitPath, joinElements]
  · have hsplit := splitPath_joinElements hne h.sep_not_mem
    cases rooted
    · simp [hne, hsplit]
    · simp [splitPath, hsplit]

/-- Cleaning a spelling does not change what it denotes. -/
theorem resolve_clean (cwd : Loc) (path : Bytes) : resolve cwd (clean path) = resolve cwd path := by
  have hsep := sep_not_mem_splitPath path
  rw [clean, resolve_renderPath cwd _ (Cleaned.cleanElements _ hsep),
    resolve_cleanElements _ (by intro h; simp [h]) hsep, resolve]

@[simp] theorem resolve_nil (cwd : Loc) : resolve cwd [] = cwd := by
  simp [resolve, splitPath, isRooted]

/-! ### Joining a name, and going back to the directory -/

theorem cleanElements_concat (rooted : Bool) (elements : List Bytes) (name : Name) :
    cleanElements rooted (elements ++ [name.bytes]) =
      cleanElements rooted elements ++ [name.bytes] := by
  obtain ⟨hne, hdot, hdotdot, -⟩ := name.valid
  simp [cleanElements, List.foldl_append, cleanStep, hne, hdot, hdotdot]

theorem isRooted_name (name : Name) : isRooted name.bytes = false := by
  rcases hbytes : name.bytes with _ | ⟨byte, bytes⟩
  · rfl
  · have hbyte : byte ≠ sep := fun heq => name.valid.2.2.2 (by simp [hbytes, heq])
    simpa [isRooted] using hbyte

/-- A joined name is the cleaned directory with one more element. -/
theorem join_eq_renderPath (dir : Bytes) (name : Name) :
    join dir name.bytes =
      renderPath (isRooted dir) (cleanElements (isRooted dir) (splitPath dir) ++ [name.bytes]) := by
  have hsplit := splitPath_of_not_mem name.valid.2.2.2
  unfold join
  rw [if_neg name.valid.1, if_neg name.valid.1]
  cases dir with
  | nil =>
      rw [if_pos rfl, clean, hsplit, isRooted_name]
      exact congrArg (renderPath false) (cleanElements_concat false [] name)
  | cons byte bytes =>
      rw [if_neg (by simp), clean, splitPath_append_sep, hsplit, ← cleanElements_concat]
      rfl

theorem Cleaned.concat {elements : List Bytes} (h : Cleaned elements) (name : Name) :
    Cleaned (elements ++ [name.bytes]) := by
  intro element helement
  rcases List.mem_append.mp helement with hmem | hmem
  · exact h element hmem
  · exact Or.inr (List.mem_singleton.mp hmem ▸ name.valid)

/-- Joining a name denotes the entry of that name. -/
theorem resolve_join (cwd : Loc) (dir : Bytes) (name : Name) :
    resolve cwd (join dir name.bytes) = resolve cwd dir ++ [name] := by
  have hsep := sep_not_mem_splitPath dir
  have hclean := Cleaned.cleanElements (isRooted dir) hsep
  have hmore := hclean.concat name
  rw [join_eq_renderPath, resolve_renderPath cwd _ hmore, List.foldl_append,
    resolve_cleanElements _ (by intro h; simp [h]) hsep, ← resolve]
  exact locStep_name _ name

theorem join_injective (dir : Bytes) {left right : Name}
    (h : join dir left.bytes = join dir right.bytes) : left = right := by
  have hloc := resolve_join [] dir left
  rw [h, resolve_join] at hloc
  simpa using hloc.symm

/-! ### When two spellings clean to the same -/

/-- The elements of a rendered spelling that mean something are those it was made of. -/
theorem splitPath_renderPath (rooted : Bool) {elements : List Bytes} (h : Cleaned elements) :
    (splitPath (renderPath rooted elements)).filter (fun e => e ≠ [] ∧ e ≠ dot) = elements := by
  have hkept : elements.filter (fun e => e ≠ [] ∧ e ≠ dot) = elements := by
    apply List.filter_eq_self.mpr
    intro element helement
    rcases h element helement with rfl | hname
    · decide
    · simpa using ⟨hname.1, hname.2.1⟩
  unfold renderPath
  by_cases hne : elements = []
  · subst hne
    cases rooted <;> rfl
  · have hsplit := splitPath_joinElements hne h.sep_not_mem
    cases rooted
    · simp only [Bool.false_eq_true, if_false, hne, hsplit, hkept]
    · simp only [if_true, splitPath, hsplit]
      exact hkept

theorem renderPath_injective {rooted rooted' : Bool} {elements elements' : List Bytes}
    (h : Cleaned elements) (h' : Cleaned elements')
    (heq : renderPath rooted elements = renderPath rooted' elements') :
    rooted = rooted' ∧ elements = elements' := by
  constructor
  · rw [← isRooted_renderPath rooted h, heq, isRooted_renderPath rooted' h']
  · rw [← splitPath_renderPath rooted h, heq, splitPath_renderPath rooted' h']

/-- Joined paths are the same string exactly if they end in the same name and their
    directories clean to the same string. -/
theorem join_eq_join_iff {left right : Bytes} {name other : Name} :
    join left name.bytes = join right other.bytes ↔ clean left = clean right ∧ name = other := by
  have hleft := Cleaned.cleanElements (isRooted left) (sep_not_mem_splitPath left)
  have hright := Cleaned.cleanElements (isRooted right) (sep_not_mem_splitPath right)
  constructor
  · intro h
    rw [join_eq_renderPath, join_eq_renderPath] at h
    obtain ⟨hrooted, helements⟩ := renderPath_injective (hleft.concat name) (hright.concat other) h
    obtain ⟨hdirs, hnames⟩ := List.append_inj' helements rfl
    refine ⟨?_, ?_⟩
    · rw [clean, clean, hdirs, hrooted]
    · have hbytes : name.bytes = other.bytes := by simpa using hnames
      cases name
      cases other
      simpa using hbytes
  · rintro ⟨hclean, rfl⟩
    obtain ⟨hrooted, helements⟩ := renderPath_injective hleft hright hclean
    rw [join_eq_renderPath, join_eq_renderPath, hrooted, ← helements, hrooted]

theorem resolve_concat_sep (cwd : Loc) {path : Bytes} (hpath : path ≠ []) :
    resolve cwd (path ++ [sep]) = resolve cwd path := by
  have hroot : isRooted (path ++ [sep]) = isRooted path := by
    cases path with
    | nil => exact absurd rfl hpath
    | cons byte bytes => rfl
  rw [resolve, hroot, splitPath_append_sep, List.foldl_append, ← resolve]
  simp [splitPath]

theorem joinElements_concat {elements : List Bytes} (hne : elements ≠ []) (last : Bytes) :
    joinElements (elements ++ [last]) = joinElements elements ++ sep :: last := by
  induction elements with
  | nil => exact absurd rfl hne
  | cons element rest ih =>
      cases rest with
      | nil => rfl
      | cons second rest =>
          have hrest := ih (by simp)
          simp only [List.cons_append, joinElements] at hrest ⊢
          rw [hrest, List.append_assoc, List.cons_append]

/-- What stands before the last element of a rendered spelling: nothing, or a
    directory part that ends in a separator and denotes the other elements. -/
theorem renderPath_concat (cwd : Loc) (rooted : Bool) {elements : List Bytes}
    (h : Cleaned elements) (last : Bytes) :
    ∃ before : Bytes, renderPath rooted (elements ++ [last]) = before ++ last ∧
      (before = [] ∨ ∃ stem, before = stem ++ [sep]) ∧
      resolve cwd before = resolve cwd (renderPath rooted elements) := by
  by_cases hne : elements = []
  · subst hne
    cases rooted with
    | false =>
        refine ⟨[], by simp [renderPath, joinElements], Or.inl rfl, ?_⟩
        rw [resolve_renderPath cwd _ h, resolve_nil]
        rfl
    | true => exact ⟨[sep], by simp [renderPath, joinElements], Or.inr ⟨[], rfl⟩, rfl⟩
  · have hrender : renderPath rooted elements ≠ [] := by
      unfold renderPath
      split
      · simp
      · rcases elements with _ | ⟨first, rest⟩
        · exact absurd rfl hne
        · have hfirst : first ≠ [] := by
            rcases h first (by simp) with rfl | hname
            · simp [dotdot]
            · exact hname.1
          cases rest <;> simp [joinElements, hfirst]
    refine ⟨renderPath rooted elements ++ [sep], ?_, Or.inr ⟨_, rfl⟩, ?_⟩
    · cases rooted <;> simp [renderPath, hne, joinElements_concat hne]
    · exact resolve_concat_sep cwd hrender

theorem dirOf_append {before : Bytes} (h : before = [] ∨ ∃ stem, before = stem ++ [sep])
    (name : Name) : dirOf (before ++ name.bytes) = clean before := by
  have hskip : ∀ byte ∈ name.bytes.reverse, decide (byte ≠ sep) = true := by
    intro byte hbyte
    simp only [List.mem_reverse] at hbyte
    exact decide_eq_true fun heq => name.valid.2.2.2 (heq ▸ hbyte)
  unfold dirOf
  rw [List.reverse_append, List.dropWhile_append_of_pos hskip]
  rcases h with rfl | ⟨stem, rfl⟩ <;> simp

/-- The directory part of a joined name denotes the directory. -/
theorem resolve_dirOf_join (cwd : Loc) (dir : Bytes) (name : Name) :
    resolve cwd (dirOf (join dir name.bytes)) = resolve cwd dir := by
  have hsep := sep_not_mem_splitPath dir
  have hclean := Cleaned.cleanElements (isRooted dir) hsep
  obtain ⟨before, hrender, hend, hresolve⟩ :=
    renderPath_concat cwd (isRooted dir) hclean name.bytes
  rw [join_eq_renderPath, hrender, dirOf_append hend, resolve_clean, hresolve, ← clean,
    resolve_clean]

end RaftExample
