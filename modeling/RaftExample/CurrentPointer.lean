import RaftExample.PointerFile

/-!
# What the pointer file promises

`PointsTo cwd dir fs name node` describes a base directory whose pointer file names
the entry `name`; `node` is what stands there.  The healthy state, `Current`, has a
database there.  Everything the package does to the disk is specified, here and in
the modules after this one, by which locations it keeps and by the fates that lead
to each result.
-/

namespace RaftExample

structure PointsTo (cwd : Loc) (dir : Bytes) (fs : FS KV) (name : Name)
    (node : Option (Node KV)) : Prop where
  base : ∀ ancestor, ancestor <+: resolve cwd dir → fs.isDir ancestor = true
  pointer : fs[resolve cwd dir ++ [currentDBFilename]]? =
    some (.file (pointerContent (join dir name.bytes)))
  entry : fs[resolve cwd dir ++ [name]]? = node
  updating : fs.isDir (resolve cwd dir ++ [updatingDBFilename]) = false
  proper : name ≠ updatingDBFilename

/-- The pointer under `dir` names the database directory `name`, which holds
    `content`. -/
abbrev Current (cwd : Loc) (dir : Bytes) (fs : FS KV) (name : Name) (content : KV) : Prop :=
  PointsTo cwd dir fs name (some (.dir (.database content)))

instance (cwd : Loc) (dir : Bytes) (fs : FS KV) (name : Name) (node : Option (Node KV)) :
    Decidable (PointsTo cwd dir fs name node) :=
  decidable_of_iff
    ((∀ ancestor ∈ (resolve cwd dir).inits, fs.isDir ancestor = true) ∧
      fs[resolve cwd dir ++ [currentDBFilename]]? =
        some (.file (pointerContent (join dir name.bytes))) ∧
      fs[resolve cwd dir ++ [name]]? = node ∧
      fs.isDir (resolve cwd dir ++ [updatingDBFilename]) = false ∧ name ≠ updatingDBFilename)
    ⟨fun ⟨hbase, hpointer, hentry, hupdating, hproper⟩ =>
      ⟨fun ancestor hancestor => hbase ancestor ((List.mem_inits _ _).mpr hancestor),
        hpointer, hentry, hupdating, hproper⟩,
     fun h => ⟨fun ancestor hancestor => h.base ancestor ((List.mem_inits _ _).mp hancestor),
        h.pointer, h.entry, h.updating, h.proper⟩⟩

theorem updating_ne_current : updatingDBFilename ≠ currentDBFilename := by decide

namespace PointsTo

variable {cwd : Loc} {dir : Bytes} {fs fs' : FS KV} {name : Name} {node : Option (Node KV)}

theorem base_isDir (h : PointsTo cwd dir fs name node) : fs.isDir (resolve cwd dir) = true :=
  h.base _ (List.prefix_refl _)

/-- The invariant reads the base directory, its ancestors and three entries. -/
theorem of_keeps {kept : Loc → Prop} (h : PointsTo cwd dir fs name node)
    (hkeeps : FS.Keeps kept fs fs') (hbase : ∀ loc, loc <+: resolve cwd dir → kept loc)
    (hpointer : kept (resolve cwd dir ++ [currentDBFilename]))
    (hname : kept (resolve cwd dir ++ [name]))
    (hupdating : fs'.isDir (resolve cwd dir ++ [updatingDBFilename]) = false) :
    PointsTo cwd dir fs' name node where
  base := by
    intro ancestor hancestor
    rw [hkeeps.isDir (hbase ancestor hancestor)]
    exact h.base ancestor hancestor
  pointer := by
    rw [hkeeps _ hpointer]
    exact h.pointer
  entry := by
    rw [hkeeps _ hname]
    exact h.entry
  updating := hupdating
  proper := h.proper

/-- Changes below another entry of the base directory do not matter. -/
theorem of_keeps_entry {entry : Name} (h : PointsTo cwd dir fs name node)
    (hkeeps : FS.Keeps (fun loc => ¬ resolve cwd dir ++ [entry] <+: loc) fs fs')
    (hpointer : entry ≠ currentDBFilename) (hupdating : entry ≠ updatingDBFilename)
    (hname : entry ≠ name) : PointsTo cwd dir fs' name node := by
  have hother : ∀ {other : Name}, entry ≠ other →
      ¬ resolve cwd dir ++ [entry] <+: resolve cwd dir ++ [other] := by
    intro other hne habove
    exact hne (concat_prefix_concat habove)
  apply h.of_keeps hkeeps
  · intro loc
    exact not_concat_prefix_of_prefix
  · exact hother hpointer
  · exact hother hname
  · rw [hkeeps.isDir (hother hupdating)]
    exact h.updating

/-- A directory in the base directory is neither the pointer nor the temporary file. -/
theorem dir_entry_ne (h : PointsTo cwd dir fs name node) {entry : Name}
    {state : DirState KV} (hentry : fs[resolve cwd dir ++ [entry]]? = some (.dir state)) :
    entry ≠ currentDBFilename ∧ entry ≠ updatingDBFilename := by
  constructor
  · rintro rfl
    rw [h.pointer] at hentry
    simp at hentry
  · rintro rfl
    have hupdating := h.updating
    rw [FS.isDir_of_lookup hentry] at hupdating
    simp at hupdating

/-- Changing what stands at the entry itself. -/
theorem with_entry {node' : Option (Node KV)} (h : PointsTo cwd dir fs name node)
    (hname : name ≠ currentDBFilename)
    (hkeeps : FS.Keeps (· ≠ resolve cwd dir ++ [name]) fs fs')
    (hentry : fs'[resolve cwd dir ++ [name]]? = node') : PointsTo cwd dir fs' name node' where
  base := by
    intro ancestor hancestor
    rw [hkeeps.isDir]
    · exact h.base ancestor hancestor
    · rintro rfl
      have := hancestor.length_le
      simp at this
  pointer := by
    rw [hkeeps _ (by simpa using hname.symm)]
    exact h.pointer
  entry := hentry
  updating := by
    have hproper := h.proper
    rw [hkeeps.isDir (by simpa using hproper.symm)]
    exact h.updating
  proper := h.proper

/-- Removing the temporary file, or part of it. -/
theorem of_prunes_updating (h : PointsTo cwd dir fs name node)
    (hprunes : FS.Prunes (resolve cwd dir ++ [updatingDBFilename]) fs fs') :
    PointsTo cwd dir fs' name node := by
  apply h.of_keeps hprunes.1
  · intro loc
    exact not_concat_prefix_of_prefix
  · intro habove
    exact updating_ne_current (concat_prefix_concat habove)
  · intro habove
    exact h.proper (concat_prefix_concat habove).symm
  · by_contra hdir
    have hbefore := hprunes.2 _ (by simpa using hdir)
    rw [h.updating] at hbefore
    simp at hbefore

end PointsTo

/-! ### Specifications of the pointer functions -/

/-- Generated names contain an underscore, the two fixed names do not. -/
theorem stampName_ne (stamp : Stamp) :
    stampName stamp ≠ currentDBFilename ∧ stampName stamp ≠ updatingDBFilename := by
  have hunderscore : (95 : UInt8) ∈ (stampName stamp).bytes := by simp [stampName, stampBytes]
  constructor
  · intro h
    rw [h] at hunderscore
    exact absurd hunderscore (by decide)
  · intro h
    rw [h] at hunderscore
    exact absurd hunderscore (by decide)

section Pointer

variable {env : Env Site} {fs : FS KV} {dir dbdir : Bytes}

/-- Reading a pointer that is in place. -/
theorem getCurrentDBDirName_ends (reader : PointerReader) (hne : dbdir ≠ [])
    (hfile : fs[resolve env.cwd dir ++ [currentDBFilename]]? =
      some (.file (pointerContent dbdir))) :
    (getCurrentDBDirName reader dir).Ends env fs
      (fun result fs' => fs' = fs ∧
        ((env.fate (.readPointer reader) = .ok ∧ result = .ok dbdir) ∨
          (env.fate (.readPointer reader) = .fail ∧ result = .error (.fs .io))))
      (fun fs' => fs' = fs ∧ env.fate (.readPointer reader) = .crash) := by
  rw [← resolve_join] at hfile
  refine Proc.Ends.bind (Proc.Ends.readFile hfile (fun hread => ?_) (fun hread => ?_)
    fun hread => ?_)
  · exact Proc.Ends.pure ⟨rfl, .inl ⟨hread, decodePointer_pointerContent hne⟩⟩
  · exact Proc.Ends.pure ⟨rfl, .inr ⟨hread, rfl⟩⟩
  · exact ⟨rfl, hread⟩

/-- The sites of `saveCurrentDBDirName`. -/
def saveSites : List Site :=
  [.createUpdating, .writeSum, .writeName, .syncUpdating, .closeUpdating, .syncSaved]

/-- Everything but the temporary file keeps its node, and that is not a directory. -/
def OnlyUpdating (cwd : Loc) (dir : Bytes) (fs fs' : FS KV) : Prop :=
  FS.Keeps (· ≠ resolve cwd dir ++ [updatingDBFilename]) fs fs' ∧
    fs'.isDir (resolve cwd dir ++ [updatingDBFilename]) = false

theorem OnlyUpdating.file {cwd : Loc} (fs : FS KV) (data : Bytes) :
    OnlyUpdating cwd dir fs
      (fs.set (resolve cwd dir ++ [updatingDBFilename]) (.file data)) :=
  ⟨.set fs (by simp) _, FS.isDir_concat_eq_false (by simp)⟩

theorem OnlyUpdating.rewrite {cwd : Loc} {fs fs' : FS KV} (h : OnlyUpdating cwd dir fs fs')
    (data : Bytes) : OnlyUpdating cwd dir fs
      (fs'.set (resolve cwd dir ++ [updatingDBFilename]) (.file data)) :=
  ⟨h.1.trans (OnlyUpdating.file fs' data).1, (OnlyUpdating.file fs' data).2⟩

theorem PointsTo.of_onlyUpdating {cwd : Loc} {fs' : FS KV} {name : Name}
    {node : Option (Node KV)} (h : PointsTo cwd dir fs name node)
    (honly : OnlyUpdating cwd dir fs fs') : PointsTo cwd dir fs' name node := by
  have hproper := h.proper
  refine h.of_keeps honly.1 ?_ ?_ (by simpa using hproper) honly.2
  · rintro loc hloc rfl
    have := hloc.length_le
    simp at this
  · simpa using updating_ne_current.symm

/-- The writes of the pointer's content into the file just created. -/
theorem writePointer_ends {fs₀ : FS KV} (honly : OnlyUpdating env.cwd dir fs₀ fs)
    (hfile : fs[resolve env.cwd dir ++ [updatingDBFilename]]? = some (.file [])) :
    (writePointer (join dir updatingDBFilename.bytes) dbdir).Ends env fs
      (fun result fs' => OnlyUpdating env.cwd dir fs₀ fs' ∧
        ((result = .ok () ∧ env.fate .writeSum = .ok ∧ env.fate .writeName = .ok ∧
            env.fate .syncUpdating = .ok ∧
            fs'[resolve env.cwd dir ++ [updatingDBFilename]]? =
              some (.file (pointerContent dbdir))) ∨
          ((∃ e, result = .error e) ∧ ∃ site ∈ saveSites, env.fate site = .fail)))
      (fun fs' => OnlyUpdating env.cwd dir fs₀ fs' ∧ ∃ site ∈ saveSites, env.fate site ≠ .ok) := by
  rw [← resolve_join] at hfile
  unfold writePointer
  apply Proc.Ends.bind
  refine Proc.Ends.write hfile (fun hsum => ?_) (fun hsum => ?_) (fun hsum => ?_)
  · have honly₁ := honly.rewrite ([] ++ (md5 dbdir).take 8)
    rw [← resolve_join] at honly₁
    apply Proc.Ends.bind
    refine Proc.Ends.write (FS.lookup_set_self ..) (fun hname => ?_) (fun hname => ?_)
      (fun hname => ?_)
    · have honly₂ := honly₁.rewrite ([] ++ (md5 dbdir).take 8 ++ dbdir)
      rw [← resolve_join] at honly₂
      apply Proc.Ends.bind
      refine Proc.Ends.settle (fun hsync => ?_) (fun hsync => ?_) (fun hsync => ?_)
      · refine Proc.Ends.pure ⟨honly₂, .inl ⟨rfl, hsum, hname, hsync, ?_⟩⟩
        rw [← resolve_join, FS.lookup_set_self]
        rfl
      · exact Proc.Ends.pure ⟨honly₂, .inr ⟨⟨_, rfl⟩, .syncUpdating, by simp [saveSites], hsync⟩⟩
      · exact ⟨honly₂, .syncUpdating, by simp [saveSites], by simp [hsync]⟩
    · exact Proc.Ends.pure ⟨honly₁, .inr ⟨⟨_, rfl⟩, .writeName, by simp [saveSites], hname⟩⟩
    · exact ⟨honly₁, .writeName, by simp [saveSites], by simp [hname]⟩
  · exact Proc.Ends.pure ⟨honly, .inr ⟨⟨_, rfl⟩, .writeSum, by simp [saveSites], hsum⟩⟩
  · exact ⟨honly, .writeSum, by simp [saveSites], by simp [hsum]⟩

/-- Saving the new path touches the temporary file only.  It succeeds when every one
    of its steps does; the steps after the writes end in a panic when they fail. -/
theorem saveCurrentDBDirName_ends (hbase : fs.isDir (resolve env.cwd dir) = true)
    (hupdating : fs.isDir (resolve env.cwd dir ++ [updatingDBFilename]) = false) :
    (saveCurrentDBDirName dir dbdir).Ends env fs
      (fun result fs' => OnlyUpdating env.cwd dir fs fs' ∧
        ((result = .ok () ∧ (∀ site ∈ saveSites, env.fate site = .ok) ∧
            fs'[resolve env.cwd dir ++ [updatingDBFilename]]? =
              some (.file (pointerContent dbdir))) ∨
          ((∃ e, result = .error e) ∧ ∃ site ∈ saveSites, env.fate site = .fail)))
      (fun fs' => OnlyUpdating env.cwd dir fs fs' ∧ ∃ site ∈ saveSites, env.fate site ≠ .ok) := by
  have hsame : OnlyUpdating env.cwd dir fs fs := ⟨.refl fs, hupdating⟩
  unfold saveCurrentDBDirName
  apply Proc.Ends.bind
  refine Proc.Ends.create (by rwa [resolve_join]) (by simpa [resolve_join])
    (fun hcreate => ?_) (fun hcreate => ?_) (fun hcreate => ?_)
  · rw [resolve_join]
    apply Proc.Ends.bind
    apply (writePointer_ends (OnlyUpdating.file fs []) (FS.lookup_set_self ..)).weaken
    · rintro result fs₁ ⟨honly, hresult⟩
      have hdir : fs₁.isDir (resolve env.cwd dir) = true := by
        rw [honly.1.isDir (by simp)]
        exact hbase
      apply Proc.Ends.bind
      refine Proc.Ends.settle (fun hclose => ?_) (fun hclose => ?_) (fun hclose => ?_)
      · apply Proc.Ends.bind
        refine Proc.Ends.syncDir hdir (fun hsync => ?_) (fun hsync => ?_) (fun hsync => ?_)
        · apply Proc.Ends.pure
          refine ⟨honly, ?_⟩
          rcases hresult with ⟨rfl, hsum, hname, hflush, hcontent⟩ | hfailed
          · exact .inl ⟨rfl, by simp [saveSites, hcreate, hsum, hname, hflush, hclose, hsync],
              hcontent⟩
          · exact .inr hfailed
        · exact Proc.Ends.panic ⟨honly, .syncSaved, by simp [saveSites], by simp [hsync]⟩
        · exact ⟨honly, .syncSaved, by simp [saveSites], by simp [hsync]⟩
      · exact Proc.Ends.panic ⟨honly, .closeUpdating, by simp [saveSites], by simp [hclose]⟩
      · exact ⟨honly, .closeUpdating, by simp [saveSites], by simp [hclose]⟩
    · intro fs₁ h
      exact h
  · exact Proc.Ends.pure ⟨hsame, .inr ⟨⟨_, rfl⟩, .createUpdating, by simp [saveSites], hcreate⟩⟩
  · exact ⟨hsame, .createUpdating, by simp [saveSites], by simp [hcreate]⟩

/-- The tree after the temporary file took the pointer's place. -/
def renamedPointer (cwd : Loc) (dir data : Bytes) (fs : FS KV) : FS KV :=
  (fs.remove (resolve cwd dir ++ [updatingDBFilename])).set
    (resolve cwd dir ++ [currentDBFilename]) (.file data)

theorem lookup_renamedPointer {cwd : Loc} {data : Bytes} {loc : Loc}
    (hcurrent : loc ≠ resolve cwd dir ++ [currentDBFilename])
    (hupdating : loc ≠ resolve cwd dir ++ [updatingDBFilename]) :
    (renamedPointer cwd dir data fs)[loc]? = fs[loc]? := by
  rw [renamedPointer, FS.lookup_set_ne _ hcurrent.symm, FS.lookup_remove, if_neg hupdating.symm]

/-- Renaming a pointer into place, whatever stands at the entry it names. -/
theorem pointsTo_renamedPointer {cwd : Loc} {new : Name}
    (hbase : ∀ ancestor, ancestor <+: resolve cwd dir → fs.isDir ancestor = true)
    (hcurrent : new ≠ currentDBFilename) (hupdating : new ≠ updatingDBFilename) :
    PointsTo cwd dir (renamedPointer cwd dir (pointerContent (join dir new.bytes)) fs) new
      fs[resolve cwd dir ++ [new]]? where
  base := by
    intro ancestor hancestor
    rw [← hbase ancestor hancestor]
    have hlen := hancestor.length_le
    apply FS.isDir_congr
    apply lookup_renamedPointer
    · rintro rfl
      simp at hlen
    · rintro rfl
      simp at hlen
  pointer := FS.lookup_set_self ..
  entry := lookup_renamedPointer (by simpa using hcurrent) (by simpa using hupdating)
  updating := by
    apply FS.isDir_concat_eq_false
    intro state
    rw [renamedPointer, FS.lookup_set_ne _ (by simpa using updating_ne_current.symm),
      FS.lookup_remove, if_pos rfl]
    simp
  proper := hupdating

/-- The rename either happened or it did not; the flush after it changes nothing. -/
theorem replaceCurrentDBFile_ends {data : Bytes}
    (hbase : fs.isDir (resolve env.cwd dir) = true)
    (hfile : fs[resolve env.cwd dir ++ [updatingDBFilename]]? = some (.file data)) :
    (replaceCurrentDBFile dir).Ends env fs
      (fun result fs' =>
        (env.fate .renameUpdating = .fail ∧ fs' = fs ∧ result = .error (.fs .io)) ∨
        (env.fate .renameUpdating = .ok ∧ fs' = renamedPointer env.cwd dir data fs ∧
          ((env.fate .syncReplaced = .ok ∧ result = .ok ()) ∨
            (env.fate .syncReplaced = .fail ∧ result = .error (.fs .io)))))
      (fun fs' =>
        (env.fate .renameUpdating = .crash ∧ fs' = fs) ∨
        (env.fate .renameUpdating = .ok ∧ env.fate .syncReplaced = .crash ∧
          fs' = renamedPointer env.cwd dir data fs)) := by
  have hdir : (renamedPointer env.cwd dir data fs).isDir (resolve env.cwd dir) = true := by
    rw [← hbase]
    apply FS.isDir_congr
    rw [renamedPointer, FS.lookup_set_ne _ (by simp), FS.lookup_remove, if_neg (by simp)]
  unfold replaceCurrentDBFile
  rw [← resolve_join] at hfile
  refine Proc.Ends.bind (Proc.Ends.rename hfile (fun hrename => ?_) (fun hrename => ?_)
    fun hrename => ?_)
  · rw [resolve_join, resolve_join]
    refine Proc.Ends.bind (Proc.Ends.syncDir hdir (fun hsync => ?_) (fun hsync => ?_)
      fun hsync => ?_)
    · exact Proc.Ends.pure (.inr ⟨hrename, rfl, .inl ⟨hsync, rfl⟩⟩)
    · exact Proc.Ends.pure (.inr ⟨hrename, rfl, .inr ⟨hsync, rfl⟩⟩)
    · exact .inr ⟨hrename, hsync, rfl⟩
  · exact Proc.Ends.pure (.inl ⟨hrename, rfl, rfl⟩)
  · exact .inl ⟨hrename, rfl⟩

end Pointer

end RaftExample
