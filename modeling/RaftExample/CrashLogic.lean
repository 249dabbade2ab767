import RaftExample.FaultFs

/-!
# Reasoning about computations that may be killed

`m.Ends env fs post crash` says what a computation leaves behind when it is started
on `fs`: a result and a file system that satisfy `post`, or, when the process
dies on the way, a file system that satisfies `crash`.  The rules below follow the
program text from the first operation on, so that a proof steps through a program
as it would execute and owes the crash condition once before every operation.
-/

namespace RaftExample

variable {ι γ α β : Type}

namespace Proc

/-- A panic ends the process like a kill does: what is on disk stays. -/
def Ends (m : Proc ι γ α) (env : Env ι) (fs : FS γ)
    (post : α → FS γ → Prop) (crash : FS γ → Prop) : Prop :=
  match m env fs with
  | (.value a, fs') => post a fs'
  | (.panic, fs') => crash fs'
  | (.crashed, fs') => crash fs'

variable {m : Proc ι γ α} {f : α → Proc ι γ β} {env : Env ι} {fs : FS γ}
  {post : α → FS γ → Prop} {crash : FS γ → Prop}

theorem Ends.value {a : α} {fs' : FS γ} (h : m.Ends env fs post crash)
    (hrun : m env fs = (.value a, fs')) : post a fs' := by
  simpa [Ends, hrun] using h

theorem Ends.panicked {fs' : FS γ} (h : m.Ends env fs post crash)
    (hrun : m env fs = (.panic, fs')) : crash fs' := by
  simpa [Ends, hrun] using h

theorem Ends.killed {fs' : FS γ} (h : m.Ends env fs post crash)
    (hrun : m env fs = (.crashed, fs')) : crash fs' := by
  simpa [Ends, hrun] using h

/-- The two ways a run can go. -/
theorem Ends.cases (h : m.Ends env fs post crash) :
    (∃ a fs', m env fs = (.value a, fs') ∧ post a fs') ∨
      (∃ fs', (m env fs = (.panic, fs') ∨ m env fs = (.crashed, fs')) ∧ crash fs') := by
  rcases hrun : m env fs with ⟨outcome, fs'⟩
  cases outcome with
  | value a => exact .inl ⟨a, fs', rfl, h.value hrun⟩
  | panic => exact .inr ⟨fs', .inl rfl, h.panicked hrun⟩
  | crashed => exact .inr ⟨fs', .inr rfl, h.killed hrun⟩

/-- What the disk satisfies however the run went. -/
theorem Ends.disk {holds : FS γ → Prop} (h : m.Ends env fs post crash)
    (hpost : ∀ a fs', post a fs' → holds fs') (hcrash : ∀ fs', crash fs' → holds fs') :
    holds (m env fs).2 := by
  rcases h.cases with ⟨a, fs', hrun, hend⟩ | ⟨fs', hrun | hrun, hend⟩
  · rw [hrun]
    exact hpost a fs' hend
  · rw [hrun]
    exact hcrash fs' hend
  · rw [hrun]
    exact hcrash fs' hend

theorem Ends.pure {a : α} (h : post a fs) : (Pure.pure a : Proc ι γ α).Ends env fs post crash := h

theorem Ends.look {get : FS γ → α} (h : post (get fs) fs) :
    (Proc.look get : Proc ι γ α).Ends env fs post crash := h

theorem Ends.panic (h : crash fs) : (Proc.panic : Proc ι γ α).Ends env fs post crash := h

/-- Step through the first part of a program; what remains is owed for each of its
    results. -/
theorem Ends.bind {post : β → FS γ → Prop}
    (h : m.Ends env fs (fun a fs' => (f a).Ends env fs' post crash) crash) :
    (m >>= f).Ends env fs post crash := by
  unfold Ends at h ⊢
  rw [bind_run]
  rcases hrun : m env fs with ⟨outcome, fs'⟩
  rw [hrun] at h
  cases outcome with
  | value a => exact h
  | panic => exact h
  | crashed => exact h

theorem Ends.weaken {post' : α → FS γ → Prop} {crash' : FS γ → Prop}
    (h : m.Ends env fs post crash) (hpost : ∀ a fs', post a fs' → post' a fs')
    (hcrash : ∀ fs', crash fs' → crash' fs') : m.Ends env fs post' crash' := by
  unfold Ends at h ⊢
  rcases hrun : m env fs with ⟨outcome, fs'⟩
  rw [hrun] at h
  cases outcome with
  | value a => exact hpost a fs' h
  | panic => exact hcrash fs' h
  | crashed => exact hcrash fs' h

/-- One operation: what each fate of its site leaves behind. -/
theorem Ends.perform {site : ι} {effect : Loc → FS γ → Except FsErr α × FS γ}
    {post : Except FsErr α → FS γ → Prop}
    (hok : env.fate site = .ok → post (effect env.cwd fs).1 (effect env.cwd fs).2)
    (hfail : env.fate site = .fail → post (.error .io) fs)
    (hcrash : env.fate site = .crash → crash fs) :
    (Proc.perform site effect).Ends env fs post crash := by
  unfold Ends
  cases hfate : env.fate site with
  | ok => rw [perform_ok hfate]; exact hok hfate
  | fail => rw [perform_fail hfate]; exact hfail hfate
  | crash => rw [perform_crash hfate]; exact hcrash hfate

end Proc

namespace Proc

/-! ### The operations

Each rule has one premise for each fate of the operation's site.  The premise for
an operation that takes effect is stated for the case in which the file system
lets it succeed. -/

section Operations

variable {env : Env ι} {fs : FS γ} {crash : FS γ → Prop} {site : ι} {path : Bytes}

theorem Ends.settle {post : Except FsErr Unit → FS γ → Prop}
    (hok : env.fate site = .ok → post (.ok ()) fs)
    (hfail : env.fate site = .fail → post (.error .io) fs)
    (hcrash : env.fate site = .crash → crash fs) :
    (Proc.settle site).Ends env fs post crash :=
  Ends.perform hok hfail hcrash

/-- An operation whose result nobody looks at. -/
theorem Ends.settle_then {k : Proc ι γ α} {post : α → FS γ → Prop}
    (hk : k.Ends env fs post crash) (hcrash : env.fate site = .crash → crash fs) :
    (Proc.settle site >>= fun _ => k).Ends env fs post crash :=
  Ends.bind (Ends.settle (fun _ => hk) (fun _ => hk) hcrash)

theorem Ends.stat {post : Except FsErr Unit → FS γ → Prop}
    (hnode : (fs[resolve env.cwd path]?).isSome = true)
    (hok : env.fate site = .ok → post (.ok ()) fs)
    (hfail : env.fate site = .fail → post (.error .io) fs)
    (hcrash : env.fate site = .crash → crash fs) :
    (Proc.stat site path).Ends env fs post crash := by
  have hthere : fs.contains (resolve env.cwd path) = true := by
    rwa [Std.ExtTreeMap.contains_eq_isSome_getElem?]
  exact Ends.perform (fun h => by simpa [hthere] using hok h) hfail hcrash

theorem Ends.stat_missing {post : Except FsErr Unit → FS γ → Prop}
    (hnode : fs[resolve env.cwd path]? = none) (hdir : fs.isDir (resolve env.cwd path) = false)
    (hok : env.fate site = .ok → post (.error .notExist) fs)
    (hfail : env.fate site = .fail → post (.error .io) fs)
    (hcrash : env.fate site = .crash → crash fs) :
    (Proc.stat site path).Ends env fs post crash := by
  have hmissing : fs.contains (resolve env.cwd path) = false := by
    rw [Std.ExtTreeMap.contains_eq_isSome_getElem?, hnode]
    rfl
  exact Ends.perform (fun h => by simpa [hmissing, hdir] using hok h) hfail hcrash

theorem Ends.syncDir {post : Except FsErr Unit → FS γ → Prop}
    (hdir : fs.isDir (resolve env.cwd path) = true)
    (hok : env.fate site = .ok → post (.ok ()) fs)
    (hfail : env.fate site = .fail → post (.error .io) fs)
    (hcrash : env.fate site = .crash → crash fs) :
    (Proc.syncDir site path).Ends env fs post crash :=
  Ends.perform (fun h => by simpa [hdir] using hok h) hfail hcrash

theorem Ends.create {post : Except FsErr Unit → FS γ → Prop}
    (hnot : fs.isDir (resolve env.cwd path) = false)
    (hparent : fs.isDir (resolve env.cwd path).dropLast = true)
    (hok : env.fate site = .ok →
      post (.ok ()) (fs.set (resolve env.cwd path) (.file [])))
    (hfail : env.fate site = .fail → post (.error .io) fs)
    (hcrash : env.fate site = .crash → crash fs) :
    (Proc.create site path).Ends env fs post crash :=
  Ends.perform (fun h => by simpa [hnot, hparent] using hok h) hfail hcrash

theorem Ends.write {data old : Bytes} {post : Except FsErr Unit → FS γ → Prop}
    (hfile : fs[resolve env.cwd path]? = some (.file old))
    (hok : env.fate site = .ok →
      post (.ok ()) (fs.set (resolve env.cwd path) (.file (old ++ data))))
    (hfail : env.fate site = .fail → post (.error .io) fs)
    (hcrash : env.fate site = .crash → crash fs) :
    (Proc.write site path data).Ends env fs post crash :=
  Ends.perform (fun h => by simpa [hfile] using hok h) hfail hcrash

theorem Ends.readFile {data : Bytes} {post : Except FsErr Bytes → FS γ → Prop}
    (hfile : fs[resolve env.cwd path]? = some (.file data))
    (hok : env.fate site = .ok → post (.ok data) fs)
    (hfail : env.fate site = .fail → post (.error .io) fs)
    (hcrash : env.fate site = .crash → crash fs) :
    (Proc.readFile site path).Ends env fs post crash :=
  Ends.perform (fun h => by simpa [hfile] using hok h) hfail hcrash

theorem Ends.readDir {post : Except FsErr (List (Name × Bool)) → FS γ → Prop}
    (hdir : fs.isDir (resolve env.cwd path) = true)
    (hok : env.fate site = .ok → post (.ok (fs.entries (resolve env.cwd path))) fs)
    (hfail : env.fate site = .fail → post (.error .io) fs)
    (hcrash : env.fate site = .crash → crash fs) :
    (Proc.readDir site path).Ends env fs post crash :=
  Ends.perform (fun h => by simpa [hdir] using hok h) hfail hcrash

theorem Ends.rename {source target data : Bytes} {post : Except FsErr Unit → FS γ → Prop}
    (hfile : fs[resolve env.cwd source]? = some (.file data))
    (hok : env.fate site = .ok → post (.ok ())
      ((fs.remove (resolve env.cwd source)).set (resolve env.cwd target) (.file data)))
    (hfail : env.fate site = .fail → post (.error .io) fs)
    (hcrash : env.fate site = .crash → crash fs) :
    (Proc.rename site source target).Ends env fs post crash :=
  Ends.perform (fun h => by simpa [hfile] using hok h) hfail hcrash

theorem Ends.mkdirAll {post : Except FsErr Unit → FS γ → Prop}
    (hfree : fs.blocked (resolve env.cwd path) = false)
    (hok : env.fate site = .ok → post (.ok ()) (fs.mkdirAll (resolve env.cwd path)))
    (hfail : env.fate site = .fail → post (.error .io) fs)
    (hcrash : env.fate site = .crash → crash fs) :
    (Proc.mkdirAll site path).Ends env fs post crash :=
  Ends.perform (fun h => by simpa [hfree] using hok h) hfail hcrash

theorem Ends.commit {handle : Loc} {content : γ} {batch : γ → γ}
    {post : Except FsErr Unit → FS γ → Prop}
    (hopen : fs[handle]? = some (.dir (.database content)))
    (hok : env.fate site = .ok →
      post (.ok ()) (fs.set handle (.dir (.database (batch content)))))
    (hfail : env.fate site = .fail → post (.error .io) fs)
    (hcrash : env.fate site = .crash → crash fs) :
    (Proc.commit site handle batch).Ends env fs post crash :=
  Ends.perform (fun h => by simpa [hopen] using hok h) hfail hcrash

/-- Removing a tree, whatever happens on the way. -/
theorem Ends.removeAll_prunes {contents entry : ι} :
    (Proc.removeAll contents entry path).Ends env fs
      (fun result fs' => FS.Prunes (resolve env.cwd path) fs fs' ∧
        ((result = .ok () ∧ env.fate contents = .ok ∧ env.fate entry = .ok ∧
            fs'[resolve env.cwd path]? = none) ∨
          ((∃ e, result = .error e) ∧ (env.fate contents = .fail ∨ env.fate entry = .fail))))
      (fun fs' => FS.Prunes (resolve env.cwd path) fs fs' ∧
        (env.fate contents = .crash ∨ env.fate entry = .crash)) := by
  have hsame : FS.Prunes (resolve env.cwd path) fs fs := ⟨.refl fs, fun _ h => h⟩
  apply Ends.bind
  refine Ends.perform (fun hcontents => ?_) (fun hcontents => ?_) fun hcontents => ?_
  · have hhalf : FS.Prunes (resolve env.cwd path) fs
        (fs.unlinkContents (resolve env.cwd path)) :=
      ⟨.unlinkContents fs fun _ h => not_not.mpr h, fun _ h => FS.isDir_of_unlinkContents h⟩
    refine Ends.perform (fun hentry => ?_) (fun hentry => ?_) fun hentry => ?_
    · refine ⟨⟨hhalf.1.trans (.unlink _ fun _ h => not_not.mpr h), fun other h => ?_⟩,
        .inl ⟨rfl, hcontents, hentry, ?_⟩⟩
      · exact hhalf.2 other (FS.isDir_of_unlink h)
      · rw [FS.lookup_unlink, if_pos (List.prefix_refl _)]
    · exact ⟨hhalf, .inr ⟨⟨_, rfl⟩, .inr hentry⟩⟩
    · exact ⟨hhalf, .inr hentry⟩
  · exact Ends.pure ⟨hsame, .inr ⟨⟨_, rfl⟩, .inl hcontents⟩⟩
  · exact ⟨hsame, .inl hcontents⟩

end Operations

end Proc

namespace Proc

/-! ### Invariants of the disk

A property of the disk that every operation of a program keeps holds when the program is
over, however it ended. -/

/-- Started on a disk that satisfies `inv`, the computation leaves one that does; a result
    satisfies `post`. -/
def Preserves (m : Proc ι γ α) (env : Env ι) (inv : FS γ → Prop) (post : α → Prop) : Prop :=
  ∀ fs, inv fs → m.Ends env fs (fun a fs' => inv fs' ∧ post a) inv

section Preserves

variable {m : Proc ι γ α} {f : α → Proc ι γ β} {env : Env ι} {inv : FS γ → Prop} {post : α → Prop}

theorem Preserves.pure {a : α} (h : post a) :
    (Pure.pure a : Proc ι γ α).Preserves env inv post := fun _ hfs => Ends.pure ⟨hfs, h⟩

theorem Preserves.look {get : FS γ → α} (h : ∀ fs, inv fs → post (get fs)) :
    (Proc.look get : Proc ι γ α).Preserves env inv post := fun fs hfs => Ends.look ⟨hfs, h fs hfs⟩

theorem Preserves.panic : (Proc.panic : Proc ι γ α).Preserves env inv post := fun _ hfs =>
  Ends.panic hfs

theorem Preserves.bind {post : β → Prop} {mid : α → Prop} (hm : m.Preserves env inv mid)
    (hf : ∀ a, mid a → (f a).Preserves env inv post) : (m >>= f).Preserves env inv post := by
  intro fs hfs
  apply Ends.bind
  exact (hm fs hfs).weaken (fun a fs' hend => hf a hend.2 fs' hend.1) fun _ hend => hend

/-- The second part does not depend on what is known of the first one's result. -/
theorem Preserves.andThen {post : β → Prop} (hm : m.Preserves env inv fun _ => True)
    (hf : ∀ a, (f a).Preserves env inv post) : (m >>= f).Preserves env inv post :=
  Preserves.bind hm fun a _ => hf a

theorem Preserves.perform {site : ι} {effect : Loc → FS γ → Except FsErr α × FS γ}
    {post : Except FsErr α → Prop}
    (heffect : ∀ fs, inv fs → inv (effect env.cwd fs).2 ∧ post (effect env.cwd fs).1)
    (hfail : post (.error .io)) : (Proc.perform site effect).Preserves env inv post := by
  intro fs hfs
  exact Ends.perform (fun _ => heffect fs hfs) (fun _ => ⟨hfs, hfail⟩) fun _ => hfs

/-- An operation that looks but does not touch. -/
theorem Preserves.observe {site : ι} {effect : Loc → FS γ → Except FsErr α × FS γ}
    (heffect : ∀ fs, (effect env.cwd fs).2 = fs) :
    (Proc.perform site effect).Preserves env inv fun _ => True :=
  Preserves.perform (fun fs hfs => ⟨(heffect fs).symm ▸ hfs, trivial⟩) trivial

theorem Preserves.settle {site : ι} :
    (Proc.settle site : Proc ι γ _).Preserves env inv fun _ => True :=
  Preserves.observe fun _ => rfl

theorem Preserves.removeAll {contents entry : ι} {path : Bytes}
    (hcontents : ∀ fs, inv fs → inv (fs.unlinkContents (resolve env.cwd path)))
    (hentry : ∀ fs, inv fs → inv (fs.unlink (resolve env.cwd path))) :
    (Proc.removeAll contents entry path).Preserves env inv fun _ => True := by
  refine Preserves.andThen
    (Preserves.perform (fun fs hfs => ⟨hcontents fs hfs, trivial⟩) trivial) ?_
  intro result
  cases result with
  | error e => exact Preserves.pure trivial
  | ok u => exact Preserves.perform (fun fs hfs => ⟨hentry fs hfs, trivial⟩) trivial

theorem Preserves.mkdirAll {site : ι} {path : Bytes}
    (hmake : ∀ fs, inv fs → inv (fs.mkdirAll (resolve env.cwd path))) :
    (Proc.mkdirAll site path).Preserves env inv fun _ => True := by
  refine Preserves.perform (fun fs hfs => ⟨?_, trivial⟩) trivial
  simp only
  split
  · exact hfs
  · exact hmake fs hfs

end Preserves

end Proc

/-- No operation fails; the process may still be killed. -/
def Env.NoFail (env : Env ι) : Prop := ∀ site, env.fate site ≠ .fail

/-- The process is not killed; operations may still fail. -/
def Env.NoCrash (env : Env ι) : Prop := ∀ site, env.fate site ≠ .crash

/-- Every operation takes effect. -/
def Env.AllOk (env : Env ι) : Prop := ∀ site, env.fate site = .ok

def Env.fair (cwd : Loc) : Env ι := ⟨cwd, fun _ => .ok⟩

theorem Env.fair_allOk (cwd : Loc) : (Env.fair cwd : Env ι).AllOk := fun _ => rfl

theorem Env.AllOk.noFail {env : Env ι} (h : env.AllOk) : env.NoFail := by
  intro site; simp [h site]

theorem Env.AllOk.noCrash {env : Env ι} (h : env.AllOk) : env.NoCrash := by
  intro site; simp [h site]

end RaftExample
