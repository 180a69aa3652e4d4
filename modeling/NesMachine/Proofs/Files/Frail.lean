import NesMachine.Proofs.Files.Reading
import NesMachine.Simulation

/-!
# Computers whose files fail

The files of a computer may refuse anything, and a write may break off with the first of its bytes in the
file. Here every request to the files meets a fate. The fates are written down beforehand, so what holds
for all of them holds however the files fail.

* `Frail`: a modelled computer with the fates of the requests to come.
* `SavedBy`: a computer behind some saves, whole or broken off.
* `Saving`: programs that change files by some saves alone, and the services that do.
-/

namespace NesMachine

open Digest (Bytes)
open Files (Tree)
open Files.Tree (OnlyBy)

/-! ## Fates -/

/-- What becomes of a request to the files of a computer. -/
inductive Fate where
  /-- It is done, as far as the files allow. -/
  | done
  /-- It is refused, and nothing is done. -/
  | refused (cause : Files.Error)
  /-- It fails halfway: of a write the first `count` bytes are done, and of directories all but the
  nearest `count`. -/
  | brokenOff (count : Nat) (cause : Files.Error)

namespace Fate

variable {α : Type}

/-- What a request comes to when it meets a fate. -/
def meet (whole : Simulated (Except Files.Error α)) (part : Nat → Simulated Unit) :
    Fate → Simulated (Except Files.Error α)
  | done => whole
  | refused cause => return .error cause
  | brokenOff count cause => do
    part count
    return .error cause

/-- What can be in a file to which bytes were written: all of them, or the first of them if a request
broke off. -/
def Leaves (fates : List Fate) (bytes left : Bytes) : Prop :=
  left = bytes ∨ ∃ count cause, brokenOff count cause ∈ fates ∧ left = bytes.extract 0 count

end Fate

/-- A modelled computer with the fates of the requests to come. A request without one is done. -/
structure Frail where
  computer : Simulation
  fates : List Fate := []

namespace Frail

variable {α β : Type}

/-- The files. -/
def tree (s : Frail) : Tree := s.computer.tree

/-- Runs what asks nothing of the files. -/
def inside (x : Simulated α) : StateM Frail α :=
  modifyGet fun s =>
    let (a, computer) := x s.computer
    (a, { s with computer })

/-- A request to the files, of which a part may be done. -/
def request (whole : Simulated (Except Files.Error α)) (part : Nat → Simulated Unit) :
    StateM Frail (Except Files.Error α) :=
  modifyGet fun s =>
    let (answer, computer) := (s.fates.headD .done).meet whole part s.computer
    (answer, { computer, fates := s.fates.tail })

instance : Host (StateM Frail) where
  readFile path := request (Host.readFile path) fun _ => pure ()
  writeFile path bytes := request (Host.writeFile path bytes) fun count =>
    discard (Host.writeFile path (bytes.extract 0 count))
  appendFile path bytes := request (Host.appendFile path bytes) fun count =>
    discard (Host.appendFile path (bytes.extract 0 count))
  createDirs path := request (Host.createDirs path) fun count =>
    modify fun s => { s with tree := (s.tree.createFirst (path.ancestors.drop count)).2 }
  clock := inside Host.clock
  note entry := inside (Host.note entry)

/-! ## Saves -/

/-- What saves can leave at a path. -/
def Left (s : Frail) (saves : List (Path × Bytes)) (path : Path) (left : Bytes) : Prop :=
  ∃ bytes, (path, bytes) ∈ saves ∧ Fate.Leaves s.fates bytes left

/-- A computer behind saves: what could be read is as it was, or a save was made at its place. -/
structure SavedBy (saves : List (Path × Bytes)) (s s' : Frail) : Prop where
  fates : s'.fates ⊆ s.fates
  files : OnlyBy (s.Left saves) s.tree s'.tree

variable {s s' s'' : Frail} {saves saves' : List (Path × Bytes)} {path : Path} {bytes left : Bytes}

theorem Left.mono (h : s'.Left saves path left) (hfates : s'.fates ⊆ s.fates)
    (hsaves : saves ⊆ saves') : s.Left saves' path left := by
  obtain ⟨bytes, hbytes, hwhole | ⟨count, cause, hbroken, hpart⟩⟩ := h
  · exact ⟨bytes, hsaves hbytes, .inl hwhole⟩
  · exact ⟨bytes, hsaves hbytes, .inr ⟨count, cause, hfates hbroken, hpart⟩⟩

theorem SavedBy.refl (s : Frail) : SavedBy saves s s := ⟨List.Subset.refl _, .refl _⟩

theorem SavedBy.mono (h : SavedBy saves s s') (hsaves : saves ⊆ saves') : SavedBy saves' s s' :=
  ⟨h.fates, h.files.mono fun _ _ hleft => hleft.mono (List.Subset.refl _) hsaves⟩

theorem SavedBy.trans (h : SavedBy saves s s') (h' : SavedBy saves' s' s'') :
    SavedBy (saves ++ saves') s s'' := by
  have hfirst := h.mono (List.subset_append_left saves saves')
  refine ⟨List.Subset.trans h'.fates h.fates, hfirst.files.trans (h'.files.mono ?_)⟩
  exact fun _ _ hleft => hleft.mono h.fates (List.subset_append_right saves saves')

/-- A request changes files by what it does, whatever fate it meets. -/
theorem savedBy_request {whole : Simulated (Except Files.Error α)} {part : Nat → Simulated Unit}
    (hwhole : OnlyBy (s.Left saves) s.tree (whole s.computer).2.tree)
    (hpart : ∀ count cause, .brokenOff count cause ∈ s.fates →
      OnlyBy (s.Left saves) s.tree (part count s.computer).2.tree) :
    SavedBy saves s (request whole part s).2 := by
  obtain ⟨computer, fates⟩ := s
  cases fates with
  | nil => exact ⟨List.nil_subset _, hwhole⟩
  | cons fate fates =>
    refine ⟨List.subset_cons_self fate fates, ?_⟩
    cases fate with
    | done => exact hwhole
    | refused cause => exact .refl computer.tree
    | brokenOff count cause => exact hpart count cause List.mem_cons_self

/-- What is read is in the files. -/
theorem readFile_ok (h : ((Host.readFile path : StateM Frail _) s).1 = .ok bytes) :
    s.tree.read path = .ok bytes := by
  obtain ⟨computer, fates⟩ := s
  cases fates with
  | nil => exact h
  | cons fate fates =>
    cases fate with
    | done => exact h
    | refused cause => cases h
    | brokenOff count cause => cases h

/-! ## Programs that save -/

/-- A program that changes the files of its computer by some saves alone. -/
def Saving (saves : List (Path × Bytes)) (x : StateM Frail α) : Prop :=
  ∀ s, SavedBy saves s (x s).2

variable {x : StateM Frail α} {f : α → StateM Frail β}

theorem Saving.pure (a : α) : Saving saves (Pure.pure a : StateM Frail α) := fun s => .refl s

theorem Saving.bind (hx : Saving saves x) (hf : ∀ a, Saving saves (f a)) : Saving saves (x >>= f) :=
  fun s => ((hx s).trans (hf (x s).1 (x s).2)).mono
    (List.append_subset.mpr ⟨List.Subset.refl _, List.Subset.refl _⟩)

theorem saving_readFile (path : Path) : Saving saves (Host.readFile path : StateM Frail _) :=
  fun s => savedBy_request (.refl s.tree) fun _ _ _ => .refl s.tree

theorem saving_log (level : Level) (topic : Topic) (text : String) :
    Saving saves (Host.log level topic text : StateM Frail Unit) := by
  intro s
  have htree : ((Host.log level topic text : StateM Frail Unit) s).2.tree = s.tree := by
    show (if level.shownAt s.computer.verbosity then _ else s.computer).tree = _
    split_ifs <;> rfl
  refine ⟨List.Subset.refl _, ?_⟩
  rw [htree]
  exact .refl s.tree

theorem saving_createDirs (dir : Path) : Saving saves (Host.createDirs dir : StateM Frail _) :=
  fun s => savedBy_request (Tree.onlyBy_createFirst s.tree dir.ancestors) fun count _ _ =>
    Tree.onlyBy_createFirst s.tree (dir.ancestors.drop count)

/-- A write on the computer itself leaves what was written. -/
theorem onlyBy_writeFile {left : Path → Bytes → Prop} (hleft : left path bytes) (c : Simulation) :
    OnlyBy left c.tree ((Host.writeFile path bytes : Simulated _) c).2.tree := by
  simp only [Host.writeFile, Simulation.change, modifyGet, MonadStateOf.modifyGet, StateT.modifyGet]
  cases hwrite : c.tree.write path bytes with
  | ok tree => exact Tree.onlyBy_write hleft hwrite
  | error e => exact .refl c.tree

theorem saving_writeFile (h : (path, bytes) ∈ saves) :
    Saving saves (Host.writeFile path bytes : StateM Frail _) := by
  intro s
  refine savedBy_request (onlyBy_writeFile ⟨bytes, h, .inl rfl⟩ s.computer)
    fun count cause hbroken => ?_
  exact onlyBy_writeFile ⟨bytes, h, .inr ⟨count, cause, hbroken, rfl⟩⟩ s.computer

end Frail

end NesMachine
