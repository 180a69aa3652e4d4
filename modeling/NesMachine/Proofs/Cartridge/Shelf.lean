import Mathlib.Tactic.SplitIfs
import NesMachine.Proofs.Cartridge.Loading

/-!
# Cartridges on a shelf

The files of a computer as a map from paths to bytes, on which every write succeeds, and what the calls
of a cartridge come to there: the game in the slot is saved if it is one to be saved, and that is all
that is ever written.

* `saved?_eq_some_iff`: which games are saved, where, and with which bytes.
* `settle_run`: a load on a shelf, by the verdict on its game.
-/

namespace NesMachine

open Digest (Bytes)

/-! ## Files -/

/-- Files by their paths. -/
abbrev Shelf := Path → Option Bytes

namespace Shelf

/-- The files with one more. -/
def put (files : Shelf) (path : Path) (bytes : Bytes) : Shelf :=
  fun other => if other = path then some bytes else files other

/-- The files with more of them, in order. -/
def putAll (files : Shelf) (saves : List (Path × Bytes)) : Shelf :=
  saves.foldl (fun files save => files.put save.1 save.2) files

/-- The answer to a read of a file. -/
def answer (files : Shelf) (path : Path) : Except Files.Error Bytes :=
  match files path with
  | some bytes => .ok bytes
  | none => .error .notFound

/-- A computer on which every write succeeds. -/
instance : Host (StateM Shelf) where
  readFile path := return (← get).answer path
  writeFile path bytes := do
    modify (·.put path bytes)
    return .ok ()
  appendFile path bytes := do
    modify fun files => files.put path ((files path).getD #[] ++ bytes)
    return .ok ()
  createDirs _ := return .ok ()
  clock := return 0
  note _ := return ()

variable {α β : Type} {files files' : Shelf} {path other : Path} {bytes : Bytes}

theorem bind_run {x : StateM Shelf α} {f : α → StateM Shelf β} {a : α} (h : x files = (a, files')) :
    (x >>= f) files = f a files' := by
  have hbind : (x >>= f) files = match x files with
    | (a, files) => f a files := rfl
  rw [hbind, h]

theorem readFile_run (path : Path) (files : Shelf) :
    (Host.readFile path : StateM Shelf _) files = (files.answer path, files) := rfl

theorem put_self : files.put path bytes path = some bytes := if_pos rfl

theorem put_ne (h : other ≠ path) : files.put path bytes other = files other := if_neg h

theorem putAll_of_forall_ne {saves : List (Path × Bytes)} (h : ∀ save ∈ saves, save.1 ≠ path) :
    files.putAll saves path = files path := by
  induction saves generalizing files with
  | nil => rfl
  | cons save saves ih =>
    obtain ⟨hsave, hsaves⟩ := List.forall_mem_cons.mp h
    exact (ih hsaves).trans (put_ne hsave.symm)

end Shelf

namespace Cartridge

/-- A cartridge and the files of its computer. -/
abbrev World := Cartridge × Shelf

variable {c : Cartridge} {w : World} {path : Path} {ram : Bytes}

/-! ## Games that are saved -/

/-- The slot holds a game with a battery and work memory, which is to be saved at a path. -/
def SavesAt (c : Cartridge) (path : Path) (ram : Bytes) : Prop :=
  ∃ board, c.slot = some board ∧ c.saveFile = some path ∧ board.image.header.hasBattery = true ∧
    board.image.prgRam ≠ #[] ∧ ram = board.image.prgRam

theorem saved?_eq_some_iff : c.saved? = some (path, ram) ↔ c.SavesAt path ram := by
  obtain ⟨slot, saveDir, saveFile⟩ := c
  unfold saved? SavesAt
  cases slot with
  | none => simp
  | some board =>
    cases saveFile with
    | none => simp
    | some path' =>
      simp only [Option.some.injEq, exists_eq_left', Bool.and_eq_true, Bool.not_eq_true',
        Array.isEmpty_eq_false_iff]
      split_ifs with hsaved
      · obtain ⟨hbattery, hram⟩ := hsaved
        simp [hbattery, hram, eq_comm]
      · simp only [false_iff]
        rintro ⟨-, hbattery, hram, -⟩
        exact hsaved ⟨hbattery, hram⟩

/-- The files behind the save of the game in the slot, if it is one to be saved. -/
def flushed (w : World) : Shelf := w.2.putAll w.1.saved?.toList

theorem flushed_saved (h : w.1.SavesAt path ram) : flushed w path = some ram := by
  unfold flushed
  rw [saved?_eq_some_iff.mpr h]
  exact Shelf.put_self

theorem flushed_changed (h : flushed w path ≠ w.2 path) : ∃ ram, w.1.SavesAt path ram := by
  unfold flushed at h
  cases hsaved : w.1.saved? with
  | none =>
    rw [hsaved] at h
    exact (h rfl).elim
  | some save =>
    rw [hsaved] at h
    by_cases hpath : path = save.1
    · exact ⟨save.2, saved?_eq_some_iff.mp (by rw [hsaved, hpath])⟩
    · exact (h (Shelf.put_ne hpath)).elim

theorem writeSave_run (path : Path) (bytes : Bytes) (files : Shelf) :
    (writeSave path bytes : StateM Shelf Unit) files = ((), files.put path bytes) := by
  unfold writeSave
  cases path.parent?.filter (!·.text.isEmpty) <;> rfl

theorem persist_run (c : Cartridge) (files : Shelf) :
    (c.persist : StateM Shelf Unit) files = ((), flushed (c, files)) := by
  unfold persist flushed
  cases c.saved? with
  | none => rfl
  | some save => exact writeSave_run save.1 save.2 files

theorem unload_run (c : Cartridge) (files : Shelf) :
    (c.unload : StateM Shelf Cartridge) files =
      ({ c with slot := none, saveFile := none }, flushed (c, files)) := by
  have hbind : (c.unload : StateM Shelf Cartridge) files =
      match (c.persist : StateM Shelf Unit) files with
      | ((), files) => ({ c with slot := none, saveFile := none }, files) := by
    unfold unload
    cases c.slot <;> rfl
  rw [hbind, persist_run]

/-- A game with its work memory from its save file, if there is one. -/
def restoredFrom (files : Shelf) (board : Board) (saveFile : Option Path) : Board :=
  match saveFile.bind files with
  | some saved => restored board saved
  | none => board

theorem restore_run (board : Board) (path : Path) (files : Shelf) :
    (restore board path : StateM Shelf Board) files =
      (restoredFrom files board (some path), files) := by
  unfold restore restoredFrom
  rw [Shelf.bind_run (Shelf.readFile_run path files)]
  unfold Shelf.answer
  simp only [Option.bind_some]
  cases files path <;> rfl

theorem insert_run (c : Cartridge) (board : Board) (saveFile : Option Path) (files : Shelf) :
    (c.insert board saveFile : StateM Shelf Cartridge) files =
      ({ c with slot := some (restoredFrom (flushed (c, files)) board saveFile), saveFile },
        flushed (c, files)) := by
  unfold insert
  rw [Shelf.bind_run (unload_run c files)]
  cases saveFile with
  | none => rfl
  | some path => exact Shelf.bind_run (restore_run board path _)

theorem settle_run (c : Cartridge) (saveFile : Option Path) (game : Except LoadFailure Board)
    (files : Shelf) :
    (c.settle saveFile game : StateM Shelf _) files =
      match game with
      | .ok board =>
        (.ok { c with slot := some (restoredFrom (flushed (c, files)) board saveFile), saveFile },
          flushed (c, files))
      | .error failure => (.error failure, files) := by
  cases game with
  | ok board => exact Shelf.bind_run (insert_run c board saveFile files)
  | error failure => rfl

end Cartridge

end NesMachine
