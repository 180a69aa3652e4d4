import NesMachine.Proofs.Cartridge.Shelf
import NesMachine.Proofs.Cartridge.WorkMemory

/-!
# Saves

Everything that can be done to a cartridge on a shelf of files, in any order. A save is made of a game
with a battery when the game leaves the slot, or when it is asked for; no other file is ever written.

* `after_files`, `afterAll_files`: the files behind a deed and behind any deeds.
* `restoredFrom_prgRam`: the work memory of a game that was loaded.
* `reload`: a game that is put back has the memory that it had when it left.
-/

namespace NesMachine

open Digest (Bytes)

namespace Cartridge

variable {c c' : Cartridge} {w : World} {files files' : Shelf} {path p : Path} {ram bytes : Bytes}
  {board : Board} {saveFile : Option Path}

/-! ## Deeds -/

/-- What can be done to a cartridge. -/
inductive Deed where
  | load (path : Path)
  | loadBytes (bytes : Bytes) (saveFile : Option Path)
  | writePrg (addr : UInt16) (value : UInt8)
  | writeChr (addr : UInt16) (value : UInt8)
  | persist
  | unload
  /-- The cartridge is dropped, and there is a new one. -/
  | drop (saveDir : Option Path)

/-- The slot behind a write: one that faults gives it back as it was. -/
def written : Except (Board.Fault × Slot) Slot → Slot
  | .ok slot => slot
  | .error (_, slot) => slot

/-- The cartridge behind a load: one that fails gives none, and the old one stays. -/
def loaded (c : Cartridge) : Except LoadFailure Cartridge → Cartridge
  | .ok c' => c'
  | .error _ => c

namespace Deed

/-- Does a deed. -/
def run (c : Cartridge) : Deed → StateM Shelf Cartridge
  | .load path => do return c.loaded (← c.load path)
  | .loadBytes bytes saveFile => do return c.loaded (← c.loadBytes bytes saveFile)
  | .writePrg addr value => return { c with slot := written (c.slot.writePrg addr value) }
  | .writeChr addr value => return { c with slot := written (c.slot.writeChr addr value) }
  | .persist => do
    c.persist
    return c
  | .unload => c.unload
  | .drop saveDir => do
    c.persist
    return { saveDir }

/-- The world behind a deed. -/
def after (d : Deed) (w : World) : World := d.run w.1 w.2

/-- The world behind deeds, in order. -/
def afterAll (deeds : List Deed) (w : World) : World := deeds.foldl (fun w d => d.after w) w

/-- How a load ends. -/
def outcome? (w : World) : Deed → Option (Except LoadFailure Cartridge)
  | .load path => some ((w.1.load path : StateM Shelf _) w.2).1
  | .loadBytes bytes saveFile => some ((w.1.loadBytes bytes saveFile : StateM Shelf _) w.2).1
  | _ => none

/-- The game in the slot leaves it: another one is put in, or the slot is emptied. -/
def replaces (w : World) : Deed → Bool
  | .unload | .drop _ => true
  | d => (d.outcome? w).any Except.isOk

/-- The game in the slot is saved, if it is one to be saved. -/
def flushes (w : World) : Deed → Bool
  | .persist => true
  | d => d.replaces w

/-- The saves made by deeds, in order. -/
def saves : List Deed → World → List (Path × Bytes)
  | [], _ => []
  | d :: deeds, w => (if d.flushes w then w.1.saved?.toList else []) ++ saves deeds (d.after w)

variable {d : Deed} {deeds : List Deed} {failure : LoadFailure}

/-- The ROM file that a deed loads, and the save file that goes with it. -/
def source? (w : World) : Deed → Option (Bytes × Option Path)
  | .load path => (w.2 path).map fun bytes => (bytes, some (savePathFor w.1.saveDir path))
  | .loadBytes bytes saveFile => some (bytes, saveFile)
  | _ => none

/-- The verdict on the game that a deed loads, and the save file that goes with it. -/
def verdict? (w : World) : Deed → Option (Except LoadFailure Board × Option Path)
  | .load path => some (gameOf path (w.2.answer path), some (savePathFor w.1.saveDir path))
  | .loadBytes bytes saveFile => some (boardOf bytes, saveFile)
  | _ => none

theorem verdict?_of_source? (h : d.source? w = some (bytes, saveFile)) :
    d.verdict? w = some (boardOf bytes, saveFile) := by
  cases d with
  | load path =>
    obtain ⟨bytes', hbytes, hsource⟩ := Option.map_eq_some_iff.mp h
    cases hsource
    simp only [verdict?, Shelf.answer, hbytes]
    rfl
  | loadBytes bytes' saveFile' =>
    cases h
    rfl
  | writePrg | writeChr | persist | unload | drop => cases h

theorem source?_of_verdict? (h : d.verdict? w = some (.ok board, saveFile)) :
    ∃ bytes, d.source? w = some (bytes, saveFile) ∧ boardOf bytes = .ok board := by
  cases d with
  | load path =>
    obtain ⟨hgame, hsaveFile⟩ := Prod.mk.inj (Option.some.inj h)
    unfold Shelf.answer at hgame
    cases hbytes : w.2 path with
    | none =>
      rw [hbytes] at hgame
      cases hgame
    | some bytes =>
      rw [hbytes] at hgame
      refine ⟨bytes, ?_, hgame⟩
      simp only [source?, hbytes, ← hsaveFile, Option.map_some]
  | loadBytes bytes saveFile' =>
    obtain ⟨hgame, hsaveFile⟩ := Prod.mk.inj (Option.some.inj h)
    exact ⟨bytes, by rw [← hsaveFile]; rfl, hgame⟩
  | writePrg | writeChr | persist | unload | drop => cases h

/-- A load is settled by the verdict on its game. -/
theorem load_run {game : Except LoadFailure Board} (h : d.verdict? w = some (game, saveFile)) :
    d.outcome? w = some ((w.1.settle saveFile game : StateM Shelf _) w.2).1 ∧
      d.after w = (w.1.loaded ((w.1.settle saveFile game : StateM Shelf _) w.2).1,
        ((w.1.settle saveFile game : StateM Shelf _) w.2).2) := by
  cases d with
  | load path =>
    cases h
    have hload : (w.1.load path : StateM Shelf _) w.2 =
        (w.1.settle (some (savePathFor w.1.saveDir path)) (gameOf path (w.2.answer path)) :
          StateM Shelf _) w.2 := by
      rw [load_eq]
      exact Shelf.bind_run (Shelf.readFile_run path w.2)
    rw [← hload]
    exact ⟨rfl, rfl⟩
  | loadBytes bytes saveFile' =>
    cases h
    rw [← loadBytes_eq]
    exact ⟨rfl, rfl⟩
  | writePrg | writeChr | persist | unload | drop => cases h

/-- A game that there is can be loaded: the old game is saved, and the new one put in. -/
theorem load_ok (h : d.verdict? w = some (.ok board, saveFile)) :
    d.outcome? w =
        some (.ok ⟨some (restoredFrom (flushed w) board saveFile), w.1.saveDir, saveFile⟩) ∧
      d.after w =
        (⟨some (restoredFrom (flushed w) board saveFile), w.1.saveDir, saveFile⟩, flushed w) := by
  have hload := load_run h
  rwa [settle_run] at hload

/-- Without a game, a load does nothing. -/
theorem load_error (h : d.verdict? w = some (.error failure, saveFile)) :
    d.outcome? w = some (.error failure) ∧ d.after w = w := by
  have hload := load_run h
  rwa [settle_run] at hload

theorem verdict?_of_outcome? {result : Except LoadFailure Cartridge}
    (h : d.outcome? w = some result) : ∃ v, d.verdict? w = some v := by
  cases d with
  | load | loadBytes => exact ⟨_, rfl⟩
  | writePrg | writeChr | persist | unload | drop => cases h

theorem after_refused (h : d.outcome? w = some (.error failure)) : d.after w = w := by
  obtain ⟨⟨game, saveFile⟩, hv⟩ := verdict?_of_outcome? h
  cases game with
  | ok board => cases h.symm.trans (load_ok hv).1
  | error failure => exact (load_error hv).2

theorem load_replaces {game : Except LoadFailure Board} (h : d.verdict? w = some (game, saveFile)) :
    d.replaces w = game.isOk ∧ d.flushes w = game.isOk := by
  have houtcome : d.outcome? w = some _ := (load_run h).1
  rw [settle_run] at houtcome
  have hsame : d.replaces w = (d.outcome? w).any Except.isOk ∧
      d.flushes w = (d.outcome? w).any Except.isOk := by
    cases d with
    | load | loadBytes => exact ⟨rfl, rfl⟩
    | writePrg | writeChr | persist | unload | drop => cases h
  rw [hsame.1, hsame.2, houtcome]
  cases game <;> exact ⟨rfl, rfl⟩

theorem flushes_of_replaces (h : d.replaces w = true) : d.flushes w = true := by
  cases d with
  | persist => rfl
  | load | loadBytes | writePrg | writeChr | unload | drop => exact h

/-! ## The files behind deeds -/

/-- **The files behind a deed**: a save of the game in the slot, or nothing new. -/
theorem after_files (d : Deed) (w : World) :
    (d.after w).2 = if d.flushes w then flushed w else w.2 := by
  have hload {v : Except LoadFailure Board × Option Path} (h : d.verdict? w = some v) :
      (d.after w).2 = if d.flushes w then flushed w else w.2 := by
    obtain ⟨game, saveFile⟩ := v
    rw [(load_replaces h).2]
    cases game with
    | ok board => rw [(load_ok h).2]; rfl
    | error failure => rw [(load_error h).2]; rfl
  cases d with
  | load path => exact hload rfl
  | loadBytes bytes saveFile => exact hload rfl
  | writePrg addr value => rfl
  | writeChr addr value => rfl
  | persist => exact congrArg Prod.snd (Shelf.bind_run (persist_run w.1 w.2))
  | unload => exact congrArg Prod.snd (unload_run w.1 w.2)
  | drop saveDir => exact congrArg Prod.snd (Shelf.bind_run (persist_run w.1 w.2))

theorem afterAll_append (deeds rest : List Deed) (w : World) :
    afterAll (deeds ++ rest) w = afterAll rest (afterAll deeds w) := List.foldl_append

theorem saves_cons (d : Deed) (deeds : List Deed) (w : World) :
    saves (d :: deeds) w =
      (if d.flushes w then w.1.saved?.toList else []) ++ saves deeds (d.after w) := rfl

/-- **The files behind any deeds are those before them, with the saves put in order.** -/
theorem afterAll_files (deeds : List Deed) (w : World) :
    (afterAll deeds w).2 = w.2.putAll (saves deeds w) := by
  induction deeds generalizing w with
  | nil => rfl
  | cons d deeds ih =>
    show (afterAll deeds (d.after w)).2 = w.2.putAll (_ ++ saves deeds (d.after w))
    rw [ih, after_files]
    unfold Shelf.putAll flushed
    rw [List.foldl_append]
    split_ifs <;> rfl

end Deed

/-! ## Games that were loaded -/

/-- The work memory of a game that was put in. -/
theorem restoredFrom_prgRam (h : boardOf bytes = .ok board) (files : Shelf)
    (saveFile : Option Path) :
    (restoredFrom files board saveFile).image.prgRam =
      overlay (Array.replicate (workSize board.image.header) 0) ((saveFile.bind files).getD #[]) := by
  have hprgRam := boardOf_prgRam h
  unfold restoredFrom
  cases saveFile.bind files with
  | none =>
    rw [hprgRam]
    simp [overlay]
  | some saved =>
    rw [← hprgRam]
    rfl

theorem restoredFrom_sameGame (h : boardOf bytes = .ok board) (files : Shelf)
    (saveFile : Option Path) : (restoredFrom files board saveFile).SameGame board := by
  refine ⟨?_, ?_⟩
  · unfold restoredFrom
    cases saveFile.bind files <;> rfl
  · rw [restoredFrom_prgRam h, boardOf_prgRam h, (overlay_replicate _ _).1, Array.size_replicate]

/-! ## Games that stay in the slot -/

/-- The slot holds a game that came on a board, with its save file. -/
structure Holds (c : Cartridge) (board : Board) (saveFile : Option Path) : Prop where
  slot : ∃ b, c.slot = some b ∧ b.SameGame board
  saveFile : c.saveFile = saveFile

theorem SavesAt.size (h : c.SavesAt p ram) (hc : c.Holds board saveFile) :
    ram.size = board.image.prgRam.size := by
  obtain ⟨b, hb, -, -, -, rfl⟩ := h
  obtain ⟨b', hb', hgame⟩ := hc.slot
  cases hb.symm.trans hb'
  exact hgame.size

namespace Deed

variable {d : Deed} {deeds : List Deed}

theorem holds_of_load (h : d.source? w = some (bytes, saveFile)) (hboard : boardOf bytes = .ok board) :
    (d.after w).1.Holds board saveFile := by
  have hverdict := verdict?_of_source? h
  rw [hboard] at hverdict
  rw [(load_ok hverdict).2]
  exact ⟨⟨_, rfl, restoredFrom_sameGame hboard _ _⟩, rfl⟩

theorem written_sameGame {b : Board} (addr : UInt16) (value : UInt8) :
    (∃ b', written (Slot.writePrg (some b) addr value) = some b' ∧ b'.SameGame b) ∧
      ∃ b', written (Slot.writeChr (some b) addr value) = some b' ∧ b'.SameGame b := by
  unfold Slot.writePrg Slot.writeChr
  simp only
  constructor
  · cases hwrite : b.writePrg addr value with
    | ok b' => exact ⟨b', rfl, Board.writePrg_sameGame hwrite⟩
    | error e =>
      obtain ⟨fault, b'⟩ := e
      obtain ⟨rfl, -⟩ := Board.writePrg_lacks hwrite
      exact ⟨b', rfl, rfl, rfl⟩
  · cases hwrite : b.writeChr addr value with
    | ok b' => exact ⟨b', rfl, Board.writeChr_sameGame hwrite⟩
    | error e =>
      obtain ⟨fault, b'⟩ := e
      obtain ⟨rfl, -⟩ := Board.writeChr_lacks hwrite
      exact ⟨b', rfl, rfl, rfl⟩

/-- A deed that takes no game out keeps the one in the slot. -/
theorem after_holds (h : w.1.Holds board saveFile) (hstays : d.replaces w = false) :
    (d.after w).1.Holds board saveFile := by
  have hload {v : Except LoadFailure Board × Option Path} (hv : d.verdict? w = some v) :
      (d.after w).1.Holds board saveFile := by
    obtain ⟨game, saveFile'⟩ := v
    rw [(load_replaces hv).1] at hstays
    cases game with
    | ok => cases hstays
    | error failure => rwa [(load_error hv).2]
  obtain ⟨⟨b, hslot, hgame⟩, hsaveFile⟩ := h
  cases d with
  | load path => exact hload rfl
  | loadBytes bytes saveFile => exact hload rfl
  | writePrg addr value =>
    obtain ⟨b', hwritten, hsame⟩ := (written_sameGame addr value).1
    refine ⟨⟨b', ?_, hsame.trans hgame⟩, hsaveFile⟩
    rw [← hwritten, ← hslot]
    rfl
  | writeChr addr value =>
    obtain ⟨b', hwritten, hsame⟩ := (written_sameGame addr value).2
    refine ⟨⟨b', ?_, hsame.trans hgame⟩, hsaveFile⟩
    rw [← hwritten, ← hslot]
    rfl
  | persist =>
    have hafter : Deed.persist.after w = (w.1, flushed w) := Shelf.bind_run (persist_run w.1 w.2)
    rw [hafter]
    exact ⟨⟨b, hslot, hgame⟩, hsaveFile⟩
  | unload => cases hstays
  | drop => cases hstays

/-- Deeds behind all of which the game is still in the slot. -/
def Stays : List Deed → World → Prop
  | [], _ => True
  | d :: deeds, w => d.replaces w = false ∧ Stays deeds (d.after w)

theorem Stays.holds (h : Stays deeds w) (hw : w.1.Holds board saveFile) :
    (afterAll deeds w).1.Holds board saveFile := by
  induction deeds generalizing w with
  | nil => exact hw
  | cons d deeds ih => exact ih h.2 (after_holds hw h.1)

/-! ## Games that come back -/

/-- **A game that is put back has the memory that it had when it left**, unless another one was saved in
its place. -/
theorem reload {first again : Deed} {played others rest : List Deed} {rom : Bytes}
    (hrom : boardOf rom = .ok board)
    (hfirst : first.source? w = some (rom, some p)) (hplayed : Stays played (first.after w))
    (hsaved : (afterAll (first :: played) w).1.SavesAt p ram)
    (hleaves : d.replaces (afterAll (first :: played) w) = true)
    (hothers : ∀ save ∈ saves rest (d.after (afterAll (first :: played) w)), save.1 ≠ p)
    (hrest : d :: rest = others ++ [again])
    (hagain : again.source? (afterAll (first :: played ++ others) w) = some (rom, some p)) :
    ∃ b, (afterAll (first :: played ++ (d :: rest)) w).1.slot = some b ∧ b.image.prgRam = ram := by
  rw [afterAll_append] at hagain ⊢
  have hholds : (afterAll (first :: played) w).1.Holds board (some p) :=
    hplayed.holds (holds_of_load hfirst hrom)
  generalize afterAll (first :: played) w = w₂ at *
  have hsaves : saves (d :: rest) w₂ = (p, ram) :: saves rest (d.after w₂) := by
    rw [saves_cons, flushes_of_replaces hleaves, saved?_eq_some_iff.mpr hsaved]
    rfl
  have hfile : (afterAll (d :: rest) w₂).2 p = some ram := by
    rw [afterAll_files, hsaves]
    exact (Shelf.putAll_of_forall_ne hothers).trans Shelf.put_self
  rw [hrest, afterAll_append] at hfile ⊢
  generalize afterAll others w₂ = w₃ at *
  have hverdict := verdict?_of_source? hagain
  rw [hrom] at hverdict
  have hafter : afterAll [again] w₃ = _ := (load_ok hverdict).2
  rw [hafter] at hfile ⊢
  refine ⟨_, rfl, ?_⟩
  have hsize : workSize board.image.header = ram.size := by
    rw [hsaved.size hholds, boardOf_prgRam hrom, Array.size_replicate]
  have hread : (some p).bind (flushed w₃) = some ram := hfile
  rw [restoredFrom_prgRam hrom, hread, hsize]
  exact overlay_self ram

/-- A game that was loaded has its save under it, and zeros where that does not reach. -/
theorem loaded_prgRam (h : d.outcome? w = some (.ok c')) (hsaveFile : c'.saveFile = some path) :
    d.after w = (c', flushed w) ∧ ∃ b, c'.slot = some b ∧
      b.image.prgRam.size = workSize b.image.header ∧
      ∀ k < workSize b.image.header,
        b.image.prgRam.getD k 0 = ((flushed w path).getD #[]).getD k 0 := by
  obtain ⟨⟨game, saveFile⟩, hv⟩ := verdict?_of_outcome? h
  cases game with
  | error failure => cases h.symm.trans (load_error hv).1
  | ok board =>
    obtain ⟨houtcome, hafter⟩ := load_ok hv
    cases houtcome.symm.trans h
    cases hsaveFile
    obtain ⟨bytes, -, hboard⟩ := source?_of_verdict? hv
    have hheader := (restoredFrom_sameGame hboard (flushed w) (some path)).header
    refine ⟨hafter, _, rfl, ?_⟩
    rw [hheader, restoredFrom_prgRam hboard]
    exact overlay_replicate _ _

/-- **No save is lost or leaked.** Of whatever is done to a cartridge:

* the files behind it are those before it with the saves put in order, and a save is made of the game
  in the slot, with its work memory as it is, when that is asked for or when the game leaves;
* a load that fails does nothing;
* a game that was loaded has as much work memory as its board: the save file, as it is behind the save
  of the old game and as far as it goes, and then zeros;
* a game that is put back has the memory that it had when it left, unless another one was saved in its
  place meanwhile. -/
theorem saves_exact (w : World) :
    (∀ deeds, (afterAll deeds w).2 = w.2.putAll (saves deeds w)) ∧
      (∀ (d : Deed) path ram, d.flushes w = true → w.1.SavesAt path ram →
        (d.after w).2 path = some ram) ∧
      (∀ (d : Deed) path, (d.after w).2 path ≠ w.2 path →
        d.flushes w = true ∧ ∃ ram, w.1.SavesAt path ram) ∧
      (∀ (d : Deed) failure, d.outcome? w = some (.error failure) → d.after w = w) ∧
      (∀ (d : Deed) c path, d.outcome? w = some (.ok c) → c.saveFile = some path →
        d.after w = (c, flushed w) ∧ ∃ board, c.slot = some board ∧
          board.image.prgRam.size = workSize board.image.header ∧
          ∀ k < workSize board.image.header,
            board.image.prgRam.getD k 0 = ((flushed w path).getD #[]).getD k 0) ∧
      ∀ (first d again : Deed) (played others rest : List Deed) (rom : Bytes) (board : Board)
        (path : Path) (ram : Bytes),
        boardOf rom = .ok board →
        first.source? w = some (rom, some path) → Stays played (first.after w) →
        (afterAll (first :: played) w).1.SavesAt path ram →
        d.replaces (afterAll (first :: played) w) = true →
        (∀ save ∈ saves rest (d.after (afterAll (first :: played) w)), save.1 ≠ path) →
        d :: rest = others ++ [again] →
        again.source? (afterAll (first :: played ++ others) w) = some (rom, some path) →
        ∃ b, (afterAll (first :: played ++ (d :: rest)) w).1.slot = some b ∧
          b.image.prgRam = ram := by
  refine ⟨fun deeds => afterAll_files deeds w, fun d path ram hflushes hsaved => ?_,
    fun d path hchanged => ?_, fun d failure hfailed => ?_,
    fun d c path hloaded hsaveFile => loaded_prgRam hloaded hsaveFile,
    fun first d again played others rest rom board path ram => reload⟩
  · rw [after_files, if_pos hflushes]
    exact flushed_saved hsaved
  · rw [after_files] at hchanged
    split_ifs at hchanged with hflushes
    · exact ⟨hflushes, flushed_changed hchanged⟩
    · exact (hchanged rfl).elim
  · exact after_refused hfailed

/-- The smallest game with a battery: a byte of program, a byte of patterns, and 128 of work memory. -/
def batteryGame (program : UInt8) : Bytes :=
  #[0x4E, 0x45, 0x53, 0x1A, 0, 0, 2, 8, 0, 0xFF, 1, 0, 0, 0, 0, 0, program, 0]

/-- A computer without files. -/
def nowhere : World := ({}, fun _ => none)

/-- A small game that was played. -/
theorem batteryGame_played : ∃ board ram, boardOf (batteryGame 1) = .ok board ∧
    (afterAll [.loadBytes (batteryGame 1) (some ⟨"one"⟩), .writePrg 0x6000 66] nowhere).1.SavesAt
      ⟨"one"⟩ ram ∧ ram.getD 0 0 = 66 := by
  obtain ⟨board, hboard⟩ : ∃ board, boardOf (batteryGame 1) = .ok board := ⟨_, rfl⟩
  have hsaved : (afterAll [.loadBytes (batteryGame 1) (some ⟨"one"⟩), .writePrg 0x6000 66]
      nowhere).1.saved?.map (fun save => (save.1, save.2.getD 0 0)) = some (⟨"one"⟩, 66) := by
    decide +kernel
  obtain ⟨⟨path, ram⟩, hsave, hshown⟩ := Option.map_eq_some_iff.mp hsaved
  obtain ⟨rfl, hbyte⟩ := Prod.mk.inj hshown
  exact ⟨board, ram, hboard, saved?_eq_some_iff.mp hsave, hbyte⟩

/-- It is put back after another game, which is saved elsewhere. -/
theorem saves_exact_battery : ∃ b : Board,
    (afterAll [.loadBytes (batteryGame 1) (some ⟨"one"⟩), .writePrg 0x6000 66, .unload,
      .loadBytes (batteryGame 2) (some ⟨"two"⟩), .writePrg 0x6000 153,
      .loadBytes (batteryGame 1) (some ⟨"one"⟩)] nowhere).1.slot = some b ∧
    b.image.prgRam.getD 0 0 = 66 := by
  obtain ⟨board, ram, hboard, hsaved, hbyte⟩ := batteryGame_played
  obtain ⟨-, -, -, -, -, hreload⟩ := saves_exact nowhere
  obtain ⟨b, hslot, hram⟩ := hreload (.loadBytes (batteryGame 1) (some ⟨"one"⟩)) .unload
    (.loadBytes (batteryGame 1) (some ⟨"one"⟩)) [.writePrg 0x6000 66]
    [.unload, .loadBytes (batteryGame 2) (some ⟨"two"⟩), .writePrg 0x6000 153]
    [.loadBytes (batteryGame 2) (some ⟨"two"⟩), .writePrg 0x6000 153,
      .loadBytes (batteryGame 1) (some ⟨"one"⟩)]
    (batteryGame 1) board ⟨"one"⟩ ram hboard rfl ⟨rfl, trivial⟩ hsaved rfl (by decide +kernel) rfl rfl
  simp only [List.cons_append, List.nil_append] at hslot
  exact ⟨b, hslot, by rw [hram, hbyte]⟩

/-- Two games that share a save file overwrite each other's saves. -/
theorem shared_save_lost : ¬ ∀ (w : World) (first d again : Deed) (played others rest : List Deed)
    (rom : Bytes) (board : Board) (path : Path) (ram : Bytes),
    boardOf rom = .ok board →
    first.source? w = some (rom, some path) → Stays played (first.after w) →
    (afterAll (first :: played) w).1.SavesAt path ram →
    d.replaces (afterAll (first :: played) w) = true →
    d :: rest = others ++ [again] →
    again.source? (afterAll (first :: played ++ others) w) = some (rom, some path) →
    ∃ b, (afterAll (first :: played ++ (d :: rest)) w).1.slot = some b ∧ b.image.prgRam = ram := by
  intro hreload
  obtain ⟨board, ram, hboard, hsaved, hbyte⟩ := batteryGame_played
  obtain ⟨b, hslot, hram⟩ := hreload nowhere (.loadBytes (batteryGame 1) (some ⟨"one"⟩))
    (.loadBytes (batteryGame 2) (some ⟨"one"⟩)) (.loadBytes (batteryGame 1) (some ⟨"one"⟩))
    [.writePrg 0x6000 66] [.loadBytes (batteryGame 2) (some ⟨"one"⟩), .writePrg 0x6000 153]
    [.writePrg 0x6000 153, .loadBytes (batteryGame 1) (some ⟨"one"⟩)]
    (batteryGame 1) board ⟨"one"⟩ ram hboard rfl ⟨rfl, trivial⟩ hsaved (by decide +kernel) rfl rfl
  have hother : (afterAll [.loadBytes (batteryGame 1) (some ⟨"one"⟩), .writePrg 0x6000 66,
      .loadBytes (batteryGame 2) (some ⟨"one"⟩), .writePrg 0x6000 153,
      .loadBytes (batteryGame 1) (some ⟨"one"⟩)] nowhere).1.slot.map
        (·.image.prgRam.getD 0 0) = some 153 := by decide +kernel
  simp only [List.cons_append, List.nil_append] at hslot
  rw [hslot, Option.map_some, hram, hbyte] at hother
  cases hother

end Deed

end Cartridge

end NesMachine
