import NesMachine.Proofs.Cartridge.Saves
import NesMachine.Proofs.Files.Frail

/-!
# ROM files

Whatever is done to a cartridge, and however the files of its computer fail, a file can only be changed
by a save that goes to its place. A save path that was made from the path of a game leads to a name with
the extension of save files, and so to the ROM file only where that has the same extension.

* `savedBy_step`, `savedBy_steps`: the files behind a deed and behind any deeds.
* `namedAsSave_of_savePathFor`: where a save path leads that was made from a ROM path.
* `rom_kept`: what becomes of the ROM file of a game.
-/

namespace NesMachine

open Digest (Bytes)
open Files (Tree)

namespace Cartridge

open Frail (Saving SavedBy)

variable {c c' : Cartridge} {path p : Path} {bytes rom : Bytes} {saveFile : Option Path}

/-! ## Programs that save -/

theorem saving_writeSave (path : Path) (bytes : Bytes) :
    Saving [(path, bytes)] (writeSave path bytes : StateM Frail Unit) := by
  have hwrite := Frail.saving_writeFile (List.mem_singleton_self (path, bytes))
  unfold writeSave
  cases path.parent?.filter (!·.text.isEmpty) with
  | none =>
    refine hwrite.bind fun result => ?_
    cases result <;> exact Frail.saving_log _ _ _
  | some dir =>
    refine (Frail.saving_createDirs dir).bind fun result => ?_
    cases result with
    | error e => exact Frail.saving_log _ _ _
    | ok =>
      refine hwrite.bind fun result => ?_
      cases result <;> exact Frail.saving_log _ _ _

theorem saving_persist (c : Cartridge) : Saving c.saved?.toList (c.persist : StateM Frail Unit) := by
  unfold persist
  cases c.saved? with
  | none => exact .pure ()
  | some save => exact saving_writeSave save.1 save.2

theorem saving_unload (c : Cartridge) : Saving c.saved?.toList (c.unload : StateM Frail Cartridge) := by
  unfold unload
  refine (saving_persist c).bind fun _ => ?_
  split_ifs
  · exact (Frail.saving_log _ _ _).bind fun _ => .pure _
  · exact .pure _

theorem saving_restore {saves : List (Path × Bytes)} (board : Board) (path : Path) :
    Saving saves (restore board path : StateM Frail Board) := by
  unfold restore
  refine (Frail.saving_readFile path).bind fun answer => ?_
  cases answer with
  | ok saved => exact (Frail.saving_log _ _ _).bind fun _ => .pure _
  | error e =>
    cases e
    case notFound => exact .pure _
    all_goals exact (Frail.saving_log _ _ _).bind fun _ => .pure _

theorem saving_insert (c : Cartridge) (board : Board) (saveFile : Option Path) :
    Saving c.saved?.toList (c.insert board saveFile : StateM Frail Cartridge) := by
  unfold insert
  refine (saving_unload c).bind fun _ => ?_
  cases saveFile with
  | none =>
    refine (Saving.pure board).bind fun _ => ?_
    exact (Frail.saving_log _ _ _).bind fun _ => .pure _
  | some path =>
    refine (saving_restore board path).bind fun _ => ?_
    exact (Frail.saving_log _ _ _).bind fun _ => .pure _

/-! ## Deeds -/

/-- A cartridge and the computer that it is on. -/
abbrev Desk := Cartridge × Frail

theorem savedBy_settle (c : Cartridge) (saveFile : Option Path) (game : Except LoadFailure Board)
    (s : Frail) :
    SavedBy (if ((c.settle saveFile game : StateM Frail _) s).1.isOk then c.saved?.toList else [])
      s ((c.settle saveFile game : StateM Frail _) s).2 := by
  cases game with
  | ok board => exact saving_insert c board saveFile s
  | error failure => exact .refl s

theorem settle_saveFile {game : Except LoadFailure Board} {s : Frail}
    (h : ((c.settle saveFile game : StateM Frail _) s).1 = .ok c') : c'.saveFile = saveFile := by
  cases game with
  | error failure => cases h
  | ok board =>
    cases h
    cases saveFile <;> rfl

theorem load_settle (c : Cartridge) (path : Path) (s : Frail) :
    (c.load path : StateM Frail _) s =
      (c.settle (some (savePathFor c.saveDir path))
        (gameOf path ((Host.readFile path : StateM Frail _) s).1) : StateM Frail _)
        ((Host.readFile path : StateM Frail _) s).2 := by
  rw [load_eq]
  rfl

theorem unload_saveFile (c : Cartridge) (s : Frail) :
    ((c.unload : StateM Frail _) s).1.saveFile = none := by
  unfold unload
  cases c.slot <;> rfl

theorem saveFile_of_saved? {save : Path × Bytes} (h : save ∈ c.saved?.toList) :
    c.saveFile = some save.1 := by
  obtain ⟨board, -, hsaveFile, -⟩ := saved?_eq_some_iff.mp (Option.mem_toList.mp h)
  exact hsaveFile

namespace Deed

/-- Does a deed, on any computer. -/
def does {μ : Type → Type} [Monad μ] [Host μ] (c : Cartridge) : Deed → μ Cartridge
  | .load path => do return c.loaded (← c.load path)
  | .loadBytes bytes saveFile => do return c.loaded (← c.loadBytes bytes saveFile)
  | .writePrg addr value => return { c with slot := written (c.slot.writePrg addr value) }
  | .writeChr addr value => return { c with slot := written (c.slot.writeChr addr value) }
  | .persist => do
    c.persist
    return c
  | .unload => c.unload
  | .drop saveDir => do
    c.persist
    return { saveDir }

/-- On a shelf, these are the deeds of a shelf. -/
theorem run_eq_does (c : Cartridge) (d : Deed) : d.run c = (d.does c : StateM Shelf _) := by
  cases d <;> rfl

/-- The desk behind a deed. -/
def step (d : Deed) (w : Desk) : Desk := (d.does w.1 : StateM Frail _) w.2

/-- The desk behind deeds, in order. -/
def steps (deeds : List Deed) (w : Desk) : Desk := deeds.foldl (fun w d => d.step w) w

/-- The saves that a deed makes: of the game in the slot, if it is one to be saved, when that is asked
for or when the game leaves. -/
def stored (w : Desk) : Deed → List (Path × Bytes)
  | .load path =>
    if ((w.1.load path : StateM Frail _) w.2).1.isOk then w.1.saved?.toList else []
  | .loadBytes bytes saveFile =>
    if ((w.1.loadBytes bytes saveFile : StateM Frail _) w.2).1.isOk then w.1.saved?.toList else []
  | .writePrg _ _ | .writeChr _ _ => []
  | .persist | .unload | .drop _ => w.1.saved?.toList

/-- The saves that deeds make, in order. -/
def storedAll : List Deed → Desk → List (Path × Bytes)
  | [], _ => []
  | d :: deeds, w => d.stored w ++ storedAll deeds (d.step w)

/-- The save file of the game that a deed loads, the verdict on it, and the computer on which it is
reached. -/
def attempt? (w : Desk) : Deed → Option (Option Path × Except LoadFailure Board × Frail)
  | .load path =>
    some (some (savePathFor w.1.saveDir path),
      gameOf path ((Host.readFile path : StateM Frail _) w.2).1,
      ((Host.readFile path : StateM Frail _) w.2).2)
  | .loadBytes bytes saveFile => some (saveFile, boardOf bytes, w.2)
  | _ => none

variable {d : Deed} {deeds : List Deed} {w : Desk} {game : Except LoadFailure Board} {s : Frail}
  {save : Path × Bytes}

/-- A load comes to what follows from the verdict. -/
theorem step_of_attempt (h : d.attempt? w = some (saveFile, game, s)) :
    d.step w = (w.1.loaded ((w.1.settle saveFile game : StateM Frail _) s).1,
        ((w.1.settle saveFile game : StateM Frail _) s).2) ∧
      d.stored w =
        (if ((w.1.settle saveFile game : StateM Frail _) s).1.isOk then w.1.saved?.toList else []) ∧
      SavedBy [] w.2 s := by
  cases d with
  | load path =>
    cases h
    rw [← load_settle]
    exact ⟨rfl, rfl, Frail.saving_readFile path w.2⟩
  | loadBytes bytes saveFile' =>
    cases h
    rw [← loadBytes_eq]
    exact ⟨rfl, rfl, .refl w.2⟩
  | writePrg | writeChr | persist | unload | drop => cases h

/-- **A deed changes files by its saves alone.** -/
theorem savedBy_step (d : Deed) (w : Desk) : SavedBy (d.stored w) w.2 (d.step w).2 := by
  have hload {v} (h : d.attempt? w = some v) : SavedBy (d.stored w) w.2 (d.step w).2 := by
    obtain ⟨hstep, hstored, hread⟩ := step_of_attempt h
    rw [hstep, hstored]
    exact hread.trans (savedBy_settle w.1 v.1 v.2.1 v.2.2)
  cases d with
  | load | loadBytes => exact hload rfl
  | writePrg | writeChr => exact .refl w.2
  | persist => exact saving_persist w.1 w.2
  | unload => exact saving_unload w.1 w.2
  | drop => exact saving_persist w.1 w.2

/-- **Deeds change files by their saves alone.** -/
theorem savedBy_steps (deeds : List Deed) (w : Desk) :
    SavedBy (storedAll deeds w) w.2 (steps deeds w).2 := by
  induction deeds generalizing w with
  | nil => exact .refl w.2
  | cons d deeds ih => exact (savedBy_step d w).trans (ih (d.step w))

/-! ## Save paths -/

/-- The game in the slot is saved where it was said to be, or at a path that was made from its own. -/
theorem step_saveFile (h : (d.step w).1.saveFile = some p) : w.1.saveFile = some p ∨
    (∃ bytes, d = .loadBytes bytes (some p)) ∨ ∃ dir rom, p = savePathFor dir rom := by
  have hload {saveFile game s} (hattempt : d.attempt? w = some (saveFile, game, s)) :
      w.1.saveFile = some p ∨ saveFile = some p := by
    rw [(step_of_attempt hattempt).1] at h
    cases hresult : ((w.1.settle saveFile game : StateM Frail _) s).1 with
    | error failure =>
      rw [hresult] at h
      exact .inl h
    | ok c' =>
      rw [hresult] at h
      exact .inr ((settle_saveFile hresult).symm.trans h)
  cases d with
  | load path =>
    obtain hold | hnew := hload rfl
    · exact .inl hold
    · exact .inr (.inr ⟨_, path, (Option.some.inj hnew).symm⟩)
  | loadBytes bytes saveFile =>
    obtain hold | rfl := hload rfl
    · exact .inl hold
    · exact .inr (.inl ⟨bytes, rfl⟩)
  | writePrg | writeChr | persist => exact .inl h
  | unload => cases (unload_saveFile w.1 w.2).symm.trans h
  | drop => cases h

theorem stored_subset (d : Deed) (w : Desk) : d.stored w ⊆ w.1.saved?.toList := by
  have hite (ok : Bool) : (if ok then w.1.saved?.toList else []) ⊆ w.1.saved?.toList := by
    cases ok
    · exact List.nil_subset _
    · exact List.Subset.refl _
  cases d with
  | load | loadBytes => exact hite _
  | writePrg | writeChr => exact List.nil_subset _
  | persist | unload | drop => exact List.Subset.refl _

/-- Every save goes to the save file of the first game, to one that was said, or to a path that was
made from that of a game. -/
theorem storedAll_forall {P : Path → Prop} (hderived : ∀ dir rom, P (savePathFor dir rom))
    (hsaid : ∀ bytes path, .loadBytes bytes (some path) ∈ deeds → P path)
    (hfirst : ∀ path, w.1.saveFile = some path → P path) :
    ∀ save ∈ storedAll deeds w, P save.1 := by
  induction deeds generalizing w with
  | nil => nofun
  | cons d deeds ih =>
    intro save hsave
    obtain hsave | hsave := List.mem_append.mp hsave
    · exact hfirst _ (saveFile_of_saved? (stored_subset d w hsave))
    · refine ih (fun bytes path hmem => hsaid bytes path (List.mem_cons_of_mem d hmem))
        (fun path hpath => ?_) save hsave
      obtain hold | ⟨bytes, rfl⟩ | ⟨dir, rom, rfl⟩ := step_saveFile hpath
      · exact hfirst path hold
      · exact hsaid bytes path List.mem_cons_self
      · exact hderived dir rom

end Deed

/-- The path leads to a name that ends in the extension of save files. -/
def NamedAsSave (p : Path) : Prop :=
  ∃ above name, p.place? = some (above ++ [String.ofList (name ++ '.' :: saveExtension.toList)])

/-- **Where a save path leads that was made from that of a game**: to a name with the extension of save
files. -/
theorem namedAsSave_of_savePathFor {saveDir : Option Path} {game : Path}
    (hread : p.place? ≠ none) (h : (savePathFor saveDir game).place? = p.place?) : NamedAsSave p := by
  obtain ⟨key, hkey⟩ := Option.ne_none_iff_exists'.mp hread
  rw [hkey] at h
  suffices hname : ∃ above name,
      key = above ++ [String.ofList (name ++ '.' :: saveExtension.toList)] by
    obtain ⟨above, name, rfl⟩ := hname
    exact ⟨above, name, hkey⟩
  cases saveDir with
  | none => exact Path.place?_withExtension (by decide) h
  | some dir =>
    exact Path.place?_join game.stem ('.' :: saveExtension.toList) (by decide) nofun (by simp) h

/-! ## ROM files -/

theorem read_of_load {s : Frail} (h : ((c.load p : StateM Frail _) s).1 = .ok c') :
    ∃ rom, s.tree.read p = .ok rom := by
  rw [load_settle] at h
  cases hread : ((Host.readFile p : StateM Frail _) s).1 with
  | ok rom => exact ⟨rom, Frail.readFile_ok hread⟩
  | error e =>
    rw [hread] at h
    cases e <;> cases h

namespace Deed

/-- **What becomes of the ROM file of a game that was loaded**, whatever is done after that and however
the files fail:

* it is as it was, or it is what a save left that was made on the way and went to its place: the whole
  save, unless a request broke off;
* it is as it was if it is not named as a save file, unless that place was said to be the save file's;
* no save path that was made from that of a game leads to it, unless it is named as a save file. -/
theorem rom_kept {s : Frail} (h : ((c.load p : StateM Frail _) s).1 = .ok c') :
    ∃ rom, s.tree.read p = .ok rom ∧
      (∀ deeds, (steps (.load p :: deeds) (c, s)).2.tree.read p = .ok rom ∨
        ∃ save ∈ storedAll (.load p :: deeds) (c, s), save.1.place? = p.place? ∧
          ∃ left, Fate.Leaves s.fates save.2 left ∧
            (steps (.load p :: deeds) (c, s)).2.tree.read p = .ok left) ∧
      (∀ deeds, ¬ NamedAsSave p → (∀ path, c.saveFile = some path → path.place? ≠ p.place?) →
        (∀ bytes path, .loadBytes bytes (some path) ∈ deeds → path.place? ≠ p.place?) →
        (steps (.load p :: deeds) (c, s)).2.tree.read p = .ok rom) ∧
      ∀ saveDir game, (savePathFor saveDir game).place? = p.place? → NamedAsSave p := by
  obtain ⟨rom, hrom⟩ := read_of_load h
  obtain ⟨key, hkey, -⟩ := Tree.read_ok hrom
  have hplace : p.place? ≠ none := by
    rw [Tree.place?_of_fileKey hkey]
    nofun
  have hderived (saveDir : Option Path) (game : Path)
      (hsame : (savePathFor saveDir game).place? = p.place?) : NamedAsSave p :=
    namedAsSave_of_savePathFor hplace hsame
  have hsaved (deeds : List Deed) : (steps (.load p :: deeds) (c, s)).2.tree.read p = .ok rom ∨
      ∃ save ∈ storedAll (.load p :: deeds) (c, s), save.1.place? = p.place? ∧
        ∃ left, Fate.Leaves s.fates save.2 left ∧
          (steps (.load p :: deeds) (c, s)).2.tree.read p = .ok left := by
    obtain hkept | ⟨path, left, ⟨bytes, hsave, hleft⟩, hsame, hnow⟩ :=
      (savedBy_steps (.load p :: deeds) (c, s)).files p rom hrom
    · exact .inl hkept
    · exact .inr ⟨(path, bytes), hsave, hsame, left, hleft, hnow⟩
  refine ⟨rom, hrom, hsaved, fun deeds hname hfirst hsaid => ?_, hderived⟩
  obtain hkept | ⟨save, hsave, hsame, -⟩ := hsaved deeds
  · exact hkept
  · refine (storedAll_forall (P := fun path => path.place? ≠ p.place?)
      (fun dir game hgame => hname (hderived dir game hgame)) ?_ hfirst save hsave hsame).elim
    intro bytes path hmem
    exact hsaid bytes path ((List.mem_cons.mp hmem).resolve_left nofun)

/-- A computer with a small game with a battery as a file in its working directory. -/
def holding (name : String) (fates : List Fate) : Frail :=
  { computer := { tree := Tree.put {} (Files.workDir ++ [name]) (batteryGame 1) }, fates }

/-- The two reads of a load are done, and the save behind them breaks off. -/
def brokenSave : List Fate := [.done, .done, .brokenOff 3 (.other "No space left on device")]

theorem holding_loads (name : String) (fates : List Fate)
    (h : ((({} : Cartridge).load ⟨name⟩ : StateM Frail _) (holding name fates)).1.isOk = true) :
    ∃ c, ((({} : Cartridge).load ⟨name⟩ : StateM Frail _) (holding name fates)).1 = .ok c := by
  cases hresult : ((({} : Cartridge).load ⟨name⟩ : StateM Frail _) (holding name fates)).1 with
  | error failure =>
    rw [hresult] at h
    cases h
  | ok c => exact ⟨c, rfl⟩

/-- The game is loaded, played, saved and taken out, and its file is as it was, though the first save
broke off. -/
theorem rom_kept_small :
    (∃ c, ((({} : Cartridge).load ⟨"one.nes"⟩ : StateM Frail _)
      (holding "one.nes" brokenSave)).1 = .ok c) ∧
      (steps [.load ⟨"one.nes"⟩, .writePrg 0x6000 66, .persist, .unload]
        ({}, holding "one.nes" brokenSave)).2.tree.read ⟨"one.nes"⟩ = .ok (batteryGame 1) := by
  have hloads := holding_loads "one.nes" brokenSave (by decide +kernel)
  have hfile : ((holding "one.nes" brokenSave).tree.read ⟨"one.nes"⟩).toOption =
      some (batteryGame 1) := by
    decide +kernel
  have hname : ¬ NamedAsSave ⟨"one.nes"⟩ := by
    rintro ⟨above, name, hplace⟩
    have hleads : Path.place? ⟨"one.nes"⟩ = some (["tmp", "work"] ++ ["one.nes"]) := by
      decide +kernel
    obtain ⟨-, hlast⟩ := List.append_inj' (Option.some.inj (hleads.symm.trans hplace)) rfl
    have hsuffix : '.' :: saveExtension.toList <:+ "one.nes".toList := by
      rw [(List.cons.inj hlast).1, String.toList_ofList]
      exact List.suffix_append _ _
    exact absurd hsuffix (by decide)
  obtain ⟨c, hc⟩ := hloads
  obtain ⟨rom, hrom, -, hkept, -⟩ := rom_kept hc
  rw [hrom] at hfile
  cases hfile
  refine ⟨⟨c, hc⟩, hkept [.writePrg 0x6000 66, .persist, .unload] hname nofun ?_⟩
  intro bytes path hmem
  simp at hmem

/-- A game whose file is named as a save file is overwritten by its own save, with no failure at all. -/
theorem rom_overwritten : ¬ ∀ (c c' : Cartridge) (s : Frail) (p : Path) (rom : Bytes)
    (deeds : List Deed), ((c.load p : StateM Frail _) s).1 = .ok c' → s.tree.read p = .ok rom →
    (steps (.load p :: deeds) (c, s)).2.tree.read p = .ok rom := by
  intro hkept
  obtain ⟨c, hc⟩ := holding_loads "one.prgram" [] (by decide +kernel)
  obtain ⟨rom, hrom⟩ := read_of_load hc
  have hsize : ((holding "one.prgram" []).tree.read ⟨"one.prgram"⟩).toOption.map (·.size) =
      some 18 := by
    decide +kernel
  have hsaved : ((steps [.load ⟨"one.prgram"⟩, .unload]
      ({}, holding "one.prgram" [])).2.tree.read ⟨"one.prgram"⟩).toOption.map (·.size) =
        some 128 := by
    decide +kernel
  rw [hrom] at hsize
  rw [hkept {} c (holding "one.prgram" []) ⟨"one.prgram"⟩ rom [.unload] hc hrom] at hsaved
  cases hsize.symm.trans hsaved

/-- A save that breaks off leaves neither the game nor the whole of the save. -/
example : ((steps [.load ⟨"one.prgram"⟩, .persist]
    ({}, holding "one.prgram" brokenSave)).2.tree.read ⟨"one.prgram"⟩).toOption.map (·.size) =
      some 3 := by
  decide +kernel

end Deed

end Cartridge

end NesMachine
