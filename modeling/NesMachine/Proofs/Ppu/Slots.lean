import NesMachine.Proofs.Ppu.Course
import NesMachine.Proofs.Ppu.Objects

/-!
# The order of the slots

The sprite unit writes only the slots for which it finds a sprite, and relies on a dot much earlier on
the same line to have cleared the rest. Whatever the program does in between, the slots with entries
come first, in the order of object memory.

* `SpriteLine.Ordered`: that order, with `Ordered.lt_iff` and `Ordered.first` as what it says of single
  slots.
* `Slotted.step`, `Slotted.read`, `Slotted.write`: a dot and a register access keep it, together with
  the clear slots that a search for sprites begins with.
* **`slots_exact`**: the slots of every reachable state, and what a search for sprites puts into them.
-/

namespace NesMachine

/-! ## Ordered slots -/

namespace SpriteLine

variable {slots slots' : SpriteLine}

/-- Some entries in strictly increasing order, and empty slots behind them. -/
def Ordered (slots : SpriteLine) : Prop :=
  ∃ entries : List (Fin 64), entries.length ≤ 8 ∧ entries.Pairwise (· < ·) ∧
    slots.toList.map (·.entry) = entries.map some ++ List.replicate (8 - entries.length) none

theorem Ordered.of_entries (h : slots.Ordered)
    (hsame : slots'.toList.map (·.entry) = slots.toList.map (·.entry)) : slots'.Ordered := by
  obtain ⟨entries, hlength, hsorted, hentries⟩ := h
  exact ⟨entries, hlength, hsorted, hsame.trans hentries⟩

theorem cleared_ordered : cleared.Ordered := ⟨[], Nat.zero_le 8, List.Pairwise.nil, rfl⟩

/-- A search that begins with clear slots orders them. -/
theorem evaluate_ordered (oam : ObjectMemory) (scanline : Int) (height : Nat) :
    (cleared.evaluate oam scanline height).1.Ordered := by
  rw [Ordered, evaluate_toList, inRange_eq_map]
  generalize hfound : (List.finRange 64).filter (fun index =>
    ObjectMemory.covers scanline height (oam.read (UInt8.ofNat (4 * index.val)))) = found
  have hsorted : found.Pairwise (· < ·) := by
    rw [← hfound]
    exact (List.pairwise_lt_finRange 64).filter _
  refine ⟨found.take 8, ?_, hsorted.sublist (List.take_sublist 8 found), ?_⟩
  · rw [List.length_take]
    exact Nat.min_le_left ..
  · have hcount : 8 - (found.map oam.entry).length = 8 - (found.take 8).length := by
      rw [List.length_map, List.length_take]
      omega
    rw [hcount, List.map_append, ← List.map_take, List.map_map, List.map_replicate]
    rfl

/-- The entry of a slot, among the entries in order. -/
theorem entry_eq_some {entries : List (Fin 64)}
    (hentries : slots.toList.map (·.entry) =
      entries.map some ++ List.replicate (8 - entries.length) none)
    {k : Nat} (hk : k < 8) {i : Fin 64} (h : slots[k].entry = some i) : entries[k]? = some i := by
  have hslot : (slots.toList.map (·.entry))[k]? = some (some i) := by
    rw [List.getElem?_map, Vector.getElem?_toList, Vector.getElem?_eq_getElem hk, Option.map_some, h]
  rw [hentries] at hslot
  by_cases hlt : k < entries.length
  · rw [List.getElem?_append_left (by rwa [List.length_map]), List.getElem?_map] at hslot
    rw [List.getElem?_eq_getElem hlt] at hslot ⊢
    exact Option.some.inj hslot
  · rw [List.getElem?_append_right (by rw [List.length_map]; omega)] at hslot
    have hnone := List.eq_of_mem_replicate (List.mem_of_getElem? hslot)
    exact absurd hnone (by simp)

/-- **The order of the slots is the order of their entries.** -/
theorem Ordered.lt_iff (h : slots.Ordered) {j k : Nat} (hj : j < 8) (hk : k < 8) {a b : Fin 64}
    (ha : slots[j].entry = some a) (hb : slots[k].entry = some b) : j < k ↔ a < b := by
  obtain ⟨entries, -, hsorted, hentries⟩ := h
  obtain ⟨hjlt, rfl⟩ := List.getElem?_eq_some_iff.mp (entry_eq_some hentries hj ha)
  obtain ⟨hklt, rfl⟩ := List.getElem?_eq_some_iff.mp (entry_eq_some hentries hk hb)
  have hincreasing := List.pairwise_iff_getElem.mp hsorted
  constructor
  · exact hincreasing j k hjlt hklt
  · intro hlt
    by_contra hle
    rcases Nat.lt_or_eq_of_le (Nat.le_of_not_lt hle) with hgt | rfl
    · exact Nat.lt_asymm hlt (hincreasing k j hklt hjlt hgt)
    · exact Nat.lt_irrefl _ hlt

/-- The first entry is in the first slot, or in none. -/
theorem Ordered.first (h : slots.Ordered) {k : Nat} (hk : k < 8) (hentry : slots[k].entry = some 0) :
    k = 0 := by
  obtain ⟨entries, -, hsorted, hentries⟩ := h
  obtain ⟨hlt, hzero⟩ := List.getElem?_eq_some_iff.mp (entry_eq_some hentries hk hentry)
  by_contra hne
  have hless := List.pairwise_iff_getElem.mp hsorted 0 k (by omega) hlt (by omega)
  rw [hzero] at hless
  exact Nat.not_lt_zero _ hless

end SpriteLine

/-- On its line, the beam moves on by one dot. -/
theorem Beam.advance_eq_of_dot {beam : Beam} {rendering : Bool}
    (h : (beam.advance rendering).dot ≠ 0) :
    beam.advance rendering = { beam with dot := beam.dot + 1 } := by
  unfold advance at h ⊢
  split at h
  · exact absurd (by unfold nextLine; split <;> rfl) h
  · rename_i hinner
    rw [if_neg hinner]

namespace Ppu

variable {p q : Ppu} {slot slot' : Slot} {addr : UInt16} {value : UInt8}

/-! ## A search for sprites -/

/-- The entries that cover the line ahead of the beam. -/
def objectsAhead (p : Ppu) : List (Fin 64) :=
  (List.finRange 64).filter fun i =>
    0 ≤ p.beam.scanline - p.objectTop i ∧ p.beam.scanline - p.objectTop i < p.spriteHeight

theorem inRange_ahead (p : Ppu) : SpriteLine.inRange p.oam p.beam.scanline p.spriteHeight =
    p.objectsAhead.map p.oam.entry := by
  rw [SpriteLine.inRange_eq_map]
  congr 1
  refine List.filter_congr fun i _ => Bool.eq_iff_iff.mpr ?_
  rw [decide_eq_true_iff, ObjectMemory.covers, Bool.and_eq_true, decide_eq_true_iff,
    decide_eq_true_iff]
  rfl

/-- **A search that begins with clear slots finds the first eight entries in range**, and overflows
if there are more. -/
theorem evaluateSprites_cleared (h : p.foundSprites = .cleared) :
    p.evaluateSprites.foundSprites.toList =
        (p.objectsAhead.take 8).map p.oam.entry ++
          List.replicate (8 - p.objectsAhead.length) .empty ∧
      p.evaluateSprites.status =
        if 8 < p.objectsAhead.length then p.status ||| spriteOverflow else p.status := by
  have hlength : (SpriteLine.inRange p.oam p.beam.scanline p.spriteHeight).length =
      p.objectsAhead.length := by rw [inRange_ahead, List.length_map]
  constructor
  · show (p.foundSprites.evaluate p.oam p.beam.scanline p.spriteHeight).1.toList = _
    rw [h, SpriteLine.evaluate_toList, hlength, inRange_ahead, List.map_take]
  · show (if (p.foundSprites.evaluate p.oam p.beam.scanline p.spriteHeight).2 then _ else _) = _
    simp only [SpriteLine.evaluate_overflow, hlength]

/-- On the dot of the search the last column is drawn, which has no part in the first object's flag. -/
theorem not_hitsNow_of_search (hdot : p.beam.dot = 257) : ¬ p.hitsNow := by
  rintro ⟨-, hhit⟩
  rw [hdot] at hhit
  simp [hitsFirstObject] at hhit

theorem statusAfterSprites_search (hdot : p.beam.dot = 257) (hrendering : p.rendering = true) :
    p.statusAfterSprites = p.evaluateSprites.status := by
  unfold statusAfterSprites evaluateSprites
  simp [hdot, hrendering]

/-- Fetching patterns keeps the entries. -/
theorem loadSprite_entry {s s' : SpriteSlot} (h : p.loadSprite slot s = .ok s') :
    s'.entry = s.entry := by
  obtain ⟨low, -, h⟩ := bind_ok h
  obtain ⟨high, -, h⟩ := bind_ok h
  cases h
  rfl

/-! ## What always holds of the slots -/

/-- Between the dot on which the slots are cleared and the one on which sprites are looked for. -/
def AwaitsSprites (p : Ppu) : Prop :=
  p.beam.scanline < Beam.postRender ∧ 2 ≤ p.beam.dot ∧ p.beam.dot ≤ 257

structure Slotted (p : Ppu) : Prop where
  found : p.foundSprites.Ordered
  line : p.lineSprites.Ordered
  cleared : p.AwaitsSprites → p.foundSprites = .cleared

namespace Slotted

/-- It depends on the slots and the position only. -/
theorem congr (h : p.Slotted) (hfound : q.foundSprites = p.foundSprites)
    (hline : q.lineSprites = p.lineSprites) (hbeam : q.beam = p.beam) : q.Slotted := by
  obtain ⟨hp, hl, hcleared⟩ := h
  refine ⟨hfound ▸ hp, hline ▸ hl, fun hawaits => ?_⟩
  unfold AwaitsSprites at hawaits
  rw [hbeam] at hawaits
  rw [hfound]
  exact hcleared hawaits

theorem start (hfound : p.foundSprites = .cleared) (hline : p.lineSprites = .cleared) :
    p.Slotted :=
  ⟨hfound ▸ SpriteLine.cleared_ordered, hline ▸ SpriteLine.cleared_ordered, fun _ => hfound⟩

theorem foundAfter_ordered (h : p.Slotted) (hline : p.beam.scanline < Beam.postRender) :
    p.foundAfter.Ordered := by
  unfold foundAfter
  split
  · exact SpriteLine.cleared_ordered
  split
  · rename_i hsearch
    rw [h.cleared ⟨hline, by omega, by omega⟩]
    exact SpriteLine.evaluate_ordered _ _ _
  · exact h.found

/-- A dot of the picture, or of the line before it. -/
theorem picture (h : p.Slotted) (hline : p.beam.scanline < Beam.postRender)
    (hdot : PictureDot slot p q) : q.Slotted := by
  have hbeam : q.beam = p.beam.advance p.rendering := by rw [hdot.rest]
  refine ⟨hdot.found ▸ h.foundAfter_ordered hline, ?_, ?_⟩
  · by_cases hload : p.beam.dot = 321
    · exact h.found.of_entries (mapM_keeps (fun _ _ => loadSprite_entry) (hdot.load hload))
    · exact hdot.line hload ▸ h.line
  · rintro ⟨-, hfirst, hlast⟩
    -- The slots are clear from dot 1 on, and up to dot 257 nothing is put into them.
    have hmoves : (p.beam.advance p.rendering).dot ≠ 0 := by rw [← hbeam]; omega
    rw [hbeam, Beam.advance_eq_of_dot hmoves] at hfirst hlast
    simp only at hfirst hlast
    rw [hdot.found, foundAfter]
    split
    · rfl
    rw [if_neg (by omega)]
    exact h.cleared ⟨hline, by omega, by omega⟩

/-- Behind the picture nothing happens to the slots, and a new line has to begin before they are
cleared. -/
theorem behind (h : p.Slotted) (hline : Beam.postRender ≤ p.beam.scanline)
    (hstep : p.step slot = .ok q) : q.Slotted := by
  have hbeam := (step_clock hstep).beam
  have hidle : q.foundSprites = p.foundSprites ∧ q.lineSprites = p.lineSprites := by
    rw [step_behind hstep hline]
    rcases idleDot_cases p with ⟨-, -, hidle⟩ | ⟨-, -, hidle⟩ | ⟨-, -, hidle⟩
    all_goals
      rw [hidle]
      exact ⟨rfl, rfl⟩
  refine ⟨hidle.1 ▸ h.found, hidle.2 ▸ h.line, ?_⟩
  rintro ⟨hpicture, hfirst, -⟩
  have hmoves : (p.beam.advance p.rendering).dot ≠ 0 := by rw [← hbeam]; omega
  rw [hbeam, Beam.advance_eq_of_dot hmoves] at hpicture
  exact absurd hpicture (Int.not_lt.mpr hline)

/-- **A dot keeps the order of the slots.** -/
theorem step (h : p.Slotted) (hstep : p.step slot = .ok q) : q.Slotted := by
  by_cases hline : p.beam.scanline < Beam.postRender
  · exact h.picture hline (step_picture hstep hline)
  · exact h.behind (Int.not_lt.mp hline) hstep

/-- **A register read does not touch the slots.** -/
theorem read (h : p.Slotted) (hread : p.readRegister slot addr = .ok (value, q)) : q.Slotted := by
  have hframe := (readRegister_frame hread).1
  exact h.congr (by rw [hframe]) (by rw [hframe]) (by rw [hframe])

/-- **A register write does not touch the slots.** -/
theorem write (h : p.Slotted) (hwrite : p.writeRegister slot addr value = .ok (q, slot')) :
    q.Slotted := by
  have hrest := writeRegister_rest hwrite
  exact h.congr (by rw [hrest]) (by rw [hrest]) (by rw [hrest])

end Slotted

theorem Reachable.slotted (h : Reachable p) : p.Slotted := by
  induction h with
  | powerOn tv => exact .start rfl rfl
  | reset p => exact .start rfl rfl
  | step _ hstep ih => exact ih.step hstep
  | read _ hread ih => exact ih.read hread
  | write _ hwrite ih => exact ih.write hwrite
  | takeNmi _ ih => exact ih.congr rfl rfl rfl
  | takeFrameReady _ ih => exact ih.congr rfl rfl rfl

/-- **The slots are an ordered prefix of object memory.** In every reachable state, both for the line
ahead and for the line being drawn, the slots with entries come first, with their entries in strictly
increasing order. A search for sprites on a line of the picture or the line before it begins with clear
slots; from these it comes to the first eight entries in range, in order, and overflows if and only if
there are more. -/
theorem slots_exact (h : Reachable p) :
    (∀ slots ∈ [p.foundSprites, p.lineSprites], slots.Ordered ∧
      (∀ (k : Nat) (hk : k < 8), slots[k].entry = some 0 → k = 0) ∧
      ∀ (j k : Nat) (hj : j < 8) (hk : k < 8) (a b : Fin 64),
        slots[j].entry = some a → slots[k].entry = some b → (j < k ↔ a < b)) ∧
    (∀ slot q, p.step slot = .ok q → p.beam.scanline < Beam.postRender → p.beam.dot = 257 →
      p.rendering = true → p.foundSprites = .cleared ∧
        q.foundSprites = p.evaluateSprites.foundSprites ∧
        q.status = p.evaluateSprites.status) ∧
    ∀ r : Ppu, r.foundSprites = .cleared →
      r.evaluateSprites.foundSprites.toList =
          (r.objectsAhead.take 8).map r.oam.entry ++
            List.replicate (8 - r.objectsAhead.length) .empty ∧
        r.evaluateSprites.status =
          if 8 < r.objectsAhead.length then r.status ||| spriteOverflow else r.status := by
  have hslots := h.slotted
  refine ⟨fun slots hmem => ?_, fun slot q hstep hpicture hdot hrendering => ⟨?_, ?_, ?_⟩,
    fun r => evaluateSprites_cleared⟩
  · have hordered : slots.Ordered := by
      rw [List.mem_cons, List.mem_singleton] at hmem
      rcases hmem with rfl | rfl
      · exact hslots.found
      · exact hslots.line
    exact ⟨hordered, fun k hk => hordered.first hk, fun j k hj hk a b => hordered.lt_iff hj hk⟩
  · exact hslots.cleared ⟨hpicture, by omega, by omega⟩
  · rw [(step_picture hstep hpicture).found, foundAfter, if_neg (by omega),
      if_pos ⟨hdot, hrendering⟩]
    rfl
  · rw [(step_picture hstep hpicture).status, if_neg (not_hitsNow_of_search hdot)]
    exact statusAfterSprites_search hdot hrendering

/-- At power-on all entries are on the first lines. With the background switched on, the first search
finds all of them. -/
theorem slots_exact_crowded : ∃ p q, Reachable p ∧ p.step none = .ok q ∧
    p.beam.scanline < Beam.postRender ∧ p.beam.dot = 257 ∧ p.rendering = true ∧
    p.objectsAhead = List.finRange 64 ∧
    q.foundSprites.toList.map (·.entry) = ([0, 1, 2, 3, 4, 5, 6, 7] : List (Fin 64)).map some ∧
    q.foundSprites.Ordered ∧ q.status &&& spriteOverflow ≠ 0 := by
  have hbright : (({} : Ppu).setTv .ntsc).writeRegister none 0x2001 0x08 =
    .ok ({ ({} : Ppu).setTv .ntsc with openBus := 0x08, mask := 0x08 }, none) := rfl
  have hstart : AtStart { ({} : Ppu).setTv .ntsc with openBus := 0x08, mask := 0x08 } := ⟨rfl, rfl⟩
  obtain ⟨ms, p, hcourse, hindex, hoam, hmask⟩ :=
    exists_course_from hstart (show 257 < 89341 by decide)
  have hp := hcourse.reachable ((Reachable.powerOn .ntsc).write hbright)
  have hplace : p.beam.scanline = 0 ∧ p.beam.dot = 257 := by
    have hin := hcourse.inFrame hstart.inFrame
    have hlines := p.beam.tv.lines_ge
    rw [Beam.index_eq hin] at hindex
    obtain ⟨hfirst, -, hdot⟩ := hin
    unfold Beam.preRender at hindex
    split at hindex <;> omega
  obtain ⟨hline, hdot⟩ := hplace
  obtain ⟨q, hstep⟩ := step_progress readable_none p
  have hpicture : p.beam.scanline < Beam.postRender := by rw [hline]; decide
  have hrendering : p.rendering = true := by
    unfold rendering
    rw [hmask]
    rfl
  have hall : p.objectsAhead = List.finRange 64 := by
    refine List.filter_eq_self.mpr fun i _ => decide_eq_true ?_
    have htop : p.objectTop i = 0 := by
      unfold objectTop objectByte
      rw [hoam]
      exact congrArg UInt8.toNat (Vector.getElem_replicate ..)
    have hheight : 0 < p.spriteHeight := by
      unfold spriteHeight
      split <;> decide
    rw [htop, hline]
    omega
  obtain ⟨-, hsearch, hfound⟩ := slots_exact hp
  obtain ⟨hcleared, hslots, hstatus⟩ := hsearch none q hstep hpicture hdot hrendering
  obtain ⟨hlist, hflag⟩ := hfound p hcleared
  have hordered := ((slots_exact (hp.step hstep)).1 q.foundSprites List.mem_cons_self).1
  refine ⟨p, q, hp, hstep, hpicture, hdot, hrendering, hall, ?_, hordered, ?_⟩
  · rw [hslots, hlist, hall]
    rfl
  · rw [hstatus, hflag, hall, List.length_finRange, if_pos (by decide), or_and_flag]
    simp [show spriteOverflow &&& spriteOverflow = 0x20 from rfl]

end Ppu

end NesMachine
