import Mathlib.Data.List.Nodup
import Mathlib.Data.List.ProdSigma
import NesMachine.Proofs.Ppu.Course

/-!
# The raster

Whatever the program does to the picture unit while a frame is drawn, the frame is drawn whole: every
dot of the picture once, row by row from left to right, and nothing else touches it.

* `Happens.frame`, `Happens.plots`: what a moment draws.
* `Lap.plots_places`: what is drawn behind the start of the picture, as far as the beam has come.
* `frame_complete`: all of it, and what the picture shows when it is announced.
-/

namespace NesMachine

/-- A dot of the picture that is drawn. -/
structure Plot where
  x : Nat
  y : Nat
  colour : Rgba

/-- Where it is drawn: its row, and its column in the row. -/
def Plot.place (plot : Plot) : Nat × Nat := (plot.y, plot.x)

def Frame.plot (frame : Frame) (plot : Plot) : Frame := frame.draw plot.x plot.y plot.colour

/-- The places of the picture, row by row from left to right. -/
def raster : List (Nat × Nat) := List.range frameHeight ×ˢ List.range frameWidth

theorem raster_nodup : raster.Nodup := List.Nodup.product List.nodup_range List.nodup_range

theorem mem_raster {y x : Nat} : (y, x) ∈ raster ↔ y < 240 ∧ x < 256 := by
  unfold raster frameHeight frameWidth
  rw [List.mem_product, List.mem_range, List.mem_range]

/-! ## Colours -/

theorem colourOf_mem (number : UInt8) : colourOf number ∈ masterPalette := by
  have hlt : (number &&& 0x3F).toNat < masterPalette.size := by
    have hle : (number &&& 0x3F).toNat ≤ 0x3F := by
      rw [UInt8.toNat_and]
      exact Nat.and_le_right
    exact Nat.lt_of_le_of_lt hle (by decide)
  unfold colourOf
  rw [Array.getD, dif_pos hlt]
  exact Array.getElem_mem hlt

/-- Every colour is opaque. -/
theorem masterPalette_opaque : ∀ colour ∈ masterPalette, colour.alpha = 0xFF := by decide

/-! ## Plots on a picture -/

section Plots

variable {frame : Frame} {plots : List Plot}

theorem getElem?_plot_of_ne {x y : Nat} (hx : x < 256) (hy : y < 240) {plot : Plot}
    (hplot : plot.place ∈ raster) (hne : plot.place ≠ (y, x)) :
    (frame.plot plot)[y * frameWidth + x]? = frame[y * frameWidth + x]? := by
  have hin : plot.y < 240 ∧ plot.x < 256 := mem_raster.mp hplot
  rw [Frame.plot, Ppu.getElem?_draw _ hx hy, if_neg]
  intro heq
  unfold frameWidth at heq
  exact hne (Prod.ext (show plot.y = y by omega) (show plot.x = x by omega))

theorem getElem?_plots_of_notMem {x y : Nat} (hx : x < 256) (hy : y < 240)
    (hplots : ∀ plot ∈ plots, plot.place ∈ raster) (hnone : (y, x) ∉ plots.map Plot.place) :
    (plots.foldl Frame.plot frame)[y * frameWidth + x]? = frame[y * frameWidth + x]? := by
  induction plots generalizing frame with
  | nil => rfl
  | cons plot rest ih =>
    obtain ⟨hplot, hrest⟩ := List.forall_mem_cons.mp hplots
    rw [List.map_cons, List.mem_cons, not_or] at hnone
    rw [List.foldl_cons, ih hrest hnone.2, getElem?_plot_of_ne hx hy hplot (Ne.symm hnone.1)]

/-- **A place that is drawn once shows what was drawn there.** -/
theorem getElem?_plots (hplots : ∀ plot ∈ plots, plot.place ∈ raster)
    (honce : (plots.map Plot.place).Nodup) {plot : Plot} (h : plot ∈ plots) :
    (plots.foldl Frame.plot frame)[plot.y * frameWidth + plot.x]? = some plot.colour := by
  obtain ⟨hy, hx⟩ := mem_raster.mp (hplots plot h)
  induction plots generalizing frame with
  | nil => exact absurd h List.not_mem_nil
  | cons first rest ih =>
    obtain ⟨hfirst, hrest⟩ := List.forall_mem_cons.mp hplots
    rw [List.map_cons, List.nodup_cons] at honce
    rw [List.foldl_cons]
    rcases List.mem_cons.mp h with rfl | hlater
    · rw [getElem?_plots_of_notMem hx hy hrest honce.1, Frame.plot,
        Ppu.getElem?_draw _ hx hy, if_pos rfl]
    · exact ih hrest honce.2 hlater

end Plots

namespace Ppu

variable {p q r : Ppu} {ms : List Moment}

/-! ## What is drawn -/

/-- What a moment draws. -/
def Moment.plots (m : Moment) : List Plot :=
  if m.what = .dot ∧ m.before.beam.scanline < Beam.postRender ∧ m.before.draws then
    let x := m.before.beam.dot - 2
    [⟨x, m.before.beam.scanline.toNat, m.before.dotColour x⟩]
  else []

/-- What a course draws. -/
def plotsOf (ms : List Moment) : List Plot := ms.flatMap Moment.plots

theorem plots_other {what : Happening} (hwhat : what ≠ .dot) :
    Moment.plots ⟨what, p, q⟩ = [] := if_neg fun h => hwhat h.1

/-- **A moment draws its plots, and nothing else touches the picture.** -/
theorem Happens.frame {what : Happening} (h : Happens p what q) :
    q.frame = (Moment.plots ⟨what, p, q⟩).foldl Frame.plot p.frame := by
  cases h with
  | dot hstep =>
    by_cases hline : p.beam.scanline < Beam.postRender
    · rw [(step_picture hstep hline).frame, frameAfter]
      unfold Moment.plots
      by_cases hdraws : p.draws
      · rw [if_pos hdraws, if_pos ⟨rfl, hline, hdraws⟩]
        rfl
      · rw [if_neg hdraws, if_neg fun h => hdraws h.2.2]
        rfl
    · have hnone : Moment.plots ⟨.dot, p, q⟩ = [] := if_neg fun h => hline h.2.1
      rw [hnone, step_behind hstep (by omega)]
      rcases idleDot_cases p with ⟨-, -, hidle⟩ | ⟨-, -, hidle⟩ | ⟨-, -, hidle⟩ <;> rw [hidle] <;> rfl
  | read hread =>
    rw [plots_other (by intro h; cases h), (readRegister_frame hread).1]
    rfl
  | write hwrite =>
    rw [plots_other (by intro h; cases h), writeRegister_rest hwrite]
    rfl
  | takeNmi => rfl
  | takeFrameReady => rfl

theorem Course.frame (h : Course p ms q) :
    q.frame = (plotsOf ms).foldl Frame.plot p.frame := by
  induction h with
  | nil => rfl
  | @cons p q r what rest hfirst _ ih =>
    rw [ih, hfirst.frame, ← List.foldl_append]
    rfl

/-- **A plot is drawn on its own dot, in a colour.** -/
theorem Moment.plots_dot {m : Moment} {plot : Plot} (h : plot ∈ m.plots) :
    m.what = .dot ∧ m.before.beam.scanline = plot.y ∧ m.before.beam.dot = plot.x + 2 ∧
      plot.colour ∈ masterPalette ∧ plot.colour.alpha = 0xFF := by
  unfold Moment.plots at h
  split at h
  · rename_i hdraws
    obtain ⟨hwhat, -, hline, hdot, -⟩ := hdraws
    rw [List.mem_singleton] at h
    subst h
    have hcolour := colourOf_mem (m.before.readPalette (0x3F00 + (if m.before.rendering then
      compose (m.before.backgroundIndex (m.before.beam.dot - 2))
        (m.before.spriteAt? (m.before.beam.dot - 2)) (m.before.beam.dot - 2) else 0).toUInt16))
    exact ⟨hwhat, by simp only; omega, by simp only; omega, hcolour,
      masterPalette_opaque _ hcolour⟩
  · exact absurd h List.not_mem_nil

/-! ## Where it is drawn -/

/-- The place that is drawn at an index of the frame. -/
def placeAt (index : Nat) : List (Nat × Nat) :=
  if index / 341 < 240 ∧ 2 ≤ index % 341 ∧ index % 341 < 258 then
    [(index / 341, index % 341 - 2)]
  else []

theorem plots_place (hin : p.beam.InFrame) :
    (Moment.plots ⟨.dot, p, q⟩).map Plot.place = placeAt p.beam.index := by
  have hlines := p.beam.tv.lines_ge
  rw [Beam.index_eq hin]
  obtain ⟨hfirst, hlast, hdot⟩ := hin
  unfold Moment.plots placeAt draws frameWidth Beam.postRender Beam.preRender
  by_cases hpre : p.beam.scanline = -1
  · rw [if_pos hpre, if_neg (by simp only; omega), if_neg (by omega)]
    rfl
  · rw [if_neg hpre, show (341 * p.beam.scanline.toNat + p.beam.dot) / 341 = p.beam.scanline.toNat by
      omega, show (341 * p.beam.scanline.toNat + p.beam.dot) % 341 = p.beam.dot by omega]
    by_cases hdraws : p.beam.scanline.toNat < 240 ∧ 2 ≤ p.beam.dot ∧ p.beam.dot < 258
    · rw [if_pos hdraws, if_pos ⟨rfl, by simp only; omega, by simp only; omega⟩]
      rfl
    · rw [if_neg hdraws, if_neg (by simp only; omega)]
      rfl

theorem Course.plots_places (h : Course p ms q) (hin : p.beam.InFrame) :
    (plotsOf ms).map Plot.place = ((dotsOf ms).map (·.beam.index)).flatMap placeAt := by
  induction h using Course.dots_induction with
  | nil => rfl
  | dot hfirst _ ih =>
    rw [plotsOf, List.flatMap_cons, List.map_append, ← plotsOf, ih (hfirst.inFrame hin),
      plots_place hin, dotsOf_dot, List.map_cons, List.flatMap_cons]
  | other hwhat hfirst _ ih =>
    rw [plotsOf, List.flatMap_cons, plots_other hwhat, List.nil_append, ← plotsOf,
      ih (hfirst.inFrame hin), dotsOf_other hwhat]

/-- The dots of a line draw its row. -/
theorem places_line {y : Nat} (hy : y < 240) :
    ((List.range 341).map (341 * y + ·)).flatMap placeAt =
      (List.range frameWidth).map fun x => (y, x) := by
  have hplace (j : Nat) (hj : j < 341) : placeAt (341 * y + j) =
      if 2 ≤ j ∧ j < 258 then [(y, j - 2)] else [] := by
    unfold placeAt
    rw [show (341 * y + j) / 341 = y by omega, show (341 * y + j) % 341 = j by omega]
    simp only [hy, true_and]
  rw [List.flatMap_map, List.flatMap_congr fun j hj => hplace j (List.mem_range.mp hj),
    show (341 : Nat) = 2 + (256 + 83) from rfl, List.range_add, List.range_add, List.map_append,
    List.flatMap_append, List.flatMap_append, List.map_map, List.flatMap_map, List.flatMap_map,
    List.map_eq_flatMap]
  have hleft : (List.range 2).flatMap (fun j => if 2 ≤ j ∧ j < 258 then [(y, j - 2)] else []) =
      [] := rfl
  have hright : (List.range 83).flatMap
      (fun j => if 2 ≤ 2 + (256 + j) ∧ 2 + (256 + j) < 258 then [(y, 2 + (256 + j) - 2)] else []) =
      [] := List.flatMap_eq_nil_iff.mpr fun j _ => if_neg (by omega)
  rw [hleft]
  simp only [Function.comp_apply]
  rw [hright, List.nil_append, List.append_nil]
  refine List.flatMap_congr fun x hx => ?_
  rw [List.mem_range] at hx
  rw [if_pos (by omega), Nat.add_sub_cancel_left]

/-- The lines of the picture draw its rows. -/
theorem places_lines {rows : Nat} (hrows : rows ≤ 240) :
    (List.range (341 * rows)).flatMap placeAt = List.range rows ×ˢ List.range frameWidth := by
  induction rows with
  | zero => rfl
  | succ rows ih =>
    rw [Nat.mul_succ, List.range_add, List.flatMap_append, ih (by omega),
      places_line (by omega), List.range_succ]
    simp only [SProd.sprod, List.product, List.flatMap_append, List.flatMap_singleton]

/-- The lines behind the picture draw nothing. -/
theorem places_raster {length : Nat} (hlength : 81840 ≤ length) :
    (List.range length).flatMap placeAt = raster := by
  obtain ⟨behind, rfl⟩ := Nat.exists_eq_add_of_le hlength
  have hbehind : ((List.range behind).map (81840 + ·)).flatMap placeAt = [] := by
    rw [List.flatMap_map]
    exact List.flatMap_eq_nil_iff.mpr fun j _ => if_neg (by omega)
  have hlines := places_lines (Nat.le_refl 240)
  rw [List.range_add, List.flatMap_append, hbehind, List.append_nil]
  exact hlines

/-- **Behind the picture, a lap has drawn the raster.** -/
theorem Lap.plots_places (h : Lap p ms q) (hlength : 81840 ≤ (dotsOf ms).length) :
    (plotsOf ms).map Plot.place = raster := by
  rw [h.course.plots_places h.start.inFrame, h.indices.1, places_raster hlength]

theorem Lap.getElem?_frame (h : Lap p ms q) (hlength : 81840 ≤ (dotsOf ms).length) :
    ∀ plot ∈ plotsOf ms, q.frame[plot.y * frameWidth + plot.x]? = some plot.colour := by
  have hplaces := h.plots_places hlength
  intro plot hplot
  rw [h.course.frame]
  refine getElem?_plots (fun plot' hplot' => ?_) (by rw [hplaces]; exact raster_nodup) hplot
  rw [← hplaces]
  exact List.mem_map_of_mem hplot'

/-! ## The frame -/

/-- What a moment does to the picture: it draws its plots, each on its own dot and in an opaque colour
of the palette, and announces the picture behind its last line at the earliest. -/
structure Paints (m : Moment) : Prop where
  frame : m.after.frame = m.plots.foldl Frame.plot m.before.frame
  plots : ∀ plot ∈ m.plots, m.what = .dot ∧ m.before.beam.scanline = plot.y ∧
    m.before.beam.dot = plot.x + 2 ∧ plot.colour ∈ masterPalette ∧ plot.colour.alpha = 0xFF
  ready : m.after.frameReady = true →
    m.before.frameReady = true ∨ (m.what = .dot ∧ m.before.BehindPicture)

theorem Happens.paints {what : Happening} (h : Happens p what q) : Paints ⟨what, p, q⟩ := by
  refine ⟨h.frame, fun plot => Moment.plots_dot, fun hready => ?_⟩
  cases h with
  | dot hstep =>
    rw [(step_clock hstep).frameReady, Bool.or_eq_true, decide_eq_true_iff] at hready
    exact hready.imp id fun hbehind => ⟨rfl, hbehind⟩
  | read hread =>
    have hframe := (readRegister_frame hread).1
    rw [hframe] at hready
    exact .inl hready
  | write hwrite => exact .inl ((writeRegister_frame hwrite).1.2.2.2 ▸ hready)
  | takeNmi => exact .inl hready
  | takeFrameReady => exact absurd hready Bool.false_ne_true

theorem Course.paints (h : Course p ms q) : ∀ m ∈ ms, Paints m := by
  induction h with
  | nil => exact fun m hm => absurd hm List.not_mem_nil
  | cons hfirst _ ih => exact List.forall_mem_cons.mpr ⟨hfirst.paints, ih⟩

/-- **Every frame is complete.** On any course from power-on or a reset, a moment draws its plots and
nothing else; behind it, from one start of the picture to the next, the plots are the raster, each place once and
in order; and the picture that is announced shows the plots of its own frame in all of its places. -/
theorem frame_complete (hp : Starts p) (h : Course p ms q) :
    (∀ m ∈ ms, Paints m) ∧
    (∀ lap r, Lap q lap r → r.AtStart → (plotsOf lap).map Plot.place = raster) ∧
    (∀ r, q.BehindPicture → Happens q .dot r → r.frameReady = true ∧
      ∃ earlier s lap, ms = earlier ++ lap ∧ Course p earlier s ∧ Lap s lap q ∧
        (plotsOf lap).map Plot.place = raster ∧
        ∀ plot ∈ plotsOf lap, r.frame[plot.y * frameWidth + plot.x]? = some plot.colour) := by
  refine ⟨h.paints, fun lap r hlap hr => ?_, fun r hbehind hdot => ?_⟩
  · have hdots := q.beam.tv.frameDots_ge
    have hlength := hlap.complete hr
    exact hlap.plots_places (by omega)
  · have hindex := (behindPicture_iff (h.inFrame_of_starts hp)).mp hbehind
    have haway : ¬ q.AtStart := by
      rw [atStart_iff (h.inFrame_of_starts hp), hindex]
      decide
    obtain ⟨earlier, s, lap, hms, hearlier, hlap⟩ := h.last_lap_of_starts hp haway
    have hlength : 81840 ≤ (dotsOf lap).length := by
      rcases hlap.indices.2 with hend | ⟨hat, -⟩
      · omega
      · exact absurd hat haway
    have hnone : Moment.plots ⟨.dot, q, r⟩ = [] :=
      if_neg fun h => Int.ne_of_lt h.2.1 hbehind.1
    have hsame : r.frame = q.frame := by rw [hdot.frame, hnone]; rfl
    refine ⟨?_, earlier, s, lap, hms, hearlier, hlap, hlap.plots_places hlength, ?_⟩
    · rw [hdot.clock.frameReady, decide_eq_true hbehind, Bool.or_true]
    · rw [hsame]
      exact hlap.getElem?_frame hlength

/-- The first frame of a machine with no game in it, announced with every dot drawn. -/
theorem frame_complete_first : ∃ ms q r lap, Starts (({} : Ppu).setTv .ntsc) ∧
    Course (({} : Ppu).setTv .ntsc) ms q ∧ q.BehindPicture ∧ Happens q .dot r ∧
    r.frameReady = true ∧ (plotsOf lap).map Plot.place = raster ∧
    ∀ plot ∈ plotsOf lap, r.frame[plot.y * frameWidth + plot.x]? = some plot.colour := by
  obtain ⟨ms, q, hcourse, hindex⟩ := exists_course (show 81840 < 89341 by decide)
  have hstart : Starts (({} : Ppu).setTv .ntsc) := .inl ⟨.ntsc, rfl⟩
  have hbehind := (behindPicture_iff (hcourse.inFrame_of_starts hstart)).mpr hindex
  obtain ⟨r, hstep⟩ := step_progress readable_none q
  obtain ⟨hready, earlier, s, lap, -, -, -, hplaces, hframe⟩ :=
    (frame_complete hstart hcourse).2.2 r hbehind (.dot hstep)
  exact ⟨ms, q, r, lap, hstart, hcourse, hbehind, .dot hstep, hready, hplaces, hframe⟩

end Ppu

end NesMachine
