import NesMachine.Proofs.Ppu.Dot
import NesMachine.Proofs.Ppu.Pipeline
import NesMachine.Proofs.Ppu.Scroll

/-!
# The background of a line

The background unit works two tiles ahead of the picture: the first two tiles of a line are fetched
at the end of the line before it, and from then on a tile in every eight dots. `stream` is the row of
columns that is to be drawn, and `Background.Ready` says that a line may begin.

* `Ready.drawn`: while a ready line is drawn, the fine scroll taps the stream at the column drawn.
* `Ready.next_line`: at the end of a line the unit is ready for the next row.
* `ready_preRender`: the line before the picture makes it ready, whatever it held.
-/

namespace NesMachine

/-- Where the low plane of the tile row under a scroll counter is stored. -/
def Scenery.rowAddress (e : Scenery) (v : UInt16) : UInt16 :=
  (if e.highTable then 0x1000 else 0) + (e.byte (Scroll.tileAddress v)).toUInt16 * 16 +
    Scroll.fineRow v

/-- The row of a tile under a scroll counter. -/
def Scenery.tileRow (e : Scenery) (v : UInt16) : TileRow :=
  { low := e.byte (e.rowAddress v)
    high := e.byte (e.rowAddress v + 8)
    attr := Scroll.attributeQuadrant v (e.byte (Scroll.attributeAddress v)) }

/-- The columns of a row of tiles, from the tile under a scroll counter on. -/
def Scenery.stream (e : Scenery) (w : UInt16) (n : Nat) : Column :=
  (e.tileRow (Scroll.nextColumn^[n / 8] w)).column (n % 8)

namespace Background

open TilePipeline (Shows)

variable {e : Scenery} {line : Int} {dot : Nat} {b : Background} {columns : Nat → Column}
  {count : Nat}

/-- Some dots of a line, from `dot` on. -/
def run (e : Scenery) (line : Int) (dot : Nat) : Nat → Background → Background
  | 0, b => b
  | n + 1, b => (run e line dot n b).next e line (dot + n)

theorem run_zero : run e line dot 0 b = b := rfl

theorem run_succ (n : Nat) :
    run e line dot (n + 1) b = (run e line dot n b).next e line (dot + n) := rfl

-- Numbers of dots are numerals here, which unification would count down.
attribute [irreducible] run

theorem run_add (m n : Nat) :
    run e line dot (m + n) b = run e line (dot + m) n (run e line dot m b) := by
  induction n with
  | zero => rw [Nat.add_zero, run_zero]
  | succ n ih => rw [← Nat.add_assoc, run_succ, run_succ, ih, Nat.add_assoc]

/-! ## A tile -/

/-- The six dots that fetch a tile up to its high plane. -/
theorem run_six (e : Scenery) (line : Int) (b : Background) (hd : dot % 8 = 2) (h5 : Fetches (dot + 5)) :
    run e line dot 6 b = ((((((b.shift.fetch e 2).shift.fetch e 3).shift.fetch e 4).shift.fetch
      e 5).shift.fetch e 6).shift.fetch e 7) := by
  unfold Fetches at h5
  have h (k : Nat) (hk : k < 6) (c : Background) :
      c.next e line (dot + k) = c.shift.fetch e (2 + k) := by
    rw [next_fetch (by unfold Fetches; omega), show (dot + k) % 8 = 2 + k by omega]
  simp only [run_succ, run_zero]
  rw [h 5 (by omega), h 4 (by omega), h 3 (by omega), h 2 (by omega), h 1 (by omega),
    h 0 (by omega)]

theorem run_six_scroll (e : Scenery) (line : Int) (b : Background) (dot : Nat)
    (hd : dot % 8 = 2) (h5 : Fetches (dot + 5)) : (run e line dot 6 b).scroll = b.scroll := by
  rw [run_six e line b hd h5]
  rfl

/-- Dots on which the shift registers only shift. -/
theorem shows_next (e : Scenery) (line : Int) (h : Shows columns (count + 1) b.pipeline)
    (hc : count < 16) (hd : Fetches dot ∨ dot = 256) (h1 : dot % 8 ≠ 1) :
    Shows (fun n => columns (n + 1)) count (b.next e line dot).pipeline := by
  have hs : Shows (fun n => columns (n + 1)) count b.shift.pipeline := h.shift hc
  by_cases hf : Fetches dot
  · rw [next_fetch hf]
    generalize dot % 8 = phase at h1
    unfold fetch
    split <;> first | contradiction | exact ⟨hs.1, hs.2, hs.3, hs.4, hs.5, hs.6⟩
  · obtain rfl := hd.resolve_left hf
    rw [next_256]
    exact ⟨hs.1, hs.2, hs.3, hs.4, hs.5, hs.6⟩

theorem shows_run (e : Scenery) (line : Int) (h : Shows columns 16 b.pipeline)
    (hd : dot % 8 = 2) {i : Nat} (hi : i ≤ 7)
    (hf : ∀ j < i, Fetches (dot + j) ∨ dot + j = 256) :
    Shows (fun n => columns (n + i)) (16 - i) (run e line dot i b).pipeline := by
  induction i with
  | zero => rw [run_zero]; exact h
  | succ i ih =>
    have hs := ih (by omega) fun j hj => hf j (by omega)
    rw [show 16 - i = 16 - (i + 1) + 1 by omega] at hs
    have hnext := shows_next e line hs (by omega) (hf i (by omega)) (by omega)
    rw [run_succ]
    exact hnext.congr fun n _ => by rw [Nat.add_assoc, Nat.add_comm 1 i]

/-- A tile is being fetched at `w`, with some columns in front. -/
structure Fetching (s : Scroll) (w : UInt16) (columns : Nat → Column) (b : Background) : Prop where
  scroll : b.scroll = { s with v := w }
  address : b.pipeline.address = Scroll.tileAddress w
  shows : Shows columns 16 b.pipeline

variable {s : Scroll} {w : UInt16}

/-- **A tile's dots append its row to the columns and move on to the next tile.** -/
theorem Fetching.tile (h : Fetching s w columns b) (hr : e.rendering) (line : Int) (dot : Nat)
    (hd : dot % 8 = 2) (h7 : Fetches (dot + 7)) :
    Fetching s (Scroll.nextColumn w)
      (fun n => if n < 8 then columns (n + 8) else (e.tileRow w).column (n - 8))
      (run e line dot 8 b) := by
  obtain ⟨hscroll, haddr, hshows⟩ := h
  unfold Fetches at h7
  have hrun7 : run e line dot 7 b = (run e line dot 6 b).shift.fetch e 0 := by
    rw [run_succ, next_fetch (by unfold Fetches; omega), show (dot + 6) % 8 = 0 by omega]
  have hrun8 : run e line dot 8 b = (run e line dot 7 b).shift.fetch e 1 := by
    rw [run_succ, next_fetch (by unfold Fetches; omega), show (dot + 7) % 8 = 1 by omega]
  have hrun6 := run_six e line b hd (by unfold Fetches; omega)
  have hv : (run e line dot 7 b).scroll = { s with v := Scroll.nextColumn w } := by
    rw [hrun7, hrun6]
    show { b.scroll with v := if e.rendering then Scroll.nextColumn b.scroll.v else b.scroll.v } = _
    rw [if_pos hr, hscroll]
  have hrow : (run e line dot 7 b).pipeline.fetched = e.tileRow w := by
    rw [hrun7, hrun6]
    unfold Scenery.tileRow Scenery.rowAddress
    rw [← haddr, show w = b.scroll.v by rw [hscroll]]
    rfl
  have hs7 := shows_run e line hshows hd (show 7 ≤ 7 from le_rfl)
    fun j hj => .inl (by unfold Fetches; omega)
  have hs8 := (hs7.shift (by omega)).reload
  have hfetched : (run e line dot 7 b).pipeline.shift.fetched = e.tileRow w := hrow
  rw [hfetched] at hs8
  rw [hrun8]
  refine ⟨hv, ?_, hs8.1, hs8.2, hs8.3, hs8.4, hs8.5, hs8.6⟩
  show Scroll.tileAddress (run e line dot 7 b).scroll.v = _
  rw [hv]

/-- The stream is fetched tile by tile. -/
theorem Fetching.tiles (h : Fetching s (Scroll.nextColumn^[2] w) (e.stream w) b) (hr : e.rendering)
    (line : Int) {k : Nat} (hk : k ≤ 31) :
    Fetching s (Scroll.nextColumn^[k + 2] w) (fun n => e.stream w (8 * k + n))
      (run e line 2 (8 * k) b) := by
  induction k with
  | zero =>
    rw [Nat.mul_zero, run_zero]
    exact ⟨h.scroll, h.address, h.shows.congr fun n _ => by rw [Nat.zero_add]⟩
  | succ k ih =>
    obtain ⟨hscroll, haddr, hshows⟩ := (ih (by omega)).tile hr line (2 + 8 * k)
      (by omega) (by unfold Fetches; omega)
    rw [← Function.iterate_succ_apply' Scroll.nextColumn] at hscroll haddr
    rw [Nat.mul_succ, run_add]
    refine ⟨hscroll, haddr, hshows.congr fun n hn => ?_⟩
    split
    · congr 1; omega
    · unfold Scenery.stream
      rw [show (8 * k + 8 + n) / 8 = k + 2 by omega, show (8 * k + 8 + n) % 8 = n - 8 by omega]

/-! ## A line -/

theorem next_scroll (b : Background) : (b.next e line dot).scroll =
    { b.scroll with v := (b.next e line dot).scroll.v } := by
  unfold next
  repeat' split
  · unfold fetch
    split <;> rfl
  all_goals rfl

theorem run_scroll (e : Scenery) (line : Int) (dot : Nat) (b : Background) (n : Nat) :
    (run e line dot n b).scroll = { b.scroll with v := (run e line dot n b).scroll.v } := by
  induction n with
  | zero => rw [run_zero]
  | succ n ih => rw [run_succ, next_scroll, ih]

theorem next_lt (hv : b.scroll.v < 0x8000) : (b.next e line dot).scroll.v < 0x8000 := by
  unfold next
  split
  · unfold fetch
    split <;> first | exact hv | skip
    show (if e.rendering then Scroll.nextColumn b.scroll.v else b.scroll.v) < 0x8000
    split
    · exact Scroll.nextColumn_lt hv
    · exact hv
  split
  · show (if e.rendering then Scroll.nextRow b.scroll.v else b.scroll.v) < 0x8000
    split
    · exact Scroll.nextRow_lt hv
    · exact hv
  split
  · show (if e.rendering then b.scroll.copyHorizontal.v else b.scroll.v) < 0x8000
    split
    · exact Scroll.copyHorizontal_lt hv
    · exact hv
  split
  · show (if e.rendering then b.scroll.copyVertical.v else b.scroll.v) < 0x8000
    split
    · exact Scroll.copyVertical_lt hv
    · exact hv
  split
  · exact hv
  split <;> exact hv

theorem run_lt (hv : b.scroll.v < 0x8000) (n : Nat) : (run e line dot n b).scroll.v < 0x8000 := by
  induction n with
  | zero => rw [run_zero]; exact hv
  | succ n ih => rw [run_succ]; exact next_lt ih

/-- Dots on which nothing happens. -/
theorem run_rest (n : Nat)
    (hrest : ∀ j < n, (dot + j = 0 ∨ (258 ≤ dot + j ∧ dot + j ≤ 320)) ∧
      (line = Beam.preRender → dot + j < 280 ∨ 304 < dot + j)) : run e line dot n b = b := by
  induction n with
  | zero => exact run_zero
  | succ n ih =>
    obtain ⟨hd, hp⟩ := hrest n (by omega)
    rw [run_succ, ih fun j hj => hrest j (by omega), next_rest hd hp]

/-- The unit is two tiles ahead in the row of `w`. -/
structure Ready (e : Scenery) (s : Scroll) (w : UInt16) (b : Background) : Prop where
  scroll : b.scroll = { s with v := Scroll.nextColumn^[2] w }
  shows : Shows (e.stream w) 16 b.pipeline

theorem Ready.fetching (h : Ready e s w b) (line : Int) :
    Fetching s (Scroll.nextColumn^[2] w) (e.stream w) (run e line 0 2 b) := by
  obtain ⟨hscroll, hshows⟩ := h
  have haim : run e line 0 2 b = b.aim (Scroll.tileAddress b.scroll.v) := by
    rw [run_succ, run_succ, run_zero, next_aim (.inl rfl),
      next_rest (.inl rfl) fun _ => .inl (by omega)]
  rw [haim, hscroll]
  exact ⟨hscroll, rfl, hshows.1, hshows.2, hshows.3, hshows.4, hshows.5, hshows.6⟩

/-- **The columns in front while a ready line is drawn.** -/
theorem Ready.drawn (h : Ready e s w b) (hr : e.rendering) (line : Int) {x : Nat} (hx : x < 256) :
    Shows (fun n => e.stream w (x + n)) 9 (run e line 0 (x + 2) b).pipeline := by
  have htiles := (h.fetching line).tiles hr line (show x / 8 ≤ 31 by omega)
  have hrun := shows_run e line htiles.shows (show (2 + 8 * (x / 8)) % 8 = 2 by omega)
    (show x % 8 ≤ 7 by omega) fun j hj => by unfold Fetches; omega
  rw [show x + 2 = 2 + (8 * (x / 8) + x % 8) by omega, run_add, run_add, Nat.zero_add]
  have hsub : ∀ n < 9, e.stream w (8 * (x / 8) + (n + x % 8)) = e.stream w (x + n) := fun n _ => by
    congr 1; omega
  have hcount : 9 ≤ 16 - x % 8 := by omega
  exact (hrun.take hcount).congr hsub

/-- The turn at the end of a line, however far the line was walked. -/
theorem turn_scroll {n : Nat} (hb : b.scroll = { s with v := Scroll.nextColumn^[n] w })
    (hr : e.rendering) (hw : w < 0x8000) (hcol : Scroll.InColumn s.t w) :
    (run e line 256 2 b).scroll = { s with v := Scroll.nextRow w } := by
  obtain ⟨_, pipeline⟩ := b
  cases hb
  rw [run_succ, run_succ, run_zero, next_257, Nat.add_zero, next_256]
  simp only [hr, if_true]
  have hv := Scroll.copyHorizontal_nextRow
    (s := { s with v := Scroll.nextRow (Scroll.nextColumn^[n] w) }) hw hcol n rfl
  exact congrArg (fun v => { s with v }) hv

theorem Ready.turn (h : Ready e s w b) (hr : e.rendering) (line : Int) (hw : w < 0x8000)
    (hcol : Scroll.InColumn s.t w) :
    (run e line 0 258 b).scroll = { s with v := Scroll.nextRow w } := by
  have htiles := ((h.fetching line).tiles hr line (show 31 ≤ 31 from le_rfl)).scroll
  have hsix := run_six_scroll e line (run e line 2 (8 * 31) (run e line 0 2 b)) 250
    rfl (by unfold Fetches; omega)
  have hrun : run e line 0 258 b =
      run e line 256 2 (run e line 250 6 (run e line 2 (8 * 31) (run e line 0 2 b))) := by
    rw [← run_add 6 2, ← run_add (8 * 31) (6 + 2), ← run_add 2 (8 * 31 + (6 + 2))]
  rw [hrun]
  exact turn_scroll (hsix.trans htiles) hr hw hcol

/-- The first two tiles of a row, fetched at the end of the line before it. -/
theorem ready_prefetch (hb : b.scroll = { s with v := w }) (hr : e.rendering) :
    Ready e s w (run e line 321 17 b) := by
  obtain ⟨columns, hcolumns⟩ := TilePipeline.exists_shows b.pipeline
  have haim : Fetching s w columns (run e line 321 1 b) := by
    rw [run_succ, run_zero, next_aim (.inr rfl), show b.scroll.v = w by rw [hb]]
    exact ⟨hb, rfl, hcolumns.1, hcolumns.2, hcolumns.3, hcolumns.4, hcolumns.5, hcolumns.6⟩
  have hfirst := haim.tile hr line 322 rfl (by unfold Fetches; omega)
  obtain ⟨hscroll, -, hshows⟩ :=
    hfirst.tile hr line 330 rfl (by unfold Fetches; omega)
  rw [show 17 = 1 + (8 + 8) from rfl, run_add, run_add]
  refine ⟨hscroll, hshows.congr fun n hn => ?_⟩
  unfold Scenery.stream
  split
  · rw [if_neg (by omega), show n / 8 = 0 by omega, show n % 8 = n + 8 - 8 by omega]
    rfl
  · rw [show n / 8 = 1 by omega, show n % 8 = n - 8 by omega]
    rfl

theorem Ready.spare (h : Ready e s w b) {n : Nat} (hn : n ≤ 3) :
    Ready e s w (run e line 338 n b) := by
  induction n with
  | zero => rw [run_zero]; exact h
  | succ n ih =>
    obtain ⟨hscroll, hs⟩ := ih (by omega)
    rw [run_succ, next_spare (by omega)]
    exact ⟨hscroll, hs.1, hs.2, hs.3, hs.4, hs.5, hs.6⟩

/-- **From line to line.** -/
theorem Ready.next_line (h : Ready e s w b) (hr : e.rendering) (hw : w < 0x8000)
    (hcol : Scroll.InColumn s.t w) (hline : line ≠ Beam.preRender) :
    Ready e s (Scroll.nextRow w) (run e line 0 341 b) := by
  have hturn := h.turn hr line hw hcol
  rw [show 341 = 258 + (63 + (17 + 3)) from rfl, run_add, run_add, run_add]
  rw [run_rest 63 fun j hj => ⟨.inr (by omega), fun hp => absurd hp hline⟩]
  exact (ready_prefetch hturn hr).spare le_rfl

/-- The copies of the line before the picture bring the counter to `t`. -/
theorem copies_scroll (hr : e.rendering) (hv : b.scroll.v < 0x8000) (ht : b.scroll.t < 0x8000)
    (hcol : Scroll.InColumn b.scroll.t b.scroll.v) {n : Nat} (hn : n + 1 ≤ 25) :
    (run e Beam.preRender 280 (n + 1) b).scroll = { b.scroll with v := b.scroll.t } := by
  have hcopy (k : Nat) (hk : k < 25) (c : Background) (hv : c.scroll.v < 0x8000)
      (ht : c.scroll.t < 0x8000) (hcol : Scroll.InColumn c.scroll.t c.scroll.v) :
      (c.next e Beam.preRender (280 + k)).scroll = { c.scroll with v := c.scroll.t } := by
    rw [next_copy (by omega) rfl, if_pos hr, Scroll.copyVertical_eq hv ht hcol]
    rfl
  induction n with
  | zero =>
    rw [run_succ, run_zero]
    exact hcopy 0 (by omega) b hv ht hcol
  | succ n ih =>
    have hs := ih (by omega)
    rw [run_succ, hcopy (n + 1) (by omega) _ (by rw [hs]; exact ht) (by rw [hs]; exact ht)
      (by rw [hs]; rfl), hs]

/-- **The line before the picture.** -/
theorem ready_preRender (hr : e.rendering) (hv : b.scroll.v < 0x8000) (ht : b.scroll.t < 0x8000)
    {n : Nat} (hn : n ≤ 3) :
    Ready e b.scroll b.scroll.t (run e Beam.preRender 0 (338 + n) b) := by
  rw [show 338 + n = 257 + (1 + (22 + (25 + (16 + (17 + n))))) by omega, run_add, run_add, run_add,
    run_add, run_add, run_add]
  have hs := run_scroll e Beam.preRender 0 b 257
  have hlt : (run e Beam.preRender 0 257 b).scroll.v < 0x8000 := run_lt hv 257
  generalize run e Beam.preRender 0 257 b = c at hs hlt ⊢
  have hturn : (run e Beam.preRender (0 + 257) 1 c).scroll =
      { b.scroll with v := c.scroll.copyHorizontal.v } := by
    rw [run_succ, run_zero, next_257]
    show { c.scroll with v := if e.rendering then c.scroll.copyHorizontal.v else c.scroll.v } = _
    rw [if_pos hr, hs]
  rw [run_rest 22 fun j hj => ⟨.inr (by omega), fun _ => .inl (by omega)⟩]
  generalize run e Beam.preRender (0 + 257) 1 c = d at hturn ⊢
  have hcopies : (run e Beam.preRender 280 25 d).scroll = { b.scroll with v := b.scroll.t } := by
    have ht' : c.scroll.t = b.scroll.t := by rw [hs]
    have hcol := Scroll.inColumn_copyHorizontal c.scroll
    rw [ht'] at hcol
    rw [copies_scroll hr (by rw [hturn]; exact Scroll.copyHorizontal_lt hlt)
      (by rw [hturn]; exact ht) (by rw [hturn]; exact hcol) (show 24 + 1 ≤ 25 from le_rfl), hturn]
  rw [run_rest 16 fun j hj => ⟨.inr (by omega), fun _ =>
    .inr (by omega)⟩]
  exact (ready_prefetch hcopies hr).spare hn

end Background

end NesMachine
