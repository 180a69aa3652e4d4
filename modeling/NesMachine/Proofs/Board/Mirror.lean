import NesMachine.Proofs.Board.Banks
import NesMachine.Proofs.Cartridge.WorkMemory

/-!
# The window of the work memory

The work memory of a game shows in the 8 KB from `$6000`, and shows again and again where it is shorter.
What is read there is what was last written to the same cell of it. The boards without bank registers
repeat it no more often than every 2 KB, so that a memory of less leaves gaps, and an access to a gap is a
fault.

* `Holds`: a board whose work memory holds what was written to it.
* `Holds.serve_gap`, `Holds.serve_cell`: what one request does.
* `window_exact`: what any requests to the window do, on the board of any game.
-/

namespace NesMachine.Board

open Digest (Bytes)

/-! ## Requests -/

/-- What the processor asks of a board. -/
inductive Request where
  | read (addr : UInt16)
  | write (addr : UInt16) (value : UInt8)

/-- The address that a request is for. -/
def Request.addr : Request → UInt16
  | read addr => addr
  | write addr _ => addr

/-- Whether an address lies in the window of the work memory. -/
def InWindow (addr : UInt16) : Prop := 0x6000 ≤ addr.toNat ∧ addr.toNat < 0x8000
  deriving Decidable

/-- Serves a request: the board behind it. -/
def serve (b : Board) : Request → Except Fault Board
  | .read addr => (b.readPrg addr).map fun _ => b
  | .write addr value => (b.writePrg addr value).mapError Prod.fst

theorem serve_read (b : Board) (addr : UInt16) :
    b.serve (.read addr) = (b.readPrg addr).map fun _ => b := rfl

theorem serve_write (b : Board) (addr : UInt16) (value : UInt8) :
    b.serve (.write addr value) = (b.writePrg addr value).mapError Prod.fst := rfl

/-- Serves any number of requests. -/
def serveAll (b : Board) (requests : List Request) : Except Fault Board :=
  requests.foldlM serve b

/-! ## Cells -/

/-- How often `size` bytes of work memory show again in the window. -/
def repeatLength (kind : Kind) (size : Nat) : Nat :=
  match kind with
  | .mmc1 => 0x2000
  | .nrom => if size = 0x1000 ∨ 0x2000 < size then 0x1000 else 0x800
  | .cnrom | .uxrom | .axrom => 0x800

/-- The cell of the work memory that shows at an address of the window. -/
def cell (kind : Kind) (size : Nat) (addr : UInt16) : Nat :=
  (addr.toNat - 0x6000) % repeatLength kind size

/-- An address of the window that shows no cell of a work memory, although there is one: the memory is
too short for the 2 KB after which it shows again. -/
def Gap (kind : Kind) (size : Nat) (addr : UInt16) : Prop :=
  kind ≠ .mmc1 ∧ size ≠ 0 ∧ size ≤ (addr.toNat - 0x6000) % 0x800

/-- The fault of an access to a gap. -/
def gapFault (kind : Kind) (size : Nat) (addr : UInt16) : Fault :=
  ⟨kind, .prgRam, (addr.toNat - 0x6000) % 0x800, size⟩

/-- What the cells of a work memory hold behind a request. -/
def Request.store (kind : Kind) (size : Nat) (r : Request) (cells : Nat → UInt8) : Nat → UInt8 :=
  match r with
  | read _ => cells
  | write addr value => Function.update cells (cell kind size addr) value

variable {kind : Kind} {size : Nat} {cells : Nat → UInt8} {b : Board} {addr : UInt16}

theorem Request.store_write (addr : UInt16) (value : UInt8) (cells : Nat → UInt8) :
    (write addr value).store kind size cells = Function.update cells (cell kind size addr) value := rfl

/-- A board with `size` bytes of work memory in its window, and what they hold. -/
structure Holds (kind : Kind) (size : Nat) (cells : Nat → UInt8) (b : Board) : Prop where
  windowed : kind ∈ [Kind.nrom, .mmc1, .cnrom]
  room : kind = .mmc1 → 0x2000 ≤ size
  board : b.kind = kind
  length : b.image.prgRam.size = size
  contents : ∀ k < size, b.image.prgRam[k]? = some (cells k)

theorem gap_iff (hwindowed : kind ∈ [Kind.nrom, .mmc1, .cnrom]) (hroom : kind = .mmc1 → 0x2000 ≤ size) :
    Gap kind size addr ↔ size ≠ 0 ∧ size ≤ cell kind size addr := by
  unfold Gap cell repeatLength
  simp only [List.mem_cons, List.not_mem_nil, or_false] at hwindowed
  obtain rfl | rfl | rfl := hwindowed
  · simp only [ne_eq, reduceCtorEq, not_false_eq_true, true_and]
    split_ifs <;> omega
  · have hlt := Nat.mod_lt (addr.toNat - 0x6000) (show 0x2000 > 0 by decide)
    have hroom := hroom rfl
    simp only [ne_eq, not_true_eq_false, false_and, false_iff]
    omega
  · simp

/-- A gap is behind the end of the memory in its first 2 KB. -/
theorem Gap.cell_eq (h : Gap kind size addr) : cell kind size addr = (addr.toNat - 0x6000) % 0x800 := by
  obtain ⟨hkind, -, hsize⟩ := h
  have hlt := Nat.mod_lt (addr.toNat - 0x6000) (show 0x800 > 0 by decide)
  unfold cell repeatLength
  cases kind with
  | mmc1 => exact absurd rfl hkind
  | nrom => rw [if_neg (by omega)]
  | cnrom | uxrom | axrom => rfl

/-- Only a memory of less than 2 KB leaves gaps. -/
theorem not_gap (h : kind = .mmc1 ∨ size = 0 ∨ 0x800 ≤ size) : ¬ Gap kind size addr := by
  rintro ⟨hkind, hsize, hle⟩
  have hlt := Nat.mod_lt (addr.toNat - 0x6000) (show 0x800 > 0 by decide)
  obtain h | h | h := h
  · exact hkind h
  · exact hsize h
  · omega

namespace Holds

theorem prgRamOffset_eq (h : Holds kind size cells b) : b.prgRamOffset addr = cell kind size addr := by
  have hkind := h.board
  have hwindowed := h.windowed
  unfold Board.kind at hkind
  unfold prgRamOffset prgRamPeriod cell repeatLength
  rw [h.length]
  cases hlatch : b.latch <;> rw [hlatch] at hkind <;> subst hkind
  case nrom => rfl
  case mmc1 => rfl
  case cnrom => rfl
  all_goals simp [Latch.kind] at hwindowed

theorem hasPrgRam_iff (h : Holds kind size cells b) : b.hasPrgRam = true ↔ size ≠ 0 := by
  have hkind := h.board
  have hwindowed := h.windowed
  have hempty : b.image.prgRam = #[] ↔ size = 0 := by rw [← Array.size_eq_zero_iff, h.length]
  unfold Board.kind at hkind
  unfold hasPrgRam
  cases hlatch : b.latch <;> rw [hlatch] at hkind <;> subst hkind
  case nrom => simp [hempty]
  case mmc1 =>
    have hroom := h.room rfl
    simp only [true_iff]
    omega
  case cnrom => simp [hempty]
  all_goals simp [Latch.kind] at hwindowed

/-- An access to the window, by what becomes of it. -/
theorem shows_iff (h : Holds kind size cells b) (hin : InWindow addr) :
    ((inPrgRam addr && b.hasPrgRam) = true ↔ size ≠ 0) ∧ ¬ 0x8000 ≤ addr := by
  refine ⟨?_, mt register_iff.mp (Nat.not_le.mpr hin.2)⟩
  rw [Bool.and_eq_true, inPrgRam_iff, h.hasPrgRam_iff]
  exact and_iff_right hin

/-- A cell is there up to the size of the memory. -/
theorem fetch_eq (h : Holds kind size cells b) (k : Nat) :
    fetch b.kind .prgRam b.image.prgRam k =
      if k < size then .ok (cells k) else .error ⟨kind, .prgRam, k, size⟩ := by
  unfold fetch
  by_cases hk : k < size
  · have hroom : k < b.image.prgRam.size := h.length ▸ hk
    have hcell := h.contents k hk
    rw [Array.getElem?_eq_getElem hroom] at hcell
    rw [if_pos hk, dif_pos hroom, Option.some.inj hcell]
  · have hend : ¬ k < b.image.prgRam.size := h.length ▸ hk
    rw [if_neg hk, dif_neg hend, h.board, h.length]

theorem readPrg_eq (h : Holds kind size cells b) (hin : InWindow addr) :
    b.readPrg addr =
      if size = 0 then .ok 0 else fetch b.kind .prgRam b.image.prgRam (cell kind size addr) := by
  obtain ⟨hshows, hregister⟩ := h.shows_iff hin
  unfold readPrg
  rw [if_neg hregister, h.prgRamOffset_eq]
  by_cases hsize : size = 0
  · rw [if_neg (mt hshows.mp (not_not.mpr hsize)), if_pos hsize]
  · rw [if_pos (hshows.mpr hsize), if_neg hsize]

/-- A write to the window: nothing without work memory, or a byte placed in a cell. -/
theorem writePrg_eq_placed (h : Holds kind size cells b) (hin : InWindow addr) (value : UInt8) :
    b.writePrg addr value =
      if size = 0 then .ok b else b.placed .prgRam (cell kind size addr) value := by
  obtain ⟨hshows, hregister⟩ := h.shows_iff hin
  rw [writePrg_eq, if_neg hregister, h.prgRamOffset_eq]
  by_cases hsize : size = 0
  · rw [if_neg (mt hshows.mp (not_not.mpr hsize)), if_pos hsize]
  · rw [if_pos (hshows.mpr hsize), if_neg hsize]

theorem gap_iff (h : Holds kind size cells b) :
    Gap kind size addr ↔ size ≠ 0 ∧ size ≤ cell kind size addr :=
  Board.gap_iff h.windowed h.room

/-- A byte is placed in a cell that is there. -/
theorem placed (h : Holds kind size cells b) {k : Nat} (hk : k < size) (value : UInt8) :
    ∃ b', b.placed .prgRam k value = .ok b' ∧
      Holds kind size (Function.update cells k value) b' := by
  have hroom : k < b.image.prgRam.size := h.length ▸ hk
  refine ⟨b.withMemory (b.image.prgRam.set k value hroom) .prgRam, ?_, h.windowed, h.room, h.board,
    (Array.size_set hroom).trans h.length, fun j hj => ?_⟩
  · unfold Board.placed place memory
    rw [dif_pos hroom]
  · change (b.image.prgRam.set k value)[j]? = _
    rw [Array.getElem?_set, Function.update_apply]
    by_cases hsame : k = j
    · rw [if_pos hsame, if_pos hsame.symm]
    · rw [if_neg hsame, if_neg (Ne.symm hsame)]
      exact h.contents j hj

theorem placed_behind (h : Holds kind size cells b) {k : Nat} (hk : size ≤ k) (value : UInt8) :
    (b.placed .prgRam k value).mapError Prod.fst = .error ⟨kind, .prgRam, k, size⟩ := by
  have hend : ¬ k < b.image.prgRam.size := h.length ▸ Nat.not_lt.mpr hk
  unfold Board.placed place memory
  rw [dif_neg hend, h.board, h.length]
  rfl

/-! ## One request -/

/-- A request for a gap is a fault. -/
theorem serve_gap (h : Holds kind size cells b) {r : Request} (hin : InWindow r.addr)
    (hgap : Gap kind size r.addr) : b.serve r = .error (gapFault kind size r.addr) := by
  obtain ⟨hsize, hle⟩ := h.gap_iff.mp hgap
  have hfault : gapFault kind size r.addr = ⟨kind, .prgRam, cell kind size r.addr, size⟩ := by
    rw [gapFault, hgap.cell_eq]
  rw [hfault]
  cases r with
  | read addr =>
    dsimp only [Request.addr] at hin hle ⊢
    rw [serve_read, h.readPrg_eq hin, if_neg hsize, h.fetch_eq, if_neg (Nat.not_lt.mpr hle)]
    rfl
  | write addr value =>
    dsimp only [Request.addr] at hin hle ⊢
    rw [serve_write, h.writePrg_eq_placed hin, if_neg hsize]
    exact h.placed_behind hle value

/-- A request for anything else is served, and a write goes to its cell. -/
theorem serve_cell (h : Holds kind size cells b) {r : Request} (hin : InWindow r.addr)
    (hgap : ¬ Gap kind size r.addr) :
    ∃ b', b.serve r = .ok b' ∧ Holds kind size (r.store kind size cells) b' := by
  rw [h.gap_iff, not_and, Nat.not_le] at hgap
  cases r with
  | read addr =>
    refine ⟨b, ?_, h⟩
    dsimp only [Request.addr] at hin hgap
    rw [serve_read, h.readPrg_eq hin]
    by_cases hsize : size = 0
    · rw [if_pos hsize]
      rfl
    · rw [if_neg hsize, h.fetch_eq, if_pos (hgap hsize)]
      rfl
  | write addr value =>
    dsimp only [Request.addr] at hin hgap
    rw [serve_write, h.writePrg_eq_placed hin]
    by_cases hsize : size = 0
    · rw [if_pos hsize]
      exact ⟨b, rfl, h.windowed, h.room, h.board, h.length, fun k hk => by omega⟩
    · obtain ⟨b', hplaced, hb'⟩ := h.placed (hgap hsize) value
      rw [if_neg hsize, hplaced]
      exact ⟨b', rfl, hb'⟩

end Holds

/-! ## Any number of requests -/

/-- What the cells of a work memory hold behind any number of requests. -/
def storeAll (kind : Kind) (size : Nat) (requests : List Request) (cells : Nat → UInt8) :
    Nat → UInt8 :=
  requests.foldl (fun cells r => r.store kind size cells) cells

theorem serveAll_cons (b : Board) (r : Request) (rest : List Request) :
    b.serveAll (r :: rest) = b.serve r >>= fun b₁ => b₁.serveAll rest :=
  List.foldlM_cons

namespace Holds

/-- Requests that meet no gap are served. -/
theorem serveAll_cells (h : Holds kind size cells b) {requests : List Request}
    (hin : ∀ r ∈ requests, InWindow r.addr) (hgap : ∀ r ∈ requests, ¬ Gap kind size r.addr) :
    ∃ b', b.serveAll requests = .ok b' ∧ Holds kind size (storeAll kind size requests cells) b' := by
  induction requests generalizing b cells with
  | nil => exact ⟨b, rfl, h⟩
  | cons r rest ih =>
    obtain ⟨hfirst, hrest⟩ := List.forall_mem_cons.mp hin
    obtain ⟨hfirstGap, hrestGap⟩ := List.forall_mem_cons.mp hgap
    obtain ⟨b₁, hserve, hb₁⟩ := h.serve_cell hfirst hfirstGap
    obtain ⟨b', hall, hb'⟩ := ih hb₁ hrest hrestGap
    refine ⟨b', ?_, hb'⟩
    rw [serveAll_cons, hserve]
    exact hall

/-- Requests that are served meet no gap. -/
theorem not_gap_of_serveAll (h : Holds kind size cells b) {requests : List Request} {b' : Board}
    (hin : ∀ r ∈ requests, InWindow r.addr) (hall : b.serveAll requests = .ok b') :
    ∀ r ∈ requests, ¬ Gap kind size r.addr := by
  induction requests generalizing b cells with
  | nil => exact nofun
  | cons r rest ih =>
    obtain ⟨hfirst, hrest⟩ := List.forall_mem_cons.mp hin
    rw [serveAll_cons] at hall
    obtain ⟨b₁, hserve, hall⟩ := bind_ok hall
    have hgap : ¬ Gap kind size r.addr := by
      intro hgap
      rw [h.serve_gap hfirst hgap] at hserve
      cases hserve
    obtain ⟨b₁', hserve', hb₁⟩ := h.serve_cell hfirst hgap
    cases hserve.symm.trans hserve'
    exact List.forall_mem_cons.mpr ⟨hgap, ih hb₁ hrest hall⟩

/-- The first gap among the requests is the fault that they end with. -/
theorem serveAll_error_iff (h : Holds kind size cells b) {requests : List Request}
    (hin : ∀ r ∈ requests, InWindow r.addr) (fault : Fault) :
    b.serveAll requests = .error fault ↔ ∃ before r after, requests = before ++ r :: after ∧
      (∀ q ∈ before, ¬ Gap kind size q.addr) ∧ Gap kind size r.addr ∧
      fault = gapFault kind size r.addr := by
  induction requests generalizing b cells with
  | nil =>
    refine iff_of_false nofun ?_
    rintro ⟨before, r, after, hsplit, -⟩
    exact absurd hsplit (by simp)
  | cons r rest ih =>
    obtain ⟨hfirst, hrest⟩ := List.forall_mem_cons.mp hin
    rw [serveAll_cons]
    by_cases hgap : Gap kind size r.addr
    · rw [h.serve_gap hfirst hgap]
      constructor
      · intro herror
        cases herror
        exact ⟨[], r, rest, rfl, nofun, hgap, rfl⟩
      · rintro ⟨before, r', after, hsplit, hbefore, -, rfl⟩
        cases before with
        | nil =>
          cases hsplit
          rfl
        | cons q before =>
          cases hsplit
          exact absurd hgap (hbefore r List.mem_cons_self)
    · obtain ⟨b₁, hserve, hb₁⟩ := h.serve_cell hfirst hgap
      rw [hserve]
      refine (ih hb₁ hrest).trans ⟨?_, ?_⟩
      · rintro ⟨before, r', after, rfl, hbefore, hafter⟩
        exact ⟨r :: before, r', after, rfl, List.forall_mem_cons.mpr ⟨hgap, hbefore⟩, hafter⟩
      · rintro ⟨before, r', after, hsplit, hbefore, hr', rfl⟩
        cases before with
        | nil =>
          cases hsplit
          exact absurd hr' hgap
        | cons q before =>
          cases hsplit
          exact ⟨before, r', after, rfl, (List.forall_mem_cons.mp hbefore).2, hr', rfl⟩

end Holds

/-- Requests that write no byte to a cell leave it. -/
theorem storeAll_other {k : Nat} {requests : List Request} (cells : Nat → UInt8)
    (h : ∀ other value, .write other value ∈ requests → cell kind size other ≠ k) :
    storeAll kind size requests cells k = cells k := by
  induction requests generalizing cells with
  | nil => rfl
  | cons r rest ih =>
    have hrest := ih (r.store kind size cells) fun other value hmem =>
      h other value (List.mem_cons_of_mem _ hmem)
    refine hrest.trans ?_
    cases r with
    | read _ => rfl
    | write other value =>
      have hother := h other value List.mem_cons_self
      rw [Request.store_write, Function.update_of_ne hother.symm]

/-- The last byte that was written to a cell is in it. -/
theorem storeAll_written (before : List Request) (value : UInt8) {between : List Request}
    (cells : Nat → UInt8)
    (h : ∀ other v, .write other v ∈ between → cell kind size other ≠ cell kind size addr) :
    storeAll kind size (before ++ .write addr value :: between) cells (cell kind size addr) =
      value := by
  unfold storeAll
  rw [List.foldl_append, List.foldl_cons]
  refine (storeAll_other _ h).trans ?_
  rw [Request.store_write, Function.update_self]

/-! ## The board of a game -/

/-- A file with one of the three boards with a window gives such a board, with zeros in its memory. -/
theorem boardOf_holds {bytes : Bytes} {image : Rom.Image} (himage : Rom.Image.parse bytes = .ok image)
    (hmapper : image.header.mapper ∈ [(0 : UInt8), 1, 3]) :
    ∃ board, Cartridge.boardOf bytes = .ok board ∧ board.image.header = image.header ∧
      Kind.ofMapper? image.header.mapper = some board.kind ∧
      Holds board.kind board.image.prgRam.size (fun _ => 0) board := by
  obtain ⟨kind, hkind, hwindowed⟩ : ∃ kind, Kind.ofMapper? image.header.mapper = some kind ∧
      kind ∈ [Kind.nrom, .mmc1, .cnrom] := by
    simp only [List.mem_cons, List.not_mem_nil, or_false] at hmapper
    obtain h | h | h := hmapper <;> rw [h] <;> exact ⟨_, rfl, by decide⟩
  have hboard : Cartridge.boardOf bytes = .ok (ofImage kind image) := by
    unfold Cartridge.boardOf
    simp only [himage, hkind, Except.mapError, bind, Except.bind]
    rfl
  have hsame : (ofImage kind image).kind = kind ∧ (ofImage kind image).image.header = image.header := by
    cases kind <;> exact ⟨rfl, rfl⟩
  have hzeros := Cartridge.boardOf_prgRam hboard
  refine ⟨_, hboard, hsame.2, hsame.1.symm ▸ hkind, hsame.1.symm ▸ hwindowed, fun hmmc1 => ?_, rfl, rfl,
    fun k hk => ?_⟩
  · have hone : image.header.mapper = 1 := by
      refine Cartridge.ofMapper?_eq_mmc1 (hkind.trans ?_)
      rw [← hsame.1, hmmc1]
    rw [hzeros, Array.size_replicate, Cartridge.workSize, hsame.2, if_pos hone]
    exact Nat.le_max_right ..
  · rw [hzeros, Array.size_replicate] at hk
    rw [hzeros, Array.getElem?_replicate, if_pos hk]

/-- **The window of the work memory.** On the board of any game that has one, requests to the window end
with a fault exactly at the first for a gap, and a memory of at least 2 KB, of none, or of the MMC1 leaves
no gap. A byte that is written is read from each address that shows its cell until a byte is written to
that cell again. -/
theorem window_exact {bytes : Bytes} {image : Rom.Image} (himage : Rom.Image.parse bytes = .ok image)
    (hmapper : image.header.mapper ∈ [(0 : UInt8), 1, 3]) :
    ∃ board, Cartridge.boardOf bytes = .ok board ∧ board.image.header = image.header ∧
      Kind.ofMapper? image.header.mapper = some board.kind ∧
      ∀ requests : List Request, (∀ r ∈ requests, InWindow r.addr) →
        (∀ fault, board.serveAll requests = .error fault ↔
          ∃ before r after, requests = before ++ r :: after ∧
            (∀ q ∈ before, ¬ Gap board.kind board.image.prgRam.size q.addr) ∧
            Gap board.kind board.image.prgRam.size r.addr ∧
            fault = gapFault board.kind board.image.prgRam.size r.addr) ∧
        (image.header.mapper = 1 ∨ board.image.prgRam.size = 0 ∨
          0x800 ≤ board.image.prgRam.size → ∃ b, board.serveAll requests = .ok b) ∧
        (∀ before addr value between, requests = before ++ .write addr value :: between →
          board.image.prgRam.size ≠ 0 →
          (∀ other v, .write other v ∈ between →
            cell board.kind board.image.prgRam.size other ≠
              cell board.kind board.image.prgRam.size addr) →
          ∀ b, board.serveAll requests = .ok b → ∀ mirror, InWindow mirror →
            cell board.kind board.image.prgRam.size mirror =
              cell board.kind board.image.prgRam.size addr → b.readPrg mirror = .ok value) := by
  obtain ⟨board, hboard, hheader, hkind, hholds⟩ := boardOf_holds himage hmapper
  refine ⟨board, hboard, hheader, hkind, fun requests hin => ⟨hholds.serveAll_error_iff hin, fun hwhole => ?_,
    fun before addr value between hsplit hsize hbetween b hb mirror hmirror hcell => ?_⟩⟩
  · have hmmc1 : board.kind = .mmc1 ∨ board.image.prgRam.size = 0 ∨
        0x800 ≤ board.image.prgRam.size := by
      refine hwhole.imp_left fun hone => ?_
      rw [hone] at hkind
      exact (Option.some.inj hkind).symm
    obtain ⟨b, hb, -⟩ := hholds.serveAll_cells hin fun r _ => not_gap hmmc1
    exact ⟨b, hb⟩
  · have hnone := hholds.not_gap_of_serveAll hin hb
    obtain ⟨b', hb', hstored⟩ := hholds.serveAll_cells hin hnone
    cases hb.symm.trans hb'
    have hwrite : ¬ Gap board.kind board.image.prgRam.size addr :=
      hnone (.write addr value) (hsplit ▸ List.mem_append_right _ List.mem_cons_self)
    rw [hholds.gap_iff, not_and, Nat.not_le] at hwrite
    rw [hstored.readPrg_eq hmirror, if_neg hsize, hstored.fetch_eq, hcell, if_pos (hwrite hsize), hsplit,
      storeAll_written before value _ hbetween]

/-- A game of the plainest board: one byte of program, and a code for the size of its work memory. -/
def windowGame (size : UInt8) : Bytes :=
  #[0x4E, 0x45, 0x53, 0x1A, 0, 0, 0, 8, 0, 0x0F, size, 0, 0, 0, 0, 0, 0xEA]

/-- What its header declares. -/
theorem windowGame_parse (code : UInt8) (size : Nat)
    (h : (Rom.Image.parse (windowGame code)).toOption.map
      (fun image => (image.header.mapper, image.header.prgRamSize)) = some (0, size)) :
    ∃ image, Rom.Image.parse (windowGame code) = .ok image ∧ image.header.mapper = 0 ∧
      Cartridge.workSize image.header = size := by
  cases himage : Rom.Image.parse (windowGame code) with
  | error failure =>
    rw [himage] at h
    cases h
  | ok image =>
    rw [himage] at h
    obtain ⟨hmapper, hsize⟩ := Prod.mk.inj (Option.some.inj h)
    refine ⟨image, rfl, hmapper, ?_⟩
    rw [Cartridge.workSize, hmapper]
    exact hsize

/-- With 8 KB of work memory, its first byte is also at `$7800`. -/
theorem window_exact_repeats : ∃ board b, Cartridge.boardOf (windowGame 7) = .ok board ∧
    board.serveAll [.write 0x6000 0x5A, .write 0x6801 7, .read 0x7FFF] = .ok b ∧
    b.readPrg 0x7800 = .ok 0x5A := by
  obtain ⟨image, himage, hmapper, hsize⟩ :=
    windowGame_parse 7 0x2000 (by decide +kernel)
  obtain ⟨board, hboard, hheader, hkind, hserves⟩ := window_exact himage (by rw [hmapper]; decide)
  have hlength : board.image.prgRam.size = 0x2000 := by
    rw [Cartridge.boardOf_prgRam hboard, Array.size_replicate, hheader, hsize]
  rw [hmapper] at hkind
  rw [hlength, ← Option.some.inj hkind] at hserves
  obtain ⟨-, hserved, hread⟩ :=
    hserves [.write 0x6000 0x5A, .write 0x6801 7, .read 0x7FFF] (by decide)
  obtain ⟨b, hb⟩ := hserved (.inr (.inr (by decide)))
  refine ⟨board, b, hboard, hb, hread [] 0x6000 0x5A _ rfl (by decide) ?_ b hb 0x7800 (by decide) (by decide)⟩
  intro other v hmem
  simp only [List.mem_cons, Request.write.injEq, reduceCtorEq, List.not_mem_nil, or_false] at hmem
  rw [hmem.1]
  decide

/-- With 128 bytes of it, the next address is a gap. -/
theorem window_gap : ∃ board, Cartridge.boardOf (windowGame 1) = .ok board ∧
    board.image.header.mapper = 0 ∧
    board.serveAll [.write 0x6080 0x5A] = .error ⟨.nrom, .prgRam, 128, 128⟩ := by
  obtain ⟨image, himage, hmapper, hsize⟩ := windowGame_parse 1 128 (by decide +kernel)
  obtain ⟨board, hboard, hheader, hkind, hholds⟩ := boardOf_holds himage (by rw [hmapper]; decide)
  rw [hmapper] at hkind
  have hlength : board.image.prgRam.size = 128 := by
    rw [Cartridge.boardOf_prgRam hboard, Array.size_replicate, hheader, hsize]
  rw [← Option.some.inj hkind, hlength] at hholds
  refine ⟨board, hboard, hheader ▸ hmapper, ?_⟩
  have hgap : Gap .nrom 128 0x6080 := ⟨by decide, by decide, by decide⟩
  have hfault := hholds.serve_gap (show InWindow (Request.write 0x6080 0x5A).addr by decide) hgap
  rw [serveAll_cons, hfault]
  rfl

end NesMachine.Board
