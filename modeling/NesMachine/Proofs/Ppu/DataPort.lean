import Mathlib.Tactic.IntervalCases
import NesMachine.Proofs.Machine.Progress
import NesMachine.Proofs.Ppu.Holdings
import NesMachine.Proofs.Ppu.Scan

/-!
# The data port

The processor reaches the memory behind the picture unit through two registers: one takes an address,
the other a byte at a time, and moves the address on. Reads come a byte late, but for colours.

* `Cell`, `cell?`: the memory cells behind the addresses.
* `upload_ok`, `download_ok`: what a run of writes stores and what a run of reads tells.
* **`data_port_faithful`**: what is written is read back, through any address of the same cell.
-/

namespace NesMachine

open Board (Fault)

/-! ## Slots with other patterns -/

/-- The same game, but for the bytes in its pattern memory. -/
inductive Slot.Redrawn : Slot → Slot → Prop where
  | empty : Redrawn none none
  | board (b : Board) {chr : Digest.Bytes} :
      chr.size = b.image.chr.size → Redrawn (some b) (some (b.withMemory chr .chr))

namespace Slot.Redrawn

variable {slot slot' slot'' : Slot}

theorem refl (slot : Slot) : slot.Redrawn slot := by
  cases slot with
  | none => exact .empty
  | some b => exact .board b rfl

theorem trans (h : slot.Redrawn slot') (h' : slot'.Redrawn slot'') : slot.Redrawn slot'' := by
  cases h with
  | empty => exact h'
  | board b hsize =>
    cases h' with
    | board _ hsize' => exact .board b (hsize'.trans hsize)

theorem mirroring (h : slot.Redrawn slot') : slot'.mirroring = slot.mirroring := by
  cases h <;> rfl

theorem readable (h : slot.Redrawn slot') (hread : slot.Readable) : slot'.Readable := by
  cases h with
  | empty => exact hread
  | @board b chr hsize =>
    intro addr haddr
    obtain ⟨value, hvalue⟩ := hread addr haddr
    have hoffset : b.chrOffset addr < b.image.chr.size := by
      by_contra hout
      have hfault : Slot.readChr (some b) addr = .error _ := dif_neg hout
      cases hvalue.symm.trans hfault
    rw [← hsize] at hoffset
    exact Board.fetch_ok hoffset

end Slot.Redrawn

namespace Ppu

variable {p q r : Ppu} {slot slot' slot'' : Slot} {addr : UInt16} {value : UInt8}

/-! ## Cells -/

/-- A cell of the memory behind the picture unit. -/
inductive Cell where
  | pattern (offset : Nat)
  | table (i : Fin 0x800)
  | colour (i : Fin 32)
  deriving DecidableEq

/-- The cell behind an address, if a byte can be kept there: a game may have its patterns fixed, or
fewer than a bank has room for. -/
def cell? (slot : Slot) (addr : UInt16) : Option Cell :=
  if addr < 0x2000 then
    slot.bind fun b =>
      if b.image.chrIsRam ∧ b.chrOffset addr < b.image.chr.size then
        some (.pattern (b.chrOffset addr))
      else none
  else if addr < 0x3F00 then some (.table (nametableCell addr slot.mirroring))
  else some (.colour (paletteCell addr))

/-- The byte in a cell. -/
def contents (p : Ppu) (slot : Slot) : Cell → Option UInt8
  | .pattern offset => slot.bind fun b => b.image.chr[offset]?
  | .table i => some (p.nametables.get i)
  | .colour i => some (p.palette.get i)

theorem cell?_redrawn (h : slot.Redrawn slot') : cell? slot' = cell? slot := by
  funext addr
  unfold cell?
  rw [h.mirroring]
  cases h with
  | empty => rfl
  | board b hsize =>
    simp only [Option.bind_some]
    rw [show (b.withMemory _ .chr).image.chr.size = _ from hsize]
    rfl

theorem contents_congr (h : q.setting = p.setting) (slot : Slot) :
    q.contents slot = p.contents slot :=
  congrArg (fun s : Setting =>
    ({ p with nametables := s.nametables, palette := s.palette } : Ppu).contents slot) h

theorem accessStep_of_setting (h : q.setting = p.setting) : q.accessStep = p.accessStep := by
  have hctrl : q.ctrl = p.ctrl := congrArg Setting.ctrl h
  rw [accessStep, accessStep, hctrl]

theorem accessStep_of_memories (h : q.setting =
    { p.setting with nametables := q.nametables, palette := q.palette }) :
    q.accessStep = p.accessStep := by
  have hctrl : q.ctrl = p.ctrl := congrArg Setting.ctrl h
  rw [accessStep, accessStep, hctrl]

theorem masked (h : addr < 0x4000) : addr &&& 0x3FFF = addr := by
  have hlt : addr.toNat < 0x4000 := h
  have hmod := Nat.and_two_pow_sub_one_eq_mod addr.toNat 14
  rw [← UInt16.toNat_inj, UInt16.toNat_and]
  exact hmod.trans (Nat.mod_eq_of_lt hlt)

theorem masked_lt (addr : UInt16) : addr &&& 0x3FFF < 0x4000 := by
  have hle : (addr &&& 0x3FFF).toNat ≤ 0x3FFF := by
    rw [UInt16.toNat_and]
    exact Nat.and_le_right
  show (addr &&& 0x3FFF).toNat < 0x4000
  omega

theorem masked_masked (addr : UInt16) : addr &&& 0x3FFF &&& 0x3FFF = addr &&& 0x3FFF :=
  masked (masked_lt addr)

/-- A read below the palettes tells what is in the cell. -/
theorem readMemory_cell {cell : Cell} (hbelow : addr < 0x3F00) (hcell : cell? slot addr = some cell)
    (hvalue : p.contents slot cell = some value) : p.readMemory slot addr = .ok value := by
  have hmasked : addr &&& 0x3FFF = addr := masked (UInt16.lt_trans hbelow (by decide))
  unfold cell? at hcell
  unfold readMemory
  simp only [hmasked]
  split_ifs at hcell ⊢ with hpattern
  · cases slot with
    | none => cases hcell
    | some b =>
      rw [Option.bind_some] at hcell
      split_ifs at hcell with hoffset
      cases hcell
      have hbyte : b.image.chr[b.chrOffset addr]? = some value := hvalue
      rw [Array.getElem?_eq_getElem hoffset.2] at hbyte
      cases hbyte
      exact dif_pos hoffset.2
  · cases hcell
    cases hvalue
    rfl

/-! ## Stores -/

/-- A byte is stored in a cell, and nothing else changes. -/
structure Stored (cell : Cell) (value : UInt8) (p : Ppu) (slot : Slot) (q : Ppu) (slot' : Slot) :
    Prop where
  setting : q.setting = { p.setting with nametables := q.nametables, palette := q.palette }
  redrawn : slot.Redrawn slot'
  inside : q.contents slot' cell = some value
  outside : ∀ other ≠ cell, q.contents slot' other = p.contents slot other

/-- A write stores its byte in the cell behind the address. -/
theorem writeMemory_cell (p : Ppu) {cell : Cell} (value : UInt8) (hlt : addr < 0x4000)
    (hcell : cell? slot addr = some cell) : ∃ q slot',
      p.writeMemory slot addr value = .ok (q, slot') ∧ Stored cell value p slot q slot' := by
  unfold cell? at hcell
  unfold writeMemory
  simp only [masked hlt]
  split_ifs at hcell ⊢ with hpattern hbelow
  · cases slot with
    | none => cases hcell
    | some b =>
      rw [Option.bind_some] at hcell
      split_ifs at hcell with hoffset
      cases hcell
      have hplace : b.placed .chr (b.chrOffset addr) value =
          .ok (b.withMemory (b.image.chr.set (b.chrOffset addr) value hoffset.2) .chr) := by
        unfold Board.placed Board.place
        rw [show b.memory .chr = b.image.chr from rfl, dif_pos hoffset.2]
      have hwrite : Slot.writeChr (some b) addr value =
          .ok (some (b.withMemory (b.image.chr.set (b.chrOffset addr) value hoffset.2) .chr)) := by
        unfold Slot.writeChr
        simp only [Board.writeChr_eq, hoffset.1, if_true, hplace]
      rw [hwrite]
      refine ⟨p, _, rfl, rfl, .board b (Array.size_set _), ?_, fun other hother => ?_⟩
      · exact Array.getElem?_set_self hoffset.2
      · cases other with
        | pattern offset =>
          exact Array.getElem?_set_ne hoffset.2 fun heq => hother (congrArg Cell.pattern heq.symm)
        | _ => rfl
  · cases hcell
    refine ⟨_, slot, rfl, rfl, .refl slot, ?_, fun other hother => ?_⟩
    · exact congrArg some (Vector.getElem_set_self _)
    · cases other with
      | table i =>
        exact congrArg some (Vector.getElem_set_ne (Fin.isLt _) i.isLt fun heq =>
          hother (congrArg Cell.table (Fin.ext heq.symm)))
      | _ => rfl
  · cases hcell
    refine ⟨_, slot, rfl, rfl, .refl slot, ?_, fun other hother => ?_⟩
    · exact congrArg some (Vector.getElem_set_self _)
    · cases other with
      | colour i =>
        exact congrArg some (Vector.getElem_set_ne (Fin.isLt _) i.isLt fun heq =>
          hother (congrArg Cell.colour (Fin.ext heq.symm)))
      | _ => rfl

/-! ## Accesses in a row -/

/-- The bytes that accesses in a row tell of memory, and what they lead to. -/
def accesses (p : Ppu) (slot : Slot) : List Access → Except Fault (List UInt8 × Ppu × Slot)
  | [] => .ok ([], p, slot)
  | a :: rest => do
    let (told, q, slot) ← p.access slot a
    let (more, q, slot) ← q.accesses slot rest
    return (told.toList ++ more, q, slot)

theorem accesses_cons {a : Access} {rest : List Access} {told : Option UInt8} {more : List UInt8}
    (h : p.access slot a = .ok (told, q, slot'))
    (h' : q.accesses slot' rest = .ok (more, r, slot'')) :
    p.accesses slot (a :: rest) = .ok (told.toList ++ more, r, slot'') := by
  rw [accesses, h]
  show (q.accesses slot' rest >>= _) = _
  rw [h']
  rfl

theorem accesses_append {xs ys : List Access} {told more : List UInt8}
    (h : p.accesses slot xs = .ok (told, q, slot')) (h' : q.accesses slot' ys = .ok (more, r, slot'')) :
    p.accesses slot (xs ++ ys) = .ok (told ++ more, r, slot'') := by
  induction xs generalizing p slot told with
  | nil =>
    cases h
    exact h'
  | cons a rest ih =>
    obtain ⟨⟨first, p₁, slot₁⟩, hfirst, h⟩ := bind_ok h
    obtain ⟨⟨told₁, p₂, slot₂⟩, hrest, h⟩ := bind_ok h
    cases h
    rw [List.append_assoc]
    exact accesses_cons hfirst (ih hrest)

/-! ## The address register -/

/-- An address, high byte first, behind a read that makes the next write the first of a pair. -/
def setAddress (a : UInt16) : List Access :=
  [.read 0x2002, .write 0x2006 (a >>> 8).toUInt8, .write 0x2006 a.toUInt8]

theorem address_bytes (t a : UInt16) :
    (((t &&& (0x00FF : UInt16)) ||| (((a >>> 8).toUInt8 &&& 0x3F).toUInt16 <<< (8 : UInt16))) &&&
      (0x7F00 : UInt16)) ||| a.toUInt8.toUInt16 = a &&& 0x3FFF := by
  rw [← UInt16.toBitVec_inj]
  ext i hi
  interval_cases i <;> simp [-UInt16.toUInt16_toUInt8]

theorem setAddress_ok (p : Ppu) (slot : Slot) (a : UInt16) :
    ∃ q, p.accesses slot (setAddress a) = .ok ([], q, slot) ∧ q.setting = p.setting ∧
      q.readBuffer = p.readBuffer ∧ q.scroll.v = a &&& 0x3FFF :=
  ⟨_, rfl, rfl, rfl, address_bytes p.scroll.t a⟩

/-! ## Runs of addresses -/

/-- The address a number of accesses behind another one. -/
def along (a step : UInt16) (i : Nat) : UInt16 := .ofNat (a.toNat + i * step.toNat)

theorem along_zero (a step : UInt16) : along a step 0 = a := by
  rw [along, Nat.zero_mul, Nat.add_zero, UInt16.ofNat_toNat]

theorem along_succ (a step : UInt16) (i : Nat) : along a step (i + 1) = along (a + step) step i := by
  rw [along, along, ← UInt16.toNat_inj, UInt16.toNat_ofNat', UInt16.toNat_ofNat', UInt16.toNat_add,
    Nat.succ_mul]
  omega

theorem toNat_along {a step : UInt16} {i : Nat} (h : a.toNat + i * step.toNat < 0x3F00) :
    (along a step i).toNat = a.toNat + i * step.toNat :=
  UInt16.toNat_ofNat_of_lt' (Nat.lt_trans h (by decide))

theorem accessStep_le (p : Ppu) : p.accessStep.toNat ≤ 32 := by
  unfold accessStep
  split <;> decide

/-- Below the palettes, an access moves the address on without a turn. -/
theorem afterAccess_eq (s : Scroll) {step : UInt16} (hbelow : s.v < 0x3F00)
    (hstep : step.toNat ≤ 32) : s.afterAccess step = { s with v := s.v + step } := by
  have hlt : s.v.toNat < 0x3F00 := hbelow
  have hsum : (s.v + step).toNat = s.v.toNat + step.toNat := by
    rw [UInt16.toNat_add]
    omega
  have hmod := Nat.and_two_pow_sub_one_eq_mod (s.v + step).toNat 15
  have hmasked : (s.v + step) &&& 0x7FFF = s.v + step := by
    rw [← UInt16.toNat_inj, UInt16.toNat_and]
    exact hmod.trans (Nat.mod_eq_of_lt (by omega))
  rw [Scroll.afterAccess, hmasked]

/-- Addresses below the palettes with a cell each. -/
structure Laid (slot : Slot) (a step : UInt16) (n : Nat) (cells : Nat → Cell) : Prop where
  below : ∀ i ≤ n, a.toNat + i * step.toNat < 0x3F00
  cell : ∀ i < n, cell? slot (along a step i) = some (cells i)
  distinct : ∀ i < n, ∀ j < n, cells i = cells j → i = j

theorem Laid.first {a step : UInt16} {n : Nat} {cells : Nat → Cell} (h : Laid slot a step n cells) :
    a < 0x3F00 := by
  have hfirst := h.below 0 (Nat.zero_le n)
  rw [Nat.zero_mul] at hfirst
  exact hfirst

theorem Laid.tail {a step : UInt16} {n : Nat} {cells : Nat → Cell}
    (h : Laid slot a step (n + 1) cells) (hslot : slot.Redrawn slot') :
    Laid slot' (a + step) step n fun i => cells (i + 1) := by
  have hnext : (a + step).toNat = a.toNat + step.toNat := by
    have hbelow := h.below 1 (by omega)
    rw [UInt16.toNat_add]
    omega
  constructor
  · intro i hi
    have hbelow := h.below (i + 1) (by omega)
    rw [Nat.succ_mul] at hbelow
    omega
  · intro i hi
    rw [cell?_redrawn hslot, ← along_succ]
    exact h.cell (i + 1) (by omega)
  · intro i hi j hj heq
    have hsucc := h.distinct (i + 1) (by omega) (j + 1) (by omega) heq
    omega

/-! ## Writes in a row -/

/-- Stores through the data register, in order. -/
def upload (a : UInt16) (bs : List UInt8) : List Access :=
  setAddress a ++ bs.map (.write 0x2007)

theorem write_data {cell : Cell} (value : UInt8) (hbelow : p.scroll.v < 0x4000)
    (hcell : cell? slot p.scroll.v = some cell) : ∃ q slot',
      p.access slot (.write 0x2007 value) = .ok (none, q, slot') ∧
      q.scroll = p.scroll.afterAccess p.accessStep ∧ Stored cell value p slot q slot' := by
  obtain ⟨q, slot', hwrite, hstored⟩ :=
    writeMemory_cell { p with openBus := value } value hbelow hcell
  have hframe : q = _ := writeMemory_frame hwrite
  have hscroll : q.scroll = p.scroll := by rw [hframe]
  have hstep : q.accessStep = p.accessStep := accessStep_of_memories hstored.setting
  have hregister : p.writeRegister slot 0x2007 value =
      .ok ({ q with scroll := q.scroll.afterAccess q.accessStep }, slot') := by
    rw [writeRegister_data (by decide), writeData]
    simp only [masked hbelow, hwrite]
    rfl
  have haccess : p.access slot (.write 0x2007 value) =
      .ok (none, { q with scroll := q.scroll.afterAccess q.accessStep }, slot') := by
    rw [access, hregister]
    rfl
  refine ⟨_, slot', haccess, by rw [hstep, hscroll], ?_⟩
  exact ⟨hstored.setting, hstored.redrawn, hstored.inside, hstored.outside⟩

/-- Bytes are stored in cells, one each, and nothing else changes. -/
structure Uploaded (cells : Nat → Cell) (bs : List UInt8) (p : Ppu) (slot : Slot) (q : Ppu)
    (slot' : Slot) : Prop where
  setting : q.setting = { p.setting with nametables := q.nametables, palette := q.palette }
  redrawn : slot.Redrawn slot'
  inside : ∀ i (h : i < bs.length), q.contents slot' (cells i) = some bs[i]
  outside : ∀ cell, (∀ i < bs.length, cell ≠ cells i) →
    q.contents slot' cell = p.contents slot cell

theorem Uploaded.cons {cells : Nat → Cell} {b : UInt8} {bs : List UInt8}
    (hfirst : Stored (cells 0) b p slot q slot')
    (hrest : Uploaded (fun i => cells (i + 1)) bs q slot' r slot'')
    (hfresh : ∀ i < bs.length, cells 0 ≠ cells (i + 1)) :
    Uploaded cells (b :: bs) p slot r slot'' := by
  refine ⟨?_, hfirst.redrawn.trans hrest.redrawn, ?_, ?_⟩
  · rw [hrest.setting, hfirst.setting]
  · intro i hi
    cases i with
    | zero => exact (hrest.outside _ hfresh).trans hfirst.inside
    | succ i => exact hrest.inside i (by simpa using hi)
  · intro cell hcell
    rw [hrest.outside cell fun i hi => hcell (i + 1) (by simpa using hi)]
    exact hfirst.outside cell (hcell 0 (by simp))

/-- **A run of writes stores each byte in its cell.** -/
theorem writes_ok {cells : Nat → Cell} (bs : List UInt8)
    (h : Laid slot p.scroll.v p.accessStep bs.length cells) : ∃ q slot',
      p.accesses slot (bs.map (.write 0x2007)) = .ok ([], q, slot') ∧
        Uploaded cells bs p slot q slot' := by
  induction bs generalizing p slot cells with
  | nil => exact ⟨p, slot, rfl, rfl, .refl slot, fun i hi => absurd hi (by simp), fun _ _ => rfl⟩
  | cons b bs ih =>
    have hcell := h.cell 0 (by simp)
    rw [along_zero] at hcell
    obtain ⟨q₁, slot₁, haccess, hscroll, hstored⟩ :=
      write_data b (UInt16.lt_trans h.first (by decide)) hcell
    rw [afterAccess_eq _ h.first (accessStep_le p)] at hscroll
    have hlaid : Laid slot₁ q₁.scroll.v q₁.accessStep bs.length fun i => cells (i + 1) := by
      rw [hscroll, accessStep_of_memories hstored.setting]
      exact h.tail hstored.redrawn
    obtain ⟨q, slot', haccesses, hrest⟩ := ih hlaid
    refine ⟨q, slot', accesses_cons haccess haccesses, hrest.cons hstored fun i hi heq => ?_⟩
    exact absurd (h.distinct 0 (by simp) (i + 1) (by simpa using hi) heq) (by omega)

theorem upload_ok {a : UInt16} {cells : Nat → Cell} {bs : List UInt8}
    (h : Laid slot a p.accessStep bs.length cells) : ∃ q slot',
      p.accesses slot (upload a bs) = .ok ([], q, slot') ∧ Uploaded cells bs p slot q slot' := by
  obtain ⟨q, haddress, hsetting, -, hv⟩ := setAddress_ok p slot a
  rw [masked (UInt16.lt_trans h.first (by decide))] at hv
  rw [← hv, ← accessStep_of_setting hsetting] at h
  obtain ⟨r, slot', hwrites, huploaded⟩ := writes_ok bs h
  refine ⟨r, slot', accesses_append haddress hwrites, ?_, huploaded.redrawn, huploaded.inside, ?_⟩
  · rw [huploaded.setting, hsetting]
  · rw [← contents_congr hsetting]
    exact huploaded.outside

/-! ## Reads in a row -/

/-- Loads through the data register, in order. -/
def download (a : UInt16) (n : Nat) : List Access :=
  setAddress a ++ List.replicate n (.read 0x2007)

theorem access_data (h : p.readData slot = .ok (value, q)) :
    p.access slot (.read 0x2007) = .ok (some value, { q with openBus := value }, slot) := by
  rw [access, readRegister_data (by decide), h]
  rfl

/-- A read below the palettes tells what the one before has fetched. -/
theorem read_buffered (hread : slot.Readable) (hbelow : p.scroll.v < 0x3F00) :
    ∃ q, p.access slot (.read 0x2007) = .ok (some p.readBuffer, q, slot) ∧
      q.setting = p.setting ∧ q.readBuffer = p.byteAt slot p.scroll.v ∧
      q.scroll.v = p.scroll.v + p.accessStep := by
  have hmasked : p.scroll.v &&& 0x3FFF = p.scroll.v := masked (UInt16.lt_trans hbelow (by decide))
  have hdata : p.readData slot = .ok (p.readBuffer, { p with
      readBuffer := p.byteAt slot p.scroll.v, scroll := p.scroll.afterAccess p.accessStep }) := by
    unfold readData
    simp only [hmasked, readMemory_ok hread]
    exact if_neg (UInt16.not_le.mpr hbelow)
  refine ⟨_, access_data hdata, rfl, rfl, ?_⟩
  rw [afterAccess_eq _ hbelow (accessStep_le p)]

/-- **A run of reads tells what is at the addresses**, behind what was fetched before it. -/
theorem reads_ok (hread : slot.Readable) (n : Nat)
    (hbelow : p.scroll.v.toNat + n * p.accessStep.toNat < 0x3F00) : ∃ q,
      p.accesses slot (List.replicate (n + 1) (.read 0x2007)) = .ok (p.readBuffer ::
        (List.range n).map fun i => p.byteAt slot (along p.scroll.v p.accessStep i), q, slot) ∧
      q.setting = p.setting ∧
      q.readBuffer = p.byteAt slot (along p.scroll.v p.accessStep n) := by
  have hfirst : p.scroll.v < 0x3F00 := show p.scroll.v.toNat < 0x3F00 by omega
  induction n generalizing p with
  | zero =>
    obtain ⟨q, haccess, hsetting, hbuffer, -⟩ := read_buffered hread hfirst
    exact ⟨q, accesses_cons haccess rfl, hsetting, by rw [along_zero, hbuffer]⟩
  | succ n ih =>
    obtain ⟨q₁, haccess, hsetting, hbuffer, hv⟩ := read_buffered hread hfirst
    have hstep := accessStep_of_setting hsetting
    have hbelow₁ : q₁.scroll.v.toNat + n * q₁.accessStep.toNat < 0x3F00 := by
      have hnext : q₁.scroll.v.toNat ≤ p.scroll.v.toNat + p.accessStep.toNat := by
        rw [hv, UInt16.toNat_add]
        exact Nat.mod_le _ _
      rw [Nat.succ_mul] at hbelow
      rw [hstep]
      omega
    obtain ⟨q, haccesses, hsetting', hbuffer'⟩ :=
      ih hbelow₁ (show q₁.scroll.v.toNat < 0x3F00 by omega)
    have halong (i : Nat) : q₁.byteAt slot (along q₁.scroll.v q₁.accessStep i) =
        p.byteAt slot (along p.scroll.v p.accessStep (i + 1)) := by
      rw [byteAt_congr hsetting, hv, hstep, along_succ]
    refine ⟨q, ?_, hsetting'.trans hsetting, hbuffer'.trans (halong n)⟩
    rw [List.range_succ_eq_map, List.map_cons, List.map_map, along_zero, ← hbuffer]
    simp only [halong] at haccesses
    exact accesses_cons haccess haccesses

theorem download_ok (hread : slot.Readable) (a : UInt16) (n : Nat)
    (hbelow : (a &&& 0x3FFF).toNat + n * p.accessStep.toNat < 0x3F00) : ∃ q,
      p.accesses slot (download a (n + 1)) = .ok (p.readBuffer ::
        (List.range n).map fun i => p.byteAt slot (along (a &&& 0x3FFF) p.accessStep i), q, slot) ∧
      q.setting = p.setting ∧
      q.readBuffer = p.byteAt slot (along (a &&& 0x3FFF) p.accessStep n) := by
  obtain ⟨q, haddress, hsetting, hbuffer, hv⟩ := setAddress_ok p slot a
  have hstep := accessStep_of_setting hsetting
  rw [← hv, ← hstep] at hbelow
  obtain ⟨r, hreads, hsetting', hbuffer'⟩ := reads_ok hread n hbelow
  rw [hv, hstep, byteAt_congr hsetting, hbuffer] at hreads
  rw [hv, hstep, byteAt_congr hsetting] at hbuffer'
  exact ⟨r, accesses_append haddress hreads, hsetting'.trans hsetting, hbuffer'⟩

/-! ## Colours -/

/-- A colour number as the mask register lets it through. -/
def shade (p : Ppu) (value : UInt8) : UInt8 :=
  if p.mask &&& 0x01 ≠ 0 then value &&& 0x30 else value

theorem readPalette_eq (p : Ppu) (addr : UInt16) :
    p.readPalette addr = p.shade (p.palette.get (paletteCell addr)) := by
  unfold readPalette greyscale shade
  simp only [decide_eq_true_eq]

/-- **Colours of one cell**: those of every 32 addresses, and the first of each palette of the sprites
with the first of one of the background. -/
theorem paletteCell_eq_iff (a a' : UInt16) : paletteCell a' = paletteCell a ↔
    a'.toNat % 32 = a.toNat % 32 ∨ a.toNat % 4 = 0 ∧ a'.toNat % 16 = a.toNat % 16 := by
  unfold paletteCell
  simp only
  split_ifs <;> rw [Fin.mk.injEq] <;> omega

theorem paletteCell_masked (a : UInt16) : paletteCell (a &&& 0x3FFF) = paletteCell a := by
  have hmod := Nat.and_two_pow_sub_one_eq_mod a.toNat 14
  have hmasked : (a &&& 0x3FFF).toNat = a.toNat % 0x4000 := (UInt16.toNat_and ..).trans hmod
  refine (paletteCell_eq_iff a (a &&& 0x3FFF)).mpr (.inl ?_)
  omega

theorem readMemory_colour (slot : Slot) (hge : 0x3F00 ≤ addr) (hlt : addr < 0x4000) :
    p.readMemory slot addr = .ok (p.readPalette addr) := by
  unfold readMemory
  simp only [masked hlt]
  rw [if_neg (UInt16.not_lt.mpr (UInt16.le_trans (by decide) hge)), if_neg (UInt16.not_lt.mpr hge)]

theorem readMemory_table (slot : Slot) (hge : 0x2000 ≤ addr) (hlt : addr < 0x3F00) :
    p.readMemory slot addr = .ok (p.nametables.get (nametableCell addr slot.mirroring)) := by
  unfold readMemory
  simp only [masked (UInt16.lt_trans hlt (by decide : (0x3F00 : UInt16) < 0x4000))]
  rw [if_neg (UInt16.not_lt.mpr hge), if_pos hlt]

/-- A read of a colour tells it at once, and fetches what is beneath it. -/
theorem read_colour (slot : Slot) (hcolour : 0x3F00 ≤ p.scroll.v &&& 0x3FFF) :
    ∃ q, p.access slot (.read 0x2007) =
        .ok (some (p.shade (p.palette.get (paletteCell (p.scroll.v &&& 0x3FFF)))), q, slot) ∧
      q.setting = p.setting ∧ q.readBuffer =
        p.nametables.get (nametableCell ((p.scroll.v &&& 0x3FFF) - 0x1000) slot.mirroring) := by
  have hlt := masked_lt p.scroll.v
  generalize haddr : p.scroll.v &&& 0x3FFF = addr at hcolour hlt
  have hge : 0x3F00 ≤ addr.toNat := hcolour
  have hend : addr.toNat < 0x4000 := hlt
  have hbelow : (addr - 0x1000).toNat = addr.toNat - 0x1000 := by
    rw [UInt16.toNat_sub]
    simp only [UInt16.reduceToNat]
    omega
  have hbeneath : p.readMemory slot (addr - 0x1000) =
      .ok (p.nametables.get (nametableCell (addr - 0x1000) slot.mirroring)) :=
    readMemory_table slot (show 0x2000 ≤ (addr - 0x1000).toNat by omega)
      (show (addr - 0x1000).toNat < 0x3F00 by omega)
  have hdata : p.readData slot = .ok (p.readPalette addr, { p with
      readBuffer := p.nametables.get (nametableCell (addr - 0x1000) slot.mirroring)
      scroll := p.scroll.afterAccess p.accessStep }) := by
    unfold readData
    simp only [haddr, readMemory_colour slot hcolour hlt]
    refine (if_pos hcolour).trans ?_
    rw [hbeneath]
    rfl
  rw [← readPalette_eq]
  exact ⟨_, access_data hdata, rfl, rfl⟩

theorem shade_of_mask (h : q.mask = p.mask) : q.shade = p.shade := by
  funext value
  rw [shade, shade, h]

/-- A colour is told at once. -/
theorem download_colour (p : Ppu) (slot : Slot) {a : UInt16} (ha : 0x3F00 ≤ a &&& 0x3FFF) :
    ∃ q, p.accesses slot (download a 1) =
      .ok ([p.shade (p.palette.get (paletteCell a))], q, slot) := by
  obtain ⟨q, haddress, hsetting, -, hv⟩ := setAddress_ok p slot a
  have haddr : q.scroll.v &&& 0x3FFF = a &&& 0x3FFF := by rw [hv, masked_masked]
  obtain ⟨r, hread, -, -⟩ := read_colour (p := q) slot (by rw [haddr]; exact ha)
  have hpalette : q.palette = p.palette := congrArg Setting.palette hsetting
  rw [haddr, paletteCell_masked, shade_of_mask (congrArg Setting.mask hsetting), hpalette] at hread
  exact ⟨r, accesses_append haddress (accesses_cons hread rfl)⟩

theorem upload_colour (p : Ppu) (slot : Slot) {a : UInt16} (ha : 0x3F00 ≤ a &&& 0x3FFF)
    (b : UInt8) : ∃ q slot', p.accesses slot (upload a [b]) = .ok ([], q, slot') ∧
      Stored (.colour (paletteCell a)) b p slot q slot' := by
  obtain ⟨q, haddress, hsetting, -, hv⟩ := setAddress_ok p slot a
  have hcell : cell? slot q.scroll.v = some (.colour (paletteCell a)) := by
    rw [hv, cell?, if_neg (UInt16.not_lt.mpr (UInt16.le_trans (by decide) ha)),
      if_neg (UInt16.not_lt.mpr ha), paletteCell_masked]
  obtain ⟨r, slot', hwrite, -, hstored⟩ := write_data b (by rw [hv]; exact masked_lt a) hcell
  refine ⟨r, slot', accesses_append haddress (accesses_cons hwrite rfl), ?_, hstored.redrawn,
    hstored.inside, ?_⟩
  · rw [hstored.setting, hsetting]
  · rw [← contents_congr hsetting]
    exact hstored.outside

/-- What is written through an address of a colour is told through any other. -/
theorem colour_ok (p : Ppu) (slot : Slot) {a a' : UInt16} (ha : 0x3F00 ≤ a &&& 0x3FFF)
    (ha' : 0x3F00 ≤ a' &&& 0x3FFF) (hsame : paletteCell a' = paletteCell a) (b : UInt8) :
    ∃ q r slot', p.accesses slot (upload a [b]) = .ok ([], q, slot') ∧
      Stored (.colour (paletteCell a)) b p slot q slot' ∧
      q.accesses slot' (download a' 1) = .ok ([p.shade b], r, slot') := by
  obtain ⟨q, slot', hupload, hstored⟩ := upload_colour p slot ha b
  obtain ⟨r, hdownload⟩ := download_colour q slot' ha'
  have hmask : q.mask = p.mask := congrArg Setting.mask hstored.setting
  have hvalue : q.palette.get (paletteCell a) = b := Option.some.inj hstored.inside
  rw [hsame, hvalue, shade_of_mask hmask] at hdownload
  exact ⟨q, r, slot', hupload, hstored, hdownload⟩

/-! ## The port -/

/-- The byte that is delivered through an address: one read fetches it, and the next one tells it. -/
structure Delivers (p : Ppu) (slot : Slot) (addr : UInt16) (value : UInt8) : Prop where
  fetches : ∃ q, p.accesses slot (download addr 1) = .ok ([p.readBuffer], q, slot) ∧
    q.readBuffer = value
  tells : (addr &&& 0x3FFF).toNat + p.accessStep.toNat < 0x3F00 →
    ∃ q, p.accesses slot (download addr 2) = .ok ([p.readBuffer, value], q, slot)

theorem delivers (hread : slot.Readable) (hbelow : addr &&& 0x3FFF < 0x3F00) :
    p.Delivers slot addr (p.byteAt slot (addr &&& 0x3FFF)) := by
  have hlt : (addr &&& 0x3FFF).toNat < 0x3F00 := hbelow
  constructor
  · obtain ⟨q, haccesses, -, hbuffer⟩ := download_ok (p := p) hread addr 0 (by omega)
    rw [along_zero] at hbuffer
    exact ⟨q, haccesses, hbuffer⟩
  · intro hnext
    obtain ⟨q, haccesses, -, -⟩ := download_ok (p := p) hread addr 1 (by omega)
    have htold : (List.range 1).map
        (fun i => p.byteAt slot (along (addr &&& 0x3FFF) p.accessStep i)) =
        [p.byteAt slot (addr &&& 0x3FFF)] := by
      rw [List.range_one, List.map_singleton, along_zero]
    rw [htold] at haccesses
    exact ⟨q, haccesses⟩

theorem Uploaded.byteAt {cells : Nat → Cell} {bs : List UInt8} (h : Uploaded cells bs p slot q slot')
    {i : Nat} (hi : i < bs.length) (hbelow : addr < 0x3F00) (hcell : cell? slot addr = some (cells i)) :
    q.byteAt slot' addr = bs[i] := by
  rw [← cell?_redrawn h.redrawn] at hcell
  exact byteAt_of_ok (readMemory_cell hbelow hcell (h.inside i hi))

/-- Bytes are read back as they were written. -/
theorem Uploaded.read_back {a : UInt16} {cells : Nat → Cell} {bs : List UInt8}
    (h : Uploaded cells bs p slot q slot') (hlaid : Laid slot a p.accessStep bs.length cells) :
    ((List.range bs.length).map fun i => q.byteAt slot' (along a p.accessStep i)) = bs := by
  refine List.ext_getElem (by simp) fun i hi hi' => ?_
  rw [List.getElem_map, List.getElem_range]
  refine h.byteAt hi' ?_ (hlaid.cell i hi')
  have hbelow := hlaid.below i (by omega)
  show (along a p.accessStep i).toNat < 0x3F00
  rw [toNat_along hbelow]
  exact hbelow

/-- **The data port is a faithful memory port.** Bytes that are written from an address on, each in a
cell of its own below the palettes, are read back from there in order, and nothing else has changed;
any other address of such a cell delivers the same byte. A colour is told at once, in its shade,
through any address of its cell, and what is beneath it is fetched. -/
theorem data_port_faithful (p : Ppu) (slot : Slot) :
    (slot.Readable → ∀ (a : UInt16) (bs : List UInt8) (cells : Nat → Cell),
      Laid slot a p.accessStep bs.length cells → ∃ stale q slot',
        p.accesses slot (upload a bs ++ download a (bs.length + 1)) = .ok (stale :: bs, q, slot') ∧
        q.oam = p.oam ∧ slot.Redrawn slot' ∧
        (∀ cell, (∀ i < bs.length, cell ≠ cells i) → q.contents slot' cell = p.contents slot cell) ∧
        ∀ i (hi : i < bs.length) (addr : UInt16), addr &&& 0x3FFF < 0x3F00 →
          cell? slot (addr &&& 0x3FFF) = some (cells i) → q.Delivers slot' addr bs[i]) ∧
    (0x3F00 ≤ p.scroll.v &&& 0x3FFF → ∃ q, p.access slot (.read 0x2007) =
        .ok (some (p.shade (p.palette.get (paletteCell (p.scroll.v &&& 0x3FFF)))), q, slot) ∧
      q.setting = p.setting ∧ q.readBuffer =
        p.nametables.get (nametableCell ((p.scroll.v &&& 0x3FFF) - 0x1000) slot.mirroring)) ∧
    ∀ a a' : UInt16,
      (paletteCell a' = paletteCell a ↔
        a'.toNat % 32 = a.toNat % 32 ∨ a.toNat % 4 = 0 ∧ a'.toNat % 16 = a.toNat % 16) ∧
      (0x3F00 ≤ a &&& 0x3FFF → 0x3F00 ≤ a' &&& 0x3FFF → paletteCell a' = paletteCell a →
        ∀ b, ∃ q r slot', p.accesses slot (upload a [b]) = .ok ([], q, slot') ∧
          Stored (.colour (paletteCell a)) b p slot q slot' ∧
          q.accesses slot' (download a' 1) = .ok ([p.shade b], r, slot')) := by
  refine ⟨?_, read_colour slot, fun a a' =>
    ⟨paletteCell_eq_iff a a', fun ha ha' => colour_ok p slot ha ha'⟩⟩
  intro hread a bs cells hlaid
  obtain ⟨q₁, slot', hupload, huploaded⟩ := upload_ok hlaid
  have hread' := huploaded.redrawn.readable hread
  have hbelow := hlaid.below bs.length (Nat.le_refl _)
  have hmasked : a &&& 0x3FFF = a := masked (UInt16.lt_trans hlaid.first (by decide))
  rw [← accessStep_of_memories huploaded.setting, ← hmasked] at hbelow
  obtain ⟨q, hdownload, hsetting, -⟩ := download_ok hread' a bs.length hbelow
  rw [accessStep_of_memories huploaded.setting, hmasked, huploaded.read_back hlaid] at hdownload
  have hoam : q.oam = p.oam :=
    (congrArg Setting.oam hsetting).trans (congrArg Setting.oam huploaded.setting)
  refine ⟨q₁.readBuffer, q, slot', accesses_append hupload hdownload, hoam, huploaded.redrawn, ?_, ?_⟩
  · rw [contents_congr hsetting]
    exact huploaded.outside
  · intro i hi addr haddr hcell
    rw [← huploaded.byteAt hi haddr hcell, ← byteAt_congr hsetting]
    exact delivers hread' haddr

/-- The last two bytes of the patterns and the first two of a nametable. -/
def acrossCells (i : Nat) : Cell :=
  if i < 2 then .pattern (0x1FFE + i) else .table ⟨(i - 2) % 0x800, Nat.mod_lt _ (by decide)⟩

theorem cell?_whole {b : Board} (hwhole : b.Whole) (hram : b.image.chrIsRam = true)
    (h : addr < 0x2000) : cell? (some b) addr = some (.pattern (addr.toNat % 0x2000)) := by
  have hoffset : b.chrOffset addr = addr.toNat % 0x2000 := by rw [Board.chrOffset, hwhole.latch]
  rw [cell?, if_pos h, Option.bind_some, if_pos ⟨hram, hwhole.chrOffset_lt addr⟩, hoffset]

theorem laid_across : Laid Machine.zeros.slot 0x1FFE ({} : Ppu).accessStep 4 acrossCells := by
  have hpattern (addr : UInt16) (h : addr < 0x2000) :
      cell? Machine.zeros.slot addr = some (.pattern (addr.toNat % 0x2000)) := by
    obtain ⟨b, hslot, hwhole⟩ := Machine.zeros_whole
    have hram : b.image.chrIsRam = true := by
      cases hslot
      rfl
    rw [hslot, cell?_whole hwhole hram h]
  refine ⟨by decide, fun i hi => ?_, by decide⟩
  interval_cases i
  · exact hpattern _ (by decide)
  · exact hpattern _ (by decide)
  · rfl
  · rfl

/-- Four bytes across the end of the patterns, with the last one in a mirrored nametable; and a colour
that is written through another address of its cell. -/
theorem data_port_faithful_across :
    (∃ stale q slot', ({} : Ppu).accesses Machine.zeros.slot
        (upload 0x1FFE [1, 2, 3, 4] ++ download 0x1FFE 5) = .ok ([stale, 1, 2, 3, 4], q, slot') ∧
      q.Delivers slot' 0x6801 4) ∧
    (∃ q, ({ scroll.v := 0x7F05 } : Ppu).access none (.read 0x2007) = .ok (some 0x0F, q, none)) ∧
    ∃ q r slot', ({ mask := 1 } : Ppu).accesses none (upload 0x3F30 [0x2A]) = .ok ([], q, slot') ∧
      q.accesses slot' (download 0x3F00 1) = .ok ([0x20], r, slot') := by
  refine ⟨?_, ?_, ?_⟩
  · obtain ⟨stale, q, slot', haccesses, -, -, -, hdelivers⟩ :=
      (data_port_faithful {} Machine.zeros.slot).1 Machine.zeros_whole.readable 0x1FFE [1, 2, 3, 4]
        acrossCells laid_across
    exact ⟨stale, q, slot', haccesses, hdelivers 3 (by decide) 0x6801 (by decide) rfl⟩
  · obtain ⟨q, hread, -, -⟩ :=
      (data_port_faithful { scroll.v := 0x7F05 } none).2.1 (by decide)
    exact ⟨q, hread⟩
  · obtain ⟨q, r, slot', hupload, -, hdownload⟩ := ((data_port_faithful { mask := 1 } none).2.2
      0x3F30 0x3F00).2 (by decide) (by decide) (by decide) 0x2A
    exact ⟨q, r, slot', hupload, hdownload⟩

end Ppu

end NesMachine
