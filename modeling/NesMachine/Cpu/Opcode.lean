/-!
# Opcodes

The instruction set as data: the operation and addressing mode behind every opcode byte. 151 of
the 256 bytes are documented. The others execute as `NOP` with the operand that the decoder
hardware would fetch for them, so an instruction's length never depends on whether it is documented.
-/

namespace NesMachine.Cpu

/-- The operations of the processor. -/
inductive Op where
  | adc | and | asl | bcc | bcs | beq | bit | bmi | bne | bpl | brk | bvc | bvs | clc
  | cld | cli | clv | cmp | cpx | cpy | dec | dex | dey | eor | inc | inx | iny | jmp
  | jsr | lda | ldx | ldy | lsr | nop | ora | pha | php | pla | plp | rol | ror | rti
  | rts | sbc | sec | sed | sei | sta | stx | sty | tax | tay | tsx | txa | txs | tya
  deriving DecidableEq, Repr, Inhabited

namespace Op

/-- The three-letter name. -/
def mnemonic : Op → String
  | adc => "ADC"
  | and => "AND"
  | asl => "ASL"
  | bcc => "BCC"
  | bcs => "BCS"
  | beq => "BEQ"
  | bit => "BIT"
  | bmi => "BMI"
  | bne => "BNE"
  | bpl => "BPL"
  | brk => "BRK"
  | bvc => "BVC"
  | bvs => "BVS"
  | clc => "CLC"
  | cld => "CLD"
  | cli => "CLI"
  | clv => "CLV"
  | cmp => "CMP"
  | cpx => "CPX"
  | cpy => "CPY"
  | dec => "DEC"
  | dex => "DEX"
  | dey => "DEY"
  | eor => "EOR"
  | inc => "INC"
  | inx => "INX"
  | iny => "INY"
  | jmp => "JMP"
  | jsr => "JSR"
  | lda => "LDA"
  | ldx => "LDX"
  | ldy => "LDY"
  | lsr => "LSR"
  | nop => "NOP"
  | ora => "ORA"
  | pha => "PHA"
  | php => "PHP"
  | pla => "PLA"
  | plp => "PLP"
  | rol => "ROL"
  | ror => "ROR"
  | rti => "RTI"
  | rts => "RTS"
  | sbc => "SBC"
  | sec => "SEC"
  | sed => "SED"
  | sei => "SEI"
  | sta => "STA"
  | stx => "STX"
  | sty => "STY"
  | tax => "TAX"
  | tay => "TAY"
  | tsx => "TSX"
  | txa => "TXA"
  | txs => "TXS"
  | tya => "TYA"

/-- Stores and read-modify-write operations spend the indexing cycle even when the index does not
carry into the next page. -/
def alwaysPaysIndexCycle : Op → Bool
  | sta | stx | sty | asl | lsr | rol | ror | inc | dec => true
  | _ => false

end Op

/-- The ways an instruction names its operand. -/
inductive AddrMode where
  | implied | accumulator | immediate
  | zeroPage | zeroPageX | zeroPageY
  | absolute | absoluteX | absoluteY
  | indirect | indexedIndirect | indirectIndexed
  | relative
  deriving DecidableEq, Repr, Inhabited

namespace AddrMode

/-- Bytes that follow the opcode. -/
def operandLength : AddrMode → Nat
  | implied | accumulator => 0
  | absolute | absoluteX | absoluteY | indirect => 2
  | _ => 1

/-- The name used in disassembly. -/
def name : AddrMode → String
  | implied => "Implied"
  | accumulator => "Accumulator"
  | immediate => "Immediate"
  | zeroPage => "ZeroPage"
  | zeroPageX => "ZeroPageX"
  | zeroPageY => "ZeroPageY"
  | absolute => "Absolute"
  | absoluteX => "AbsoluteX"
  | absoluteY => "AbsoluteY"
  | indirect => "Indirect"
  | indexedIndirect => "IndexedIndirect"
  | indirectIndexed => "IndirectIndexed"
  | relative => "Relative"

end AddrMode

/-- What an opcode byte stands for. -/
structure Instruction where
  op : Op
  mode : AddrMode
  deriving DecidableEq, Repr, Inhabited

private def i (op : Op) (mode : AddrMode) : Option Instruction := some ⟨op, mode⟩

/-- The documented instruction set: a row for each high digit, a column for each low digit. -/
def opcodeMatrix : Array (Array (Option Instruction)) := #[
  #[i .brk .implied, i .ora .indexedIndirect, none, none, none, i .ora .zeroPage,
    i .asl .zeroPage, none, i .php .implied, i .ora .immediate, i .asl .accumulator, none, none,
    i .ora .absolute, i .asl .absolute, none],
  #[i .bpl .relative, i .ora .indirectIndexed, none, none, none, i .ora .zeroPageX,
    i .asl .zeroPageX, none, i .clc .implied, i .ora .absoluteY, none, none, none,
    i .ora .absoluteX, i .asl .absoluteX, none],
  #[i .jsr .absolute, i .and .indexedIndirect, none, none, i .bit .zeroPage, i .and .zeroPage,
    i .rol .zeroPage, none, i .plp .implied, i .and .immediate, i .rol .accumulator, none,
    i .bit .absolute, i .and .absolute, i .rol .absolute, none],
  #[i .bmi .relative, i .and .indirectIndexed, none, none, none, i .and .zeroPageX,
    i .rol .zeroPageX, none, i .sec .implied, i .and .absoluteY, none, none, none,
    i .and .absoluteX, i .rol .absoluteX, none],
  #[i .rti .implied, i .eor .indexedIndirect, none, none, none, i .eor .zeroPage,
    i .lsr .zeroPage, none, i .pha .implied, i .eor .immediate, i .lsr .accumulator, none,
    i .jmp .absolute, i .eor .absolute, i .lsr .absolute, none],
  #[i .bvc .relative, i .eor .indirectIndexed, none, none, none, i .eor .zeroPageX,
    i .lsr .zeroPageX, none, i .cli .implied, i .eor .absoluteY, none, none, none,
    i .eor .absoluteX, i .lsr .absoluteX, none],
  #[i .rts .implied, i .adc .indexedIndirect, none, none, none, i .adc .zeroPage,
    i .ror .zeroPage, none, i .pla .implied, i .adc .immediate, i .ror .accumulator, none,
    i .jmp .indirect, i .adc .absolute, i .ror .absolute, none],
  #[i .bvs .relative, i .adc .indirectIndexed, none, none, none, i .adc .zeroPageX,
    i .ror .zeroPageX, none, i .sei .implied, i .adc .absoluteY, none, none, none,
    i .adc .absoluteX, i .ror .absoluteX, none],
  #[none, i .sta .indexedIndirect, none, none, i .sty .zeroPage, i .sta .zeroPage,
    i .stx .zeroPage, none, i .dey .implied, none, i .txa .implied, none, i .sty .absolute,
    i .sta .absolute, i .stx .absolute, none],
  #[i .bcc .relative, i .sta .indirectIndexed, none, none, i .sty .zeroPageX, i .sta .zeroPageX,
    i .stx .zeroPageY, none, i .tya .implied, i .sta .absoluteY, i .txs .implied, none, none,
    i .sta .absoluteX, none, none],
  #[i .ldy .immediate, i .lda .indexedIndirect, i .ldx .immediate, none, i .ldy .zeroPage,
    i .lda .zeroPage, i .ldx .zeroPage, none, i .tay .implied, i .lda .immediate, i .tax .implied,
    none, i .ldy .absolute, i .lda .absolute, i .ldx .absolute, none],
  #[i .bcs .relative, i .lda .indirectIndexed, none, none, i .ldy .zeroPageX, i .lda .zeroPageX,
    i .ldx .zeroPageY, none, i .clv .implied, i .lda .absoluteY, i .tsx .implied, none,
    i .ldy .absoluteX, i .lda .absoluteX, i .ldx .absoluteY, none],
  #[i .cpy .immediate, i .cmp .indexedIndirect, none, none, i .cpy .zeroPage, i .cmp .zeroPage,
    i .dec .zeroPage, none, i .iny .implied, i .cmp .immediate, i .dex .implied, none,
    i .cpy .absolute, i .cmp .absolute, i .dec .absolute, none],
  #[i .bne .relative, i .cmp .indirectIndexed, none, none, none, i .cmp .zeroPageX,
    i .dec .zeroPageX, none, i .cld .implied, i .cmp .absoluteY, none, none, none,
    i .cmp .absoluteX, i .dec .absoluteX, none],
  #[i .cpx .immediate, i .sbc .indexedIndirect, none, none, i .cpx .zeroPage, i .sbc .zeroPage,
    i .inc .zeroPage, none, i .inx .implied, i .sbc .immediate, i .nop .implied, none,
    i .cpx .absolute, i .sbc .absolute, i .inc .absolute, none],
  #[i .beq .relative, i .sbc .indirectIndexed, none, none, none, i .sbc .zeroPageX,
    i .inc .zeroPageX, none, i .sed .implied, i .sbc .absoluteY, none, none, none,
    i .sbc .absoluteX, i .inc .absoluteX, none]]

/-- The documented meaning of an opcode, if it has one. -/
def documented? (opcode : UInt8) : Option Instruction :=
  (opcodeMatrix.getD (opcode >>> 4).toNat #[]).getD (opcode &&& 15).toNat none

/-- The addressing mode that the decoder hardware applies to an undocumented opcode. Bits 2 to 4
choose it where the two low bits are set; opcodes that lock the processor have no operand. -/
def undocumentedMode (opcode : UInt8) : AddrMode :=
  let group := opcode >>> 5
  let indexedByY : Bool := group = 4 || group = 5
  if opcode &&& 3 = 3 then
    match ((opcode >>> 2) &&& 7).toNat with
    | 0 => .indexedIndirect
    | 1 => .zeroPage
    | 2 => .immediate
    | 3 => .absolute
    | 4 => .indirectIndexed
    | 5 => if indexedByY then .zeroPageY else .zeroPageX
    | 6 => .absoluteY
    | _ => if indexedByY then .absoluteY else .absoluteX
  else if opcode ∈ [0x80, 0x82, 0x89, 0xC2, 0xE2] then .immediate
  else if opcode ∈ [0x04, 0x44, 0x64] then .zeroPage
  else if opcode = 0x0C then .absolute
  else if opcode ∈ [0x14, 0x34, 0x54, 0x74, 0xD4, 0xF4] then .zeroPageX
  else if opcode ∈ [0x1C, 0x3C, 0x5C, 0x7C, 0xDC, 0xFC, 0x9C] then .absoluteX
  else if opcode = 0x9E then .absoluteY
  else .implied

/-- The instruction behind an opcode byte. Every byte has one. -/
def decode (opcode : UInt8) : Instruction :=
  match documented? opcode with
  | some instruction => instruction
  | none => ⟨.nop, undocumentedMode opcode⟩

theorem decode_of_documented {opcode : UInt8} {instruction : Instruction}
    (h : documented? opcode = some instruction) : decode opcode = instruction := by
  simp [decode, h]

theorem op_decode_of_undocumented {opcode : UInt8} (h : documented? opcode = none) :
    (decode opcode).op = .nop := by
  simp [decode, h]

end NesMachine.Cpu
