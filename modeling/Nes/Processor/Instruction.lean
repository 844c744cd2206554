/-!
# Instructions

An instruction is an operation with an addressing mode and a base cost in cycles. The length of an instruction depends
on its mode alone.
-/

namespace Nes

/-! ## Addressing modes -/

/-- Where an instruction finds what it works on. -/
inductive Mode
  /-- No operand, or the accumulator. -/
  | implied
  /-- The byte after the opcode. -/
  | immediate
  /-- An address of the zero page. -/
  | zeroPage
  | zeroPageX
  | zeroPageY
  /-- A signed distance from the next instruction. -/
  | relative
  /-- A full address. -/
  | absolute
  | absoluteX
  | absoluteY
  /-- The address of the address. -/
  | indirect
  /-- The zero-page address, indexed by X, of the address. -/
  | indexedIndirect
  /-- The zero-page address of an address that Y indexes. -/
  | indirectIndexed
  deriving DecidableEq

namespace Mode

/-- The number of bytes after the opcode. -/
def operandLength : Mode → Nat
  | .implied => 0
  | .immediate | .zeroPage | .zeroPageX | .zeroPageY | .relative | .indexedIndirect | .indirectIndexed => 1
  | .absolute | .absoluteX | .absoluteY | .indirect => 2

/-- The three-letter name of a mode. -/
def tag : Mode → String
  | .implied => "IMP"
  | .immediate => "IMM"
  | .zeroPage => "ZP0"
  | .zeroPageX => "ZPX"
  | .zeroPageY => "ZPY"
  | .relative => "REL"
  | .absolute => "ABS"
  | .absoluteX => "ABX"
  | .absoluteY => "ABY"
  | .indirect => "IND"
  | .indexedIndirect => "IZX"
  | .indirectIndexed => "IZY"

/-- Every mode. -/
def all : List Mode :=
  [.implied, .immediate, .zeroPage, .zeroPageX, .zeroPageY, .relative, .absolute, .absoluteX, .absoluteY, .indirect,
    .indexedIndirect, .indirectIndexed]

end Mode

/-! ## Operations -/

/-- What an instruction does, apart from finding its operand. -/
inductive Operation
  | adc | and | asl | bcc | bcs | beq | bit | bmi | bne | bpl | brk | bvc | bvs | clc | cld | cli | clv | cmp | cpx | cpy
  | dec | dex | dey | eor | inc | inx | iny | jmp | jsr | lda | ldx | ldy | lsr | nop | ora | pha | php | pla | plp | rol
  | ror | rti | rts | sbc | sec | sed | sei | sta | stx | sty | tax | tay | tsx | txa | txs | tya
  /-- Does nothing; the opcodes that have no other meaning. -/
  | undefined
  deriving DecidableEq

/-- The three-letter name of an operation. -/
def Operation.name : Operation → String
  | .adc => "ADC" | .and => "AND" | .asl => "ASL" | .bcc => "BCC" | .bcs => "BCS" | .beq => "BEQ" | .bit => "BIT"
  | .bmi => "BMI" | .bne => "BNE" | .bpl => "BPL" | .brk => "BRK" | .bvc => "BVC" | .bvs => "BVS" | .clc => "CLC"
  | .cld => "CLD" | .cli => "CLI" | .clv => "CLV" | .cmp => "CMP" | .cpx => "CPX" | .cpy => "CPY" | .dec => "DEC"
  | .dex => "DEX" | .dey => "DEY" | .eor => "EOR" | .inc => "INC" | .inx => "INX" | .iny => "INY" | .jmp => "JMP"
  | .jsr => "JSR" | .lda => "LDA" | .ldx => "LDX" | .ldy => "LDY" | .lsr => "LSR" | .nop => "NOP" | .ora => "ORA"
  | .pha => "PHA" | .php => "PHP" | .pla => "PLA" | .plp => "PLP" | .rol => "ROL" | .ror => "ROR" | .rti => "RTI"
  | .rts => "RTS" | .sbc => "SBC" | .sec => "SEC" | .sed => "SED" | .sei => "SEI" | .sta => "STA" | .stx => "STX"
  | .sty => "STY" | .tax => "TAX" | .tay => "TAY" | .tsx => "TSX" | .txa => "TXA" | .txs => "TXS" | .tya => "TYA"
  | .undefined => "???"

/-! ## Rows of the opcode table -/

/-- The meaning of an opcode. -/
structure Instruction where
  operation : Operation
  mode : Mode
  /-- The cost before penalties. -/
  cycles : Nat
  /-- Whether programs may rely on it. -/
  documented : Bool
  deriving DecidableEq

namespace Instruction

/-- The name shown for an instruction; undocumented ones show none. -/
def mnemonic (i : Instruction) : String := if i.documented then i.operation.name else "???"

/-- The number of bytes, opcode included. -/
def length (i : Instruction) : Nat := 1 + i.mode.operandLength

theorem length_pos (i : Instruction) : 0 < i.length := by
  unfold length
  omega

end Instruction

end Nes
