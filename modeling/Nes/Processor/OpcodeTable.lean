import Nes.Word
import Nes.Processor.Instruction

/-!
# The opcode table

Every byte is an opcode. The documented ones have a name; of the others some are no-operations that still take operand
bytes, `$EB` subtracts, and the rest are one-byte no-operations.
-/

namespace Nes

namespace Instruction

/-- A documented instruction. -/
def known (operation : Operation) (mode : Mode) (cycles : Nat) : Instruction := ⟨operation, mode, cycles, true⟩

/-- An undocumented no-operation that takes the operand bytes of its mode. -/
def skip (mode : Mode) (cycles : Nat) : Instruction := ⟨.nop, mode, cycles, false⟩

/-- An opcode without a meaning. -/
def blank (cycles : Nat) : Instruction := ⟨.undefined, .implied, cycles, false⟩

/-- The opcode matrix: a row for each high nibble, a column for each low nibble. -/
def table : Vector (Vector Instruction 16) 16 := #v[
  #v[known .brk .immediate 7, known .ora .indexedIndirect 6, blank 2, blank 8, skip .zeroPage 3,
    known .ora .zeroPage 3, known .asl .zeroPage 5, blank 5, known .php .implied 3, known .ora .immediate 2,
    known .asl .implied 2, blank 2, skip .absolute 4, known .ora .absolute 4, known .asl .absolute 6, blank 6],
  #v[known .bpl .relative 2, known .ora .indirectIndexed 5, blank 2, blank 8, skip .zeroPageX 4,
    known .ora .zeroPageX 4, known .asl .zeroPageX 6, blank 6, known .clc .implied 2, known .ora .absoluteY 4,
    skip .implied 2, blank 7, skip .absoluteX 4, known .ora .absoluteX 4, known .asl .absoluteX 7, blank 7],
  #v[known .jsr .absolute 6, known .and .indexedIndirect 6, blank 2, blank 8, known .bit .zeroPage 3,
    known .and .zeroPage 3, known .rol .zeroPage 5, blank 5, known .plp .implied 4, known .and .immediate 2,
    known .rol .implied 2, blank 2, known .bit .absolute 4, known .and .absolute 4, known .rol .absolute 6, blank 6],
  #v[known .bmi .relative 2, known .and .indirectIndexed 5, blank 2, blank 8, skip .zeroPageX 4,
    known .and .zeroPageX 4, known .rol .zeroPageX 6, blank 6, known .sec .implied 2, known .and .absoluteY 4,
    skip .implied 2, blank 7, skip .absoluteX 4, known .and .absoluteX 4, known .rol .absoluteX 7, blank 7],
  #v[known .rti .implied 6, known .eor .indexedIndirect 6, blank 2, blank 8, skip .zeroPage 3, known .eor .zeroPage 3,
    known .lsr .zeroPage 5, blank 5, known .pha .implied 3, known .eor .immediate 2, known .lsr .implied 2, blank 2,
    known .jmp .absolute 3, known .eor .absolute 4, known .lsr .absolute 6, blank 6],
  #v[known .bvc .relative 2, known .eor .indirectIndexed 5, blank 2, blank 8, skip .zeroPageX 4,
    known .eor .zeroPageX 4, known .lsr .zeroPageX 6, blank 6, known .cli .implied 2, known .eor .absoluteY 4,
    skip .implied 2, blank 7, skip .absoluteX 4, known .eor .absoluteX 4, known .lsr .absoluteX 7, blank 7],
  #v[known .rts .implied 6, known .adc .indexedIndirect 6, blank 2, blank 8, skip .zeroPage 3, known .adc .zeroPage 3,
    known .ror .zeroPage 5, blank 5, known .pla .implied 4, known .adc .immediate 2, known .ror .implied 2, blank 2,
    known .jmp .indirect 5, known .adc .absolute 4, known .ror .absolute 6, blank 6],
  #v[known .bvs .relative 2, known .adc .indirectIndexed 5, blank 2, blank 8, skip .zeroPageX 4,
    known .adc .zeroPageX 4, known .ror .zeroPageX 6, blank 6, known .sei .implied 2, known .adc .absoluteY 4,
    skip .implied 2, blank 7, skip .absoluteX 4, known .adc .absoluteX 4, known .ror .absoluteX 7, blank 7],
  #v[skip .immediate 2, known .sta .indexedIndirect 6, skip .immediate 2, blank 6, known .sty .zeroPage 3,
    known .sta .zeroPage 3, known .stx .zeroPage 3, blank 3, known .dey .implied 2, skip .immediate 2,
    known .txa .implied 2, blank 2, known .sty .absolute 4, known .sta .absolute 4, known .stx .absolute 4, blank 4],
  #v[known .bcc .relative 2, known .sta .indirectIndexed 6, blank 2, blank 6, known .sty .zeroPageX 4,
    known .sta .zeroPageX 4, known .stx .zeroPageY 4, blank 4, known .tya .implied 2, known .sta .absoluteY 5,
    known .txs .implied 2, blank 5, blank 5, known .sta .absoluteX 5, blank 5, blank 5],
  #v[known .ldy .immediate 2, known .lda .indexedIndirect 6, known .ldx .immediate 2, blank 6, known .ldy .zeroPage 3,
    known .lda .zeroPage 3, known .ldx .zeroPage 3, blank 3, known .tay .implied 2, known .lda .immediate 2,
    known .tax .implied 2, blank 2, known .ldy .absolute 4, known .lda .absolute 4, known .ldx .absolute 4, blank 4],
  #v[known .bcs .relative 2, known .lda .indirectIndexed 5, blank 2, blank 5, known .ldy .zeroPageX 4,
    known .lda .zeroPageX 4, known .ldx .zeroPageY 4, blank 4, known .clv .implied 2, known .lda .absoluteY 4,
    known .tsx .implied 2, blank 4, known .ldy .absoluteX 4, known .lda .absoluteX 4, known .ldx .absoluteY 4,
    blank 4],
  #v[known .cpy .immediate 2, known .cmp .indexedIndirect 6, skip .immediate 2, blank 8, known .cpy .zeroPage 3,
    known .cmp .zeroPage 3, known .dec .zeroPage 5, blank 5, known .iny .implied 2, known .cmp .immediate 2,
    known .dex .implied 2, blank 2, known .cpy .absolute 4, known .cmp .absolute 4, known .dec .absolute 6, blank 6],
  #v[known .bne .relative 2, known .cmp .indirectIndexed 5, blank 2, blank 8, skip .zeroPageX 4,
    known .cmp .zeroPageX 4, known .dec .zeroPageX 6, blank 6, known .cld .implied 2, known .cmp .absoluteY 4,
    skip .implied 2, blank 7, skip .absoluteX 4, known .cmp .absoluteX 4, known .dec .absoluteX 7, blank 7],
  #v[known .cpx .immediate 2, known .sbc .indexedIndirect 6, skip .immediate 2, blank 8, known .cpx .zeroPage 3,
    known .sbc .zeroPage 3, known .inc .zeroPage 5, blank 5, known .inx .implied 2, known .sbc .immediate 2,
    known .nop .implied 2, ⟨.sbc, .immediate, 2, false⟩, known .cpx .absolute 4, known .sbc .absolute 4,
    known .inc .absolute 6, blank 6],
  #v[known .beq .relative 2, known .sbc .indirectIndexed 5, blank 2, blank 8, skip .zeroPageX 4,
    known .sbc .zeroPageX 4, known .inc .zeroPageX 6, blank 6, known .sed .implied 2, known .sbc .absoluteY 4,
    skip .implied 2, blank 7, skip .absoluteX 4, known .sbc .absoluteX 4, known .inc .absoluteX 7, blank 7]]

/-- The instruction that an opcode stands for. -/
def ofOpcode (opcode : Byte) : Instruction := table[(opcode.highNibble.toFin : Fin 16)][(opcode.lowNibble.toFin : Fin 16)]

end Instruction

end Nes
