import EightBit.Opcode.Mnemonic
import EightBit.Opcode.Mode

/-
The table of all 256 opcodes: mnemonic and addressing mode as a listing shows them, what is
executed, and the base cost in cycles.
-/

namespace EightBit

/-- What is executed: the operation of a mnemonic, on the operand that the mode finds. -/
structure Handler where
  runs : Mnemonic
  mode : Mode
  deriving DecidableEq, Repr

/-- The first two columns are for listings. The execution reads neither of them, but the handler. -/
structure Instruction where
  mnemonic : Mnemonic
  mode : Mode
  handler : Handler
  /-- The cost before page crossings and taken branches. -/
  cycles : Nat
  deriving DecidableEq, Repr

namespace Instruction

/-- An opcode that locks up the processor has neither operand nor cost. -/
def jam : Instruction := ⟨.jam, .implied, ⟨.jam, .implied⟩, 0⟩

private def row0 : Vector Instruction 16 := #v[
  ⟨.brk, .implied, ⟨.brk, .implied⟩, 7⟩, ⟨.ora, .indexedIndirect, ⟨.ora, .indexedIndirect⟩, 6⟩, jam,
  ⟨.slo, .indexedIndirect, ⟨.slo, .indexedIndirect⟩, 8⟩, ⟨.nop, .zeroPage, ⟨.nop, .zeroPage⟩, 3⟩,
  ⟨.ora, .zeroPage, ⟨.ora, .zeroPage⟩, 3⟩, ⟨.asl, .zeroPage, ⟨.asl, .zeroPage⟩, 5⟩,
  ⟨.slo, .zeroPage, ⟨.slo, .zeroPage⟩, 5⟩, ⟨.php, .implied, ⟨.php, .implied⟩, 3⟩,
  ⟨.ora, .immediate, ⟨.ora, .immediate⟩, 2⟩, ⟨.asl, .accumulator, ⟨.asl, .accumulator⟩, 2⟩,
  ⟨.anc, .immediate, ⟨.anc, .immediate⟩, 2⟩, ⟨.nop, .absolute, ⟨.nop, .absolute⟩, 4⟩,
  ⟨.ora, .absolute, ⟨.ora, .absolute⟩, 4⟩, ⟨.asl, .absolute, ⟨.asl, .absolute⟩, 6⟩,
  ⟨.slo, .absolute, ⟨.slo, .absolute⟩, 6⟩]

private def row1 : Vector Instruction 16 := #v[
  ⟨.bpl, .relative, ⟨.bpl, .relative⟩, 2⟩, ⟨.ora, .indirectIndexed, ⟨.ora, .indirectIndexed⟩, 5⟩,
  jam, ⟨.slo, .indirectIndexed, ⟨.slo, .indirectIndexed⟩, 8⟩,
  ⟨.nop, .zeroPageX, ⟨.nop, .zeroPageX⟩, 4⟩, ⟨.ora, .zeroPageX, ⟨.ora, .zeroPageX⟩, 4⟩,
  ⟨.asl, .zeroPageX, ⟨.asl, .zeroPageX⟩, 6⟩, ⟨.slo, .zeroPageX, ⟨.slo, .zeroPageX⟩, 6⟩,
  ⟨.clc, .implied, ⟨.clc, .implied⟩, 2⟩, ⟨.ora, .absoluteY, ⟨.ora, .absoluteY⟩, 4⟩,
  ⟨.nop, .implied, ⟨.nop, .implied⟩, 2⟩, ⟨.slo, .absoluteY, ⟨.slo, .absoluteY⟩, 7⟩,
  ⟨.nop, .absoluteX, ⟨.nop, .absoluteX⟩, 4⟩, ⟨.ora, .absoluteX, ⟨.ora, .absoluteX⟩, 4⟩,
  ⟨.asl, .absoluteX, ⟨.asl, .absoluteX⟩, 7⟩, ⟨.slo, .absoluteX, ⟨.slo, .absoluteX⟩, 7⟩]

private def row2 : Vector Instruction 16 := #v[
  ⟨.jsr, .absolute, ⟨.jsr, .absolute⟩, 6⟩, ⟨.and, .indexedIndirect, ⟨.and, .indexedIndirect⟩, 6⟩,
  jam, ⟨.rla, .indexedIndirect, ⟨.rla, .indexedIndirect⟩, 8⟩,
  ⟨.bit, .zeroPage, ⟨.bit, .zeroPage⟩, 3⟩, ⟨.and, .zeroPage, ⟨.and, .zeroPage⟩, 3⟩,
  ⟨.rol, .zeroPage, ⟨.rol, .zeroPage⟩, 5⟩, ⟨.rla, .zeroPage, ⟨.rla, .zeroPage⟩, 5⟩,
  ⟨.plp, .implied, ⟨.plp, .implied⟩, 4⟩, ⟨.and, .immediate, ⟨.and, .immediate⟩, 2⟩,
  ⟨.rol, .accumulator, ⟨.rol, .accumulator⟩, 2⟩, ⟨.anc, .immediate, ⟨.anc, .immediate⟩, 2⟩,
  ⟨.bit, .absolute, ⟨.bit, .absolute⟩, 4⟩, ⟨.and, .absolute, ⟨.and, .absolute⟩, 4⟩,
  ⟨.rol, .absolute, ⟨.rol, .absolute⟩, 6⟩, ⟨.rla, .absolute, ⟨.rla, .absolute⟩, 6⟩]

private def row3 : Vector Instruction 16 := #v[
  ⟨.bmi, .relative, ⟨.bmi, .relative⟩, 2⟩, ⟨.and, .indirectIndexed, ⟨.and, .indirectIndexed⟩, 5⟩,
  jam, ⟨.rla, .indirectIndexed, ⟨.rla, .indirectIndexed⟩, 8⟩,
  ⟨.nop, .zeroPageX, ⟨.nop, .zeroPageX⟩, 4⟩, ⟨.and, .zeroPageX, ⟨.and, .zeroPageX⟩, 4⟩,
  ⟨.rol, .zeroPageX, ⟨.rol, .zeroPageX⟩, 6⟩, ⟨.rla, .zeroPageX, ⟨.rla, .zeroPageX⟩, 6⟩,
  ⟨.sec, .implied, ⟨.sec, .implied⟩, 2⟩, ⟨.and, .absoluteY, ⟨.and, .absoluteY⟩, 4⟩,
  ⟨.nop, .implied, ⟨.nop, .implied⟩, 2⟩, ⟨.rla, .absoluteY, ⟨.rla, .absoluteY⟩, 7⟩,
  ⟨.nop, .absoluteX, ⟨.nop, .absoluteX⟩, 4⟩, ⟨.and, .absoluteX, ⟨.and, .absoluteX⟩, 4⟩,
  ⟨.rol, .absoluteX, ⟨.rol, .absoluteX⟩, 7⟩, ⟨.rla, .absoluteX, ⟨.rla, .absoluteX⟩, 7⟩]

private def row4 : Vector Instruction 16 := #v[
  ⟨.rti, .implied, ⟨.rti, .implied⟩, 6⟩, ⟨.eor, .indexedIndirect, ⟨.eor, .indexedIndirect⟩, 6⟩, jam,
  ⟨.sre, .indexedIndirect, ⟨.sre, .indexedIndirect⟩, 8⟩, ⟨.nop, .zeroPage, ⟨.nop, .zeroPage⟩, 3⟩,
  ⟨.eor, .zeroPage, ⟨.eor, .zeroPage⟩, 3⟩, ⟨.lsr, .zeroPage, ⟨.lsr, .zeroPage⟩, 5⟩,
  ⟨.sre, .zeroPage, ⟨.sre, .zeroPage⟩, 5⟩, ⟨.pha, .implied, ⟨.pha, .implied⟩, 3⟩,
  ⟨.eor, .immediate, ⟨.eor, .immediate⟩, 2⟩, ⟨.lsr, .accumulator, ⟨.lsr, .accumulator⟩, 2⟩,
  ⟨.alr, .immediate, ⟨.alr, .immediate⟩, 2⟩, ⟨.jmp, .absolute, ⟨.jmp, .absolute⟩, 3⟩,
  ⟨.eor, .absolute, ⟨.eor, .absolute⟩, 4⟩, ⟨.lsr, .absolute, ⟨.lsr, .absolute⟩, 6⟩,
  ⟨.sre, .absolute, ⟨.sre, .absolute⟩, 6⟩]

private def row5 : Vector Instruction 16 := #v[
  ⟨.bvc, .relative, ⟨.bvc, .relative⟩, 2⟩, ⟨.eor, .indirectIndexed, ⟨.eor, .indirectIndexed⟩, 5⟩,
  jam, ⟨.sre, .indirectIndexed, ⟨.sre, .indirectIndexed⟩, 8⟩,
  ⟨.nop, .zeroPageX, ⟨.nop, .zeroPageX⟩, 4⟩, ⟨.eor, .zeroPageX, ⟨.eor, .zeroPageX⟩, 4⟩,
  ⟨.lsr, .zeroPageX, ⟨.lsr, .zeroPageX⟩, 6⟩, ⟨.sre, .zeroPageX, ⟨.sre, .zeroPageX⟩, 6⟩,
  ⟨.cli, .implied, ⟨.cli, .implied⟩, 2⟩, ⟨.eor, .absoluteY, ⟨.eor, .absoluteY⟩, 4⟩,
  ⟨.nop, .implied, ⟨.nop, .implied⟩, 2⟩, ⟨.sre, .absoluteY, ⟨.sre, .absoluteY⟩, 7⟩,
  ⟨.nop, .absoluteX, ⟨.nop, .absoluteX⟩, 4⟩, ⟨.eor, .absoluteX, ⟨.eor, .absoluteX⟩, 4⟩,
  ⟨.lsr, .absoluteX, ⟨.lsr, .absoluteX⟩, 7⟩, ⟨.sre, .absoluteX, ⟨.sre, .absoluteX⟩, 7⟩]

private def row6 : Vector Instruction 16 := #v[
  ⟨.rts, .implied, ⟨.rts, .implied⟩, 6⟩, ⟨.adc, .indexedIndirect, ⟨.adc, .indexedIndirect⟩, 6⟩, jam,
  ⟨.rra, .indexedIndirect, ⟨.rra, .indexedIndirect⟩, 8⟩, ⟨.nop, .zeroPage, ⟨.nop, .zeroPage⟩, 3⟩,
  ⟨.adc, .zeroPage, ⟨.adc, .zeroPage⟩, 3⟩, ⟨.ror, .zeroPage, ⟨.ror, .zeroPage⟩, 5⟩,
  ⟨.rra, .zeroPage, ⟨.rra, .zeroPage⟩, 5⟩, ⟨.pla, .implied, ⟨.pla, .implied⟩, 4⟩,
  ⟨.adc, .immediate, ⟨.adc, .immediate⟩, 2⟩, ⟨.ror, .accumulator, ⟨.ror, .accumulator⟩, 2⟩,
  ⟨.arr, .immediate, ⟨.arr, .immediate⟩, 2⟩, ⟨.jmp, .indirect, ⟨.jmp, .indirect⟩, 5⟩,
  ⟨.adc, .absolute, ⟨.adc, .absolute⟩, 4⟩, ⟨.ror, .absolute, ⟨.ror, .absolute⟩, 6⟩,
  ⟨.rra, .absolute, ⟨.rra, .absolute⟩, 6⟩]

private def row7 : Vector Instruction 16 := #v[
  ⟨.bvs, .relative, ⟨.bvs, .relative⟩, 2⟩, ⟨.adc, .indirectIndexed, ⟨.adc, .indirectIndexed⟩, 5⟩,
  jam, ⟨.rra, .indirectIndexed, ⟨.rra, .indirectIndexed⟩, 8⟩,
  ⟨.nop, .zeroPageX, ⟨.nop, .zeroPageX⟩, 4⟩, ⟨.adc, .zeroPageX, ⟨.adc, .zeroPageX⟩, 4⟩,
  ⟨.ror, .zeroPageX, ⟨.ror, .zeroPageX⟩, 6⟩, ⟨.rra, .zeroPageX, ⟨.rra, .zeroPageX⟩, 6⟩,
  ⟨.sei, .implied, ⟨.sei, .implied⟩, 2⟩, ⟨.adc, .absoluteY, ⟨.adc, .absoluteY⟩, 4⟩,
  ⟨.nop, .implied, ⟨.nop, .implied⟩, 2⟩, ⟨.rra, .absoluteY, ⟨.rra, .absoluteY⟩, 7⟩,
  ⟨.nop, .absoluteX, ⟨.nop, .absoluteX⟩, 4⟩, ⟨.adc, .absoluteX, ⟨.adc, .absoluteX⟩, 4⟩,
  ⟨.ror, .absoluteX, ⟨.ror, .absoluteX⟩, 7⟩, ⟨.rra, .absoluteX, ⟨.rra, .absoluteX⟩, 7⟩]

private def row8 : Vector Instruction 16 := #v[
  ⟨.nop, .immediate, ⟨.nop, .immediate⟩, 2⟩, ⟨.sta, .indexedIndirect, ⟨.sta, .indexedIndirect⟩, 6⟩,
  ⟨.nop, .immediate, ⟨.nop, .immediate⟩, 2⟩, ⟨.sax, .indexedIndirect, ⟨.sax, .indexedIndirect⟩, 6⟩,
  ⟨.sty, .zeroPage, ⟨.sty, .zeroPage⟩, 3⟩, ⟨.sta, .zeroPage, ⟨.sta, .zeroPage⟩, 3⟩,
  ⟨.stx, .zeroPage, ⟨.stx, .zeroPage⟩, 3⟩, ⟨.sax, .zeroPage, ⟨.sax, .zeroPage⟩, 3⟩,
  ⟨.dey, .implied, ⟨.dey, .implied⟩, 2⟩, ⟨.nop, .immediate, ⟨.nop, .immediate⟩, 2⟩,
  ⟨.txa, .implied, ⟨.txa, .implied⟩, 2⟩, ⟨.xaa, .immediate, ⟨.xaa, .immediate⟩, 2⟩,
  ⟨.sty, .absolute, ⟨.sty, .absolute⟩, 4⟩, ⟨.sta, .absolute, ⟨.sta, .absolute⟩, 4⟩,
  ⟨.stx, .absolute, ⟨.stx, .absolute⟩, 4⟩, ⟨.sax, .absolute, ⟨.sax, .absolute⟩, 4⟩]

private def row9 : Vector Instruction 16 := #v[
  ⟨.bcc, .relative, ⟨.bcc, .relative⟩, 2⟩, ⟨.sta, .indirectIndexed, ⟨.sta, .indirectIndexed⟩, 6⟩,
  jam, ⟨.sha, .indirectIndexed, ⟨.sha, .indirectIndexed⟩, 6⟩,
  ⟨.sty, .zeroPageX, ⟨.sty, .zeroPageX⟩, 4⟩, ⟨.sta, .zeroPageX, ⟨.sta, .zeroPageX⟩, 4⟩,
  ⟨.stx, .zeroPageY, ⟨.stx, .zeroPageY⟩, 4⟩, ⟨.sax, .zeroPageY, ⟨.sax, .zeroPageY⟩, 4⟩,
  ⟨.tya, .implied, ⟨.tya, .implied⟩, 2⟩, ⟨.sta, .absoluteY, ⟨.sta, .absoluteY⟩, 5⟩,
  ⟨.txs, .implied, ⟨.txs, .implied⟩, 2⟩, ⟨.tas, .absoluteY, ⟨.tas, .absoluteY⟩, 5⟩,
  ⟨.shy, .absoluteX, ⟨.shy, .absoluteX⟩, 5⟩, ⟨.sta, .absoluteX, ⟨.sta, .absoluteX⟩, 5⟩,
  ⟨.shx, .absoluteY, ⟨.shx, .absoluteY⟩, 5⟩, ⟨.sha, .absoluteY, ⟨.sha, .absoluteY⟩, 5⟩]

private def rowa : Vector Instruction 16 := #v[
  ⟨.ldy, .immediate, ⟨.ldy, .immediate⟩, 2⟩, ⟨.lda, .indexedIndirect, ⟨.lda, .indexedIndirect⟩, 6⟩,
  ⟨.ldx, .immediate, ⟨.ldx, .immediate⟩, 2⟩, ⟨.lax, .indexedIndirect, ⟨.lax, .indexedIndirect⟩, 6⟩,
  ⟨.ldy, .zeroPage, ⟨.ldy, .zeroPage⟩, 3⟩, ⟨.lda, .zeroPage, ⟨.lda, .zeroPage⟩, 3⟩,
  ⟨.ldx, .zeroPage, ⟨.ldx, .zeroPage⟩, 3⟩, ⟨.lax, .zeroPage, ⟨.lax, .zeroPage⟩, 3⟩,
  ⟨.tay, .implied, ⟨.tay, .implied⟩, 2⟩, ⟨.lda, .immediate, ⟨.lda, .immediate⟩, 2⟩,
  ⟨.tax, .implied, ⟨.tax, .implied⟩, 2⟩, ⟨.lxa, .immediate, ⟨.lxa, .immediate⟩, 2⟩,
  ⟨.ldy, .absolute, ⟨.ldy, .absolute⟩, 4⟩, ⟨.lda, .absolute, ⟨.lda, .absolute⟩, 4⟩,
  ⟨.ldx, .absolute, ⟨.ldx, .absolute⟩, 4⟩, ⟨.lax, .absolute, ⟨.lax, .absolute⟩, 4⟩]

private def rowb : Vector Instruction 16 := #v[
  ⟨.bcs, .relative, ⟨.bcs, .relative⟩, 2⟩, ⟨.lda, .indirectIndexed, ⟨.lda, .indirectIndexed⟩, 5⟩,
  jam, ⟨.lax, .indirectIndexed, ⟨.lax, .indirectIndexed⟩, 5⟩,
  ⟨.ldy, .zeroPageX, ⟨.ldy, .zeroPageX⟩, 4⟩, ⟨.lda, .zeroPageX, ⟨.lda, .zeroPageX⟩, 4⟩,
  ⟨.ldx, .zeroPageY, ⟨.ldx, .zeroPageY⟩, 4⟩, ⟨.lax, .zeroPageY, ⟨.lax, .zeroPageY⟩, 4⟩,
  ⟨.clv, .implied, ⟨.clv, .implied⟩, 2⟩, ⟨.lda, .absoluteY, ⟨.lda, .absoluteY⟩, 4⟩,
  ⟨.tsx, .implied, ⟨.tsx, .implied⟩, 2⟩, ⟨.las, .absoluteY, ⟨.las, .absoluteY⟩, 4⟩,
  ⟨.ldy, .absoluteX, ⟨.ldy, .absoluteX⟩, 4⟩, ⟨.lda, .absoluteX, ⟨.lda, .absoluteX⟩, 4⟩,
  ⟨.ldx, .absoluteY, ⟨.ldx, .absoluteY⟩, 4⟩, ⟨.lax, .absoluteY, ⟨.lax, .absoluteY⟩, 4⟩]

private def rowc : Vector Instruction 16 := #v[
  ⟨.cpy, .immediate, ⟨.cpy, .immediate⟩, 2⟩, ⟨.cmp, .indexedIndirect, ⟨.cmp, .indexedIndirect⟩, 6⟩,
  ⟨.nop, .immediate, ⟨.nop, .immediate⟩, 2⟩, ⟨.dcp, .indexedIndirect, ⟨.dcp, .indexedIndirect⟩, 8⟩,
  ⟨.cpy, .zeroPage, ⟨.cpy, .zeroPage⟩, 3⟩, ⟨.cmp, .zeroPage, ⟨.cmp, .zeroPage⟩, 3⟩,
  ⟨.dec, .zeroPage, ⟨.dec, .zeroPage⟩, 5⟩, ⟨.dcp, .zeroPage, ⟨.dcp, .zeroPage⟩, 5⟩,
  ⟨.iny, .implied, ⟨.iny, .implied⟩, 2⟩, ⟨.cmp, .immediate, ⟨.cmp, .immediate⟩, 2⟩,
  ⟨.dex, .implied, ⟨.dex, .implied⟩, 2⟩, ⟨.axs, .immediate, ⟨.axs, .immediate⟩, 2⟩,
  ⟨.cpy, .absolute, ⟨.cpy, .absolute⟩, 4⟩, ⟨.cmp, .absolute, ⟨.cmp, .absolute⟩, 4⟩,
  ⟨.dec, .absolute, ⟨.dec, .absolute⟩, 6⟩, ⟨.dcp, .absolute, ⟨.dcp, .absolute⟩, 6⟩]

private def rowd : Vector Instruction 16 := #v[
  ⟨.bne, .relative, ⟨.bne, .relative⟩, 2⟩, ⟨.cmp, .indirectIndexed, ⟨.cmp, .indirectIndexed⟩, 5⟩,
  jam, ⟨.dcp, .indirectIndexed, ⟨.dcp, .indirectIndexed⟩, 8⟩,
  ⟨.nop, .zeroPageX, ⟨.nop, .zeroPageX⟩, 4⟩, ⟨.cmp, .zeroPageX, ⟨.cmp, .zeroPageX⟩, 4⟩,
  ⟨.dec, .zeroPageX, ⟨.dec, .zeroPageX⟩, 6⟩, ⟨.dcp, .zeroPageX, ⟨.dcp, .zeroPageX⟩, 6⟩,
  ⟨.cld, .implied, ⟨.cld, .implied⟩, 2⟩, ⟨.cmp, .absoluteY, ⟨.cmp, .absoluteY⟩, 4⟩,
  ⟨.nop, .implied, ⟨.nop, .implied⟩, 2⟩, ⟨.dcp, .absoluteY, ⟨.dcp, .absoluteY⟩, 7⟩,
  ⟨.nop, .absoluteX, ⟨.nop, .absoluteX⟩, 4⟩, ⟨.cmp, .absoluteX, ⟨.cmp, .absoluteX⟩, 4⟩,
  ⟨.dec, .absoluteX, ⟨.dec, .absoluteX⟩, 7⟩, ⟨.dcp, .absoluteX, ⟨.dcp, .absoluteX⟩, 7⟩]

private def rowe : Vector Instruction 16 := #v[
  ⟨.cpx, .immediate, ⟨.cpx, .immediate⟩, 2⟩, ⟨.sbc, .indexedIndirect, ⟨.sbc, .indexedIndirect⟩, 6⟩,
  ⟨.nop, .immediate, ⟨.nop, .immediate⟩, 2⟩, ⟨.isb, .indexedIndirect, ⟨.isb, .indexedIndirect⟩, 8⟩,
  ⟨.cpx, .zeroPage, ⟨.cpx, .zeroPage⟩, 3⟩, ⟨.sbc, .zeroPage, ⟨.sbc, .zeroPage⟩, 3⟩,
  ⟨.inc, .zeroPage, ⟨.inc, .zeroPage⟩, 5⟩, ⟨.isb, .zeroPage, ⟨.isb, .zeroPage⟩, 5⟩,
  ⟨.inx, .implied, ⟨.inx, .implied⟩, 2⟩, ⟨.sbc, .immediate, ⟨.sbc, .immediate⟩, 2⟩,
  ⟨.nop, .implied, ⟨.nop, .implied⟩, 2⟩, ⟨.sbc, .immediate, ⟨.sbc, .immediate⟩, 2⟩,
  ⟨.cpx, .absolute, ⟨.cpx, .absolute⟩, 4⟩, ⟨.sbc, .absolute, ⟨.sbc, .absolute⟩, 4⟩,
  ⟨.inc, .absolute, ⟨.inc, .absolute⟩, 6⟩, ⟨.isb, .absolute, ⟨.isb, .absolute⟩, 6⟩]

private def rowf : Vector Instruction 16 := #v[
  ⟨.beq, .relative, ⟨.beq, .relative⟩, 2⟩, ⟨.sbc, .indirectIndexed, ⟨.sbc, .indirectIndexed⟩, 5⟩,
  jam, ⟨.isb, .indirectIndexed, ⟨.isb, .indirectIndexed⟩, 8⟩,
  ⟨.nop, .zeroPageX, ⟨.nop, .zeroPageX⟩, 4⟩, ⟨.sbc, .zeroPageX, ⟨.sbc, .zeroPageX⟩, 4⟩,
  ⟨.inc, .zeroPageX, ⟨.inc, .zeroPageX⟩, 6⟩, ⟨.isb, .zeroPageX, ⟨.isb, .zeroPageX⟩, 6⟩,
  ⟨.sed, .implied, ⟨.sed, .implied⟩, 2⟩, ⟨.sbc, .absoluteY, ⟨.sbc, .absoluteY⟩, 4⟩,
  ⟨.nop, .implied, ⟨.nop, .implied⟩, 2⟩, ⟨.isb, .absoluteY, ⟨.isb, .absoluteY⟩, 7⟩,
  ⟨.nop, .absoluteX, ⟨.nop, .absoluteX⟩, 4⟩, ⟨.sbc, .absoluteX, ⟨.sbc, .absoluteX⟩, 4⟩,
  ⟨.inc, .absoluteX, ⟨.inc, .absoluteX⟩, 7⟩, ⟨.isb, .absoluteX, ⟨.isb, .absoluteX⟩, 7⟩]

/-- The rows of the table, by the high digit of the opcode. -/
def table : Vector (Vector Instruction 16) 16 := #v[
  row0, row1, row2, row3, row4, row5, row6, row7, row8, row9, rowa, rowb, rowc, rowd, rowe, rowf]

def ofOpcode (opcode : UInt8) : Instruction :=
  (table.get ⟨opcode.toNat / 16, by have := opcode.toNat_lt; omega⟩).get
    ⟨opcode.toNat % 16, by omega⟩

/-- An instruction runs unless it locks up the processor. -/
def isValid (instruction : Instruction) : Bool := instruction.mnemonic != .jam

/-- The number of bytes from the opcode to the end of the operand. -/
def length (instruction : Instruction) : Nat := 1 + instruction.mode.operandSize

end Instruction

end EightBit
