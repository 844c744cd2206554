import Nes.Processor.Journal
import Nes.Proofs.LineText

/-!
# What a journal line tells

A journal line is a clock and, behind it, fields of fixed length with a label before each. The clock's column grows with
the clock, so the fields have no fixed places seen from the left; they have seen from the right, and the line is taken
apart from there (`labelled_text_inj`). What is left is the clock, in blanks that belong to no number
(`clock_of_column`), and the fields tell

* a byte or an address by its digits, as in a listing,
* the status byte by its letters (`Flag.text_inj`).

Hence a line tells the whole entry (`JournalEntry.recovered_from_text`).
-/

namespace Nes

/-! ## The clock -/

theorem decimal_inj {n n' : Nat} (h : decimal n = decimal n') : n = n' := by
  have hdigits : Nat.toDigits 10 n = Nat.toDigits 10 n' := String.ofList_injective h
  calc
    n = Nat.ofDigitChars 10 (Nat.toDigits 10 n) 0 := Nat.ofDigitChars_ten_toDigits.symm
    _ = Nat.ofDigitChars 10 (Nat.toDigits 10 n') 0 := by rw [hdigits]
    _ = n' := Nat.ofDigitChars_ten_toDigits

theorem blank_not_mem_decimal (n : Nat) : ' ' ∉ (decimal n).toList := by
  intro hmem
  rw [decimal, String.toList_ofList] at hmem
  have hdigit := Nat.isDigit_of_mem_toDigits (by decide) (by decide) hmem
  exact absurd hdigit (by decide)

/-- Text that holds no blank is what is left of its column without the blanks. -/
theorem dropWhile_alignRight (width : Nat) {text : String} (h : ' ' ∉ text.toList) :
    (alignRight width text).toList.dropWhile (· = ' ') = text.toList := by
  rw [alignRight, String.toList_append, blanks, String.toList_ofList, dropWhile_replicate_append _ h]

/-- A number is known from its column, whether it fits in there or not. -/
theorem clock_of_column {width n n' : Nat} (h : alignRight width (decimal n) = alignRight width (decimal n')) :
    n = n' := by
  apply decimal_inj
  apply String.toList_inj.mp
  rw [← dropWhile_alignRight width (blank_not_mem_decimal n), h, dropWhile_alignRight width (blank_not_mem_decimal n')]

/-! ## The flags -/

namespace Flag

/-- The status byte with the flags that are on. -/
def union (on : Byte → Bool) : Byte := ((letters.map Prod.fst).filter on).foldl (· ||| ·) 0

/-- A status byte is made of its flags. -/
theorem union_meets : ∀ status : Byte, union status.meets = status := by
  decide +kernel

theorem letter_ne_dot : ∀ flag ∈ letters, flag.2 ≠ '.' := by
  decide

/-- A letter in one text is not a dot in the other. -/
theorem on_of_shown {letter : Char} (hdot : letter ≠ '.') {on on' : Bool}
    (h : (if on then letter else '.') = if on' then letter else '.') : on = on' := by
  cases on <;> cases on'
  · rfl
  · exact absurd h.symm hdot
  · exact absurd h hdot
  · rfl

theorem length_text (status : Byte) : (text status).length = 8 := by
  rw [text, String.length_ofList, List.length_map]
  rfl

theorem text_inj {status status' : Byte} (h : text status = text status') : status = status' := by
  have hletters := List.map_inj_left.mp (String.ofList_injective h)
  have hsame : ∀ mask ∈ letters.map Prod.fst, status.meets mask = status'.meets mask := by
    intro mask hmask
    obtain ⟨flag, hflag, rfl⟩ := List.mem_map.mp hmask
    exact on_of_shown (letter_ne_dot flag hflag) (hletters flag hflag)
  rw [← union_meets status, ← union_meets status', union, union, List.filter_congr hsame]

end Flag

/-! ## The line -/

/-- A field of known length is told apart from what stands before its label. -/
theorem labelled_text_inj {a b label field field' : String} (h : a ++ label ++ field = b ++ label ++ field')
    (hlength : field.length = field'.length) : a = b ∧ field = field' := by
  obtain ⟨hleft, hfield⟩ := append_text_inj' h hlength
  exact ⟨(append_text_inj' hleft rfl).1, hfield⟩

namespace JournalEntry

theorem length_hex_eq (b b' : Byte) : b.hex.length = b'.hex.length := by
  rw [b.length_hex, b'.length_hex]

/-- The mnemonic of an opcode fills its column. -/
theorem mnemonic_column {e : JournalEntry} (hname : e.mnemonic = (Instruction.ofOpcode e.opcode).mnemonic) :
    alignLeft 3 e.mnemonic = e.mnemonic ∧ e.mnemonic.length = 3 := by
  have hlength : e.mnemonic.length = 3 := by rw [hname, Instruction.length_mnemonic]
  exact ⟨alignLeft_of_le (Nat.le_of_eq hlength.symm), hlength⟩

/-- **A journal line is lossless.** Two entries have the mnemonics of their opcodes, and any clocks, addresses and
registers. If their lines are equal then so are the entries. -/
theorem recovered_from_text (e e' : JournalEntry) (hname : e.mnemonic = (Instruction.ofOpcode e.opcode).mnemonic)
    (hname' : e'.mnemonic = (Instruction.ofOpcode e'.opcode).mnemonic) (h : e.text = e'.text) :
    e.clock = e'.clock ∧ e.pc = e'.pc ∧ e.opcode = e'.opcode ∧ e.mnemonic = e'.mnemonic ∧ e.a = e'.a ∧ e.x = e'.x ∧
      e.y = e'.y ∧ e.sp = e'.sp ∧ e.status = e'.status := by
  obtain ⟨hcolumn, hlength⟩ := mnemonic_column hname
  obtain ⟨hcolumn', hlength'⟩ := mnemonic_column hname'
  have hpcs : e.pc.hex.length = e'.pc.hex.length := by rw [Addr.length_hex, Addr.length_hex]
  have hflags : (Flag.text e.status).length = (Flag.text e'.status).length := by
    rw [Flag.length_text, Flag.length_text]
  -- the line is taken apart from the right
  unfold text at h
  rw [hcolumn, hcolumn'] at h
  obtain ⟨h, hsp⟩ := labelled_text_inj h (length_hex_eq _ _)
  obtain ⟨h, hstatus⟩ := labelled_text_inj h hflags
  obtain ⟨h, hy⟩ := labelled_text_inj h (length_hex_eq _ _)
  obtain ⟨h, hx⟩ := labelled_text_inj h (length_hex_eq _ _)
  obtain ⟨h, ha⟩ := labelled_text_inj h (length_hex_eq _ _)
  obtain ⟨h, hmnemonic⟩ := labelled_text_inj h (hlength.trans hlength'.symm)
  obtain ⟨h, hopcode⟩ := labelled_text_inj h (length_hex_eq _ _)
  obtain ⟨hclock, hpc⟩ := labelled_text_inj h hpcs
  exact ⟨clock_of_column hclock, Addr.hex_inj hpc, Byte.hex_inj hopcode, hmnemonic, Byte.hex_inj ha, Byte.hex_inj hx,
    Byte.hex_inj hy, Byte.hex_inj hsp, Flag.text_inj hstatus⟩

/-- An entry whose clock is too long for its column. -/
def sampleEntry : JournalEntry :=
  .ofRegisters 18446744073709551615 0xFFFF 0xA9 "LDA" { a := 0x80, sp := 0xFD, pc := 0x0001, status := 0xA5 }

theorem recovered_from_text_sample :
    let e : JournalEntry := ⟨18446744073709551615, 0xFFFF, 0xA9, "LDA", 0x80, 0x00, 0x00, 0xFD, 0xA5⟩
    sampleEntry.text = "18446744073709551615  PC:FFFF A9 LDA  A:80 X:00 Y:00 N.U..I.C SP:FD" ∧
      e.text = sampleEntry.text ∧ e.clock = sampleEntry.clock ∧ e.status = sampleEntry.status := by
  intro e
  have hline : sampleEntry.text = "18446744073709551615  PC:FFFF A9 LDA  A:80 X:00 Y:00 N.U..I.C SP:FD" := by
    decide +kernel
  have hsame : e.text = sampleEntry.text := rfl
  have hname : "LDA" = (Instruction.ofOpcode 0xA9).mnemonic := by decide
  obtain ⟨hclock, -, -, -, -, -, -, -, hstatus⟩ := recovered_from_text e sampleEntry hname hname hsame
  exact ⟨hline, hsame, hclock, hstatus⟩

end JournalEntry

end Nes
