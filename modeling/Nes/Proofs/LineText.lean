import Mathlib.Data.List.Nodup
import Mathlib.Data.List.TakeWhile
import Nes.Listing
import Nes.Memory.Flat
import Nes.Proofs.Exchange

/-!
# What the text of a line tells

The text of a line is put together from parts. All but one of them have a fixed length, so the text falls apart into them
again (`Line.parts_of_text`); the operand, whose length differs, ends in the tag of its mode, and this is read from the
right (`Line.mode_of_operand`). Each part tells what it was made of:

* hexadecimal digits tell the byte or the address (`Byte.hex_inj`, `Addr.hex_inj`),
* a mnemonic and a mode tell a documented opcode (`Instruction.opcode_of_form`),
* the operand tells the operand bytes, once the mode is known (`Line.operandBytes_of_body`).

Hence nothing of a documented instruction is lost in its text (`Line.text_lossless`).
-/

namespace Nes

/-! ## Text put together -/

theorem append_text_inj {a b c d : String} (h : a ++ b = c ++ d) (hlength : a.length = c.length) : a = c ∧ b = d := by
  have hlist : a.toList ++ b.toList = c.toList ++ d.toList := by
    rw [← String.toList_append, ← String.toList_append, h]
  obtain ⟨hleft, hright⟩ := List.append_inj hlist (by rwa [String.length_toList, String.length_toList])
  exact ⟨String.toList_inj.mp hleft, String.toList_inj.mp hright⟩

theorem append_text_inj' {a b c d : String} (h : a ++ b = c ++ d) (hlength : b.length = d.length) : a = c ∧ b = d := by
  apply append_text_inj h
  have hboth := congrArg String.length h
  rw [String.length_append, String.length_append] at hboth
  omega

theorem text_between_inj {first last a b : String} (h : first ++ a ++ last = first ++ b ++ last) : a = b :=
  (append_text_inj (append_text_inj' h rfl).1 rfl).2

/-- Without the run of one character at its front, a text that is free of it otherwise. -/
theorem dropWhile_replicate_append {c : Char} (n : Nat) {cs : List Char} (h : c ∉ cs) :
    (List.replicate n c ++ cs).dropWhile (· = c) = cs := by
  rw [List.dropWhile_append_of_pos fun d hd => decide_eq_true (List.eq_of_mem_replicate hd), List.dropWhile_eq_self_iff]
  intro hpos hfirst
  exact h (of_decide_eq_true hfirst ▸ List.getElem_mem hpos)

/-! ## Digits -/

theorem hexDigit_inj : ∀ {a b : BitVec 4}, hexDigit a = hexDigit b → a = b := by
  decide

theorem Byte.append_nibbles : ∀ b : Byte, (b.highNibble ++ b.lowNibble : BitVec 8) = b := by
  decide +kernel

theorem Byte.hex_inj {a b : Byte} (h : a.hex = b.hex) : a = b := by
  have hdigits := String.ofList_injective h
  simp only [List.cons.injEq, and_true] at hdigits
  rw [← a.append_nibbles, ← b.append_nibbles, hexDigit_inj hdigits.1, hexDigit_inj hdigits.2]

theorem Addr.hex_inj {a b : Addr} (h : a.hex = b.hex) : a = b := by
  obtain ⟨hhigh, hlow⟩ := append_text_inj h (by rw [Byte.length_hex, Byte.length_hex])
  rw [← a.ofBytes_low_high, ← b.ofBytes_low_high, Byte.hex_inj hhigh, Byte.hex_inj hlow]

/-! ## Names -/

/-- Every operation. -/
def Operation.all : List Operation := (List.range 57).map .ofNat

theorem Operation.mem_all (op : Operation) : op ∈ all := by
  cases op <;> decide

theorem Operation.nodup_names : (all.map name).Nodup := by
  decide +kernel

theorem Operation.name_inj {op op' : Operation} (h : op.name = op'.name) : op = op' :=
  List.inj_on_of_nodup_map nodup_names op.mem_all op'.mem_all h

theorem Operation.length_name (op : Operation) : op.name.length = 3 := by
  cases op <;> rfl

theorem Mode.mem_all (mode : Mode) : mode ∈ all := by
  cases mode <;> decide

theorem Mode.nodup_tags : (all.map tag).Nodup := by
  decide

theorem Mode.tag_inj {mode mode' : Mode} (h : mode.tag = mode'.tag) : mode = mode' :=
  List.inj_on_of_nodup_map nodup_tags mode.mem_all mode'.mem_all h

theorem Mode.length_tag (mode : Mode) : mode.tag.length = 3 := by
  cases mode <;> rfl

namespace Instruction

theorem length_mnemonic (i : Instruction) : i.mnemonic.length = 3 := by
  unfold mnemonic
  split
  · exact i.operation.length_name
  · rfl

/-- A number for the operation and the mode. -/
def form (i : Instruction) : Nat := 16 * i.operation.ctorIdx + i.mode.ctorIdx

/-- The opcodes that programs may rely on. -/
def documentedOpcodes : List Byte :=
  ((List.range 256).map (BitVec.ofNat 8)).filter fun opcode => (ofOpcode opcode).documented

theorem mem_documentedOpcodes {opcode : Byte} (h : (ofOpcode opcode).documented = true) :
    opcode ∈ documentedOpcodes :=
  List.mem_filter.mpr ⟨opcode.mem_map_range, h⟩

/-- No two rows of the opcode table are for the same thing. -/
theorem nodup_forms : (documentedOpcodes.map fun opcode => (ofOpcode opcode).form).Nodup := by
  decide +kernel

/-- The mnemonic and the mode tell the opcode. -/
theorem opcode_of_form {opcode opcode' : Byte} (hdoc : (ofOpcode opcode).documented = true)
    (hdoc' : (ofOpcode opcode').documented = true) (hmnemonic : (ofOpcode opcode).mnemonic = (ofOpcode opcode').mnemonic)
    (hmode : (ofOpcode opcode).mode = (ofOpcode opcode').mode) : opcode = opcode' := by
  rw [mnemonic, mnemonic, if_pos hdoc, if_pos hdoc'] at hmnemonic
  apply List.inj_on_of_nodup_map nodup_forms (mem_documentedOpcodes hdoc) (mem_documentedOpcodes hdoc')
  rw [form, form, Operation.name_inj hmnemonic, hmode]

end Instruction

/-! ## Lines -/

namespace Line

variable {l l' : Line}

/-- The bytes after the opcode that belong to the line. -/
def operandBytes (l : Line) : List Byte := [l.first, l.second].take l.instruction.mode.operandLength

/-- The text falls apart into the address, the mnemonic and the operand. -/
theorem parts_of_text (h : l.text = l'.text) :
    l.address = l'.address ∧ l.instruction.mnemonic = l'.instruction.mnemonic ∧ l.operand = l'.operand := by
  have hmnemonics : l.instruction.mnemonic.length = l'.instruction.mnemonic.length := by
    rw [Instruction.length_mnemonic, Instruction.length_mnemonic]
  have hheads : (l.head ++ " ").length = (l'.head ++ " ").length := by
    simp only [head, String.length_append, Addr.length_hex, hmnemonics]
  obtain ⟨hleft, hoperand⟩ := append_text_inj h hheads
  obtain ⟨hhead, -⟩ := append_text_inj' hleft rfl
  obtain ⟨hplace, hmnemonic⟩ := append_text_inj' hhead hmnemonics
  obtain ⟨hdollar, -⟩ := append_text_inj' hplace rfl
  obtain ⟨-, haddress⟩ := append_text_inj hdollar rfl
  exact ⟨Addr.hex_inj haddress, hmnemonic, hoperand⟩

/-- What stands before the tag. -/
def lead (l : Line) : String := if l.instruction.mode = .implied then "" else l.body ++ " "

theorem operand_eq (l : Line) : l.operand = l.lead ++ ("\x7b" ++ l.instruction.mode.tag ++ "\x7d") := by
  unfold operand lead
  split
  · rw [String.empty_append]
  · rfl

/-- The tag, at the right end, tells the mode; the rest is the operand in assembly notation. -/
theorem mode_of_operand (h : l.operand = l'.operand) :
    l.instruction.mode = l'.instruction.mode ∧ l.body = l'.body := by
  rw [operand_eq, operand_eq] at h
  obtain ⟨hlead, htag⟩ := append_text_inj' h (by simp only [String.length_append, Mode.length_tag])
  obtain ⟨htag, -⟩ := append_text_inj' htag rfl
  have hmode := Mode.tag_inj (append_text_inj htag rfl).2
  refine ⟨hmode, ?_⟩
  unfold lead at hlead
  rw [hmode] at hlead
  by_cases himplied : l'.instruction.mode = .implied
  · rw [body, body, hmode, himplied]
  · rw [if_neg himplied, if_neg himplied] at hlead
    exact (append_text_inj' hlead rfl).1

/-- A word that is shown tells its two bytes. -/
theorem bytes_of_word (h : l.word.hex = l'.word.hex) : [l.first, l.second] = [l'.first, l'.second] := by
  have hword := Addr.hex_inj h
  have hfirst := congrArg Addr.low hword
  have hsecond := congrArg Addr.high hword
  simp only [word, Addr.low_ofBytes, Addr.high_ofBytes] at hfirst hsecond
  rw [hfirst, hsecond]

/-- In a given mode the operand tells the operand bytes. -/
theorem operandBytes_of_body (hmode : l.instruction.mode = l'.instruction.mode) (h : l.body = l'.body) :
    l.operandBytes = l'.operandBytes := by
  have hone (hfirst : l.first.hex = l'.first.hex) : [l.first] = [l'.first] :=
    congrArg (fun b => [b]) (Byte.hex_inj hfirst)
  unfold body at h
  unfold operandBytes
  rw [hmode] at h ⊢
  cases hmode' : l'.instruction.mode <;> rw [hmode'] at h
  case implied => rfl
  case immediate | zeroPage => exact hone (append_text_inj h rfl).2
  case zeroPageX | zeroPageY | indexedIndirect | indirectIndexed => exact hone (text_between_inj h)
  case relative =>
    obtain ⟨hshown, -⟩ := append_text_inj' h rfl
    obtain ⟨hdistance, -⟩ := append_text_inj' hshown (by rw [Addr.length_hex, Addr.length_hex])
    exact hone (text_between_inj hdistance)
  case absolute => exact bytes_of_word (append_text_inj h rfl).2
  case absoluteX | absoluteY | indirect => exact bytes_of_word (text_between_inj h)

/-- Decoding looks at three bytes. -/
theorem traffic_decode {β : Type} [Bus β] (bus : β) (address : Addr) :
    let line := ((decode address).run bus).1
    (decode address).traffic bus =
      [.read .view address line.opcode, .read .view (address + 1) line.first,
        .read .view (address + 2) line.second] := rfl

/-- The accesses that belong to a line, if it was decoded. -/
theorem take_traffic_decode {β : Type} [Bus β] (bus : β) (address : Addr) :
    let line := ((decode address).run bus).1
    ((decode address).traffic bus).take line.length = .read .view address line.opcode ::
      List.zipWith (.read .view) [address + 1, address + 2] line.operandBytes := by
  intro line
  rw [traffic_decode, length, Instruction.length, operandBytes, Nat.add_comm, List.take_succ_cons]
  cases line.instruction.mode <;> rfl

/-- **The text of a documented instruction is lossless.** Two lines are decoded, each at an address of its own and on a bus
of its own. If both opcodes are documented and the texts are equal, then the addresses, the opcodes and the operand bytes
are equal: the bytes that belong to the lines were found in the same places, and were the same. -/
theorem text_lossless {β β' : Type} [Bus β] [Bus β'] (bus : β) (bus' : β') (a a' : Addr) :
    let line := ((decode a).run bus).1
    let line' := ((decode a').run bus').1
    line.instruction.documented = true → line'.instruction.documented = true → line.text = line'.text →
      line.address = line'.address ∧ line.opcode = line'.opcode ∧ line.operandBytes = line'.operandBytes ∧
      ((decode a).traffic bus).take line.length = ((decode a').traffic bus').take line'.length := by
  intro line line' hdoc hdoc' htext
  obtain ⟨haddress, hmnemonic, hoperand⟩ := parts_of_text htext
  obtain ⟨hmode, hbody⟩ := mode_of_operand hoperand
  have hopcode : line.opcode = line'.opcode := Instruction.opcode_of_form hdoc hdoc' hmnemonic hmode
  have hbytes : line.operandBytes = line'.operandBytes := operandBytes_of_body hmode hbody
  have hplace : a = a' := haddress
  have htaken : ((decode a).traffic bus).take line.length = .read .view a line.opcode ::
      List.zipWith (.read .view) [a + 1, a + 2] line.operandBytes := take_traffic_decode bus a
  refine ⟨haddress, hopcode, hbytes, ?_⟩
  rw [htaken, hopcode, hbytes, hplace]
  exact (take_traffic_decode bus' a').symm

/-- Opcodes that are not documented show no name, so that their texts can be the same. -/
example : (Line.mk 0x8000 0x02 0x00 0x00).text = (Line.mk 0x8000 0x12 0x00 0x00).text := by decide

/-- An instruction of two bytes that begins on the last address, in some memory. -/
def sampleLoad (m : FlatMemory) : FlatMemory := m.load 0xFFFF [0xA9, 0x42]

theorem run_decode_sampleLoad (m : FlatMemory) :
    ((decode 0xFFFF).run (sampleLoad m)).1 = ⟨0xFFFF, 0xA9, 0x42, m.peek 0x0001⟩ := by
  have hopcode : (sampleLoad m).peek 0xFFFF = 0xA9 := by simp [sampleLoad, FlatMemory.peek_poke]
  have hfirst : (sampleLoad m).peek (0xFFFF + 1) = 0x42 := by simp [sampleLoad, FlatMemory.peek_poke]
  have hsecond : (sampleLoad m).peek (0xFFFF + 2) = m.peek 0x0001 := by simp [sampleLoad, FlatMemory.peek_poke]
  have hline (n : FlatMemory) (a : Addr) :
      ((decode a).run n).1 = ⟨a, n.peek a, n.peek (a + 1), n.peek (a + 2)⟩ := rfl
  rw [hline, hopcode, hfirst, hsecond]

theorem text_lossless_sample :
    let line := ((decode 0xFFFF).run (sampleLoad .zero)).1
    let line' := ((decode 0xFFFF).run (sampleLoad (.filled 0xEA))).1
    line ≠ line' ∧ line.text = line'.text ∧ line.operandBytes = line'.operandBytes := by
  intro line line'
  have hline : line = ⟨0xFFFF, 0xA9, 0x42, 0x00⟩ := by
    rw [← FlatMemory.peek_filled 0x00 0x0001]
    exact run_decode_sampleLoad .zero
  have hline' : line' = ⟨0xFFFF, 0xA9, 0x42, 0xEA⟩ := by
    rw [← FlatMemory.peek_filled 0xEA 0x0001]
    exact run_decode_sampleLoad (.filled 0xEA)
  have htext : line.text = line'.text := by
    rw [hline, hline']
    decide
  have hdoc : line.instruction.documented = true := by
    rw [hline]
    rfl
  have hdoc' : line'.instruction.documented = true := by
    rw [hline']
    rfl
  have hne : line ≠ line' := by
    rw [hline, hline']
    decide
  exact ⟨hne, htext, (text_lossless (sampleLoad .zero) (sampleLoad (.filled 0xEA)) 0xFFFF 0xFFFF hdoc hdoc' htext).2.2.1⟩

end Line

end Nes
