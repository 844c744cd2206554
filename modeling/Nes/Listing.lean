import Nes.Transaction
import Nes.Processor.OpcodeTable
import Nes.Text.Decimal
import Nes.Text.Hex

/-!
# Listings

A listing shows a range of memory as instructions, one line each. It only views memory, so it disturbs nothing.

* `Line.decode` reads the line at an address; operand bytes go on past the last address from the first.
* `Listing.ofRange` reads lines one after the other, from the first address of a range until the next line would begin
  behind its last address. A line that begins inside the range is read whole.
-/

namespace Nes

/-! ## Lines -/

/-- The instruction at an address, with the two bytes after its opcode. -/
structure Line where
  address : Addr
  opcode : Byte
  first : Byte
  second : Byte
  deriving DecidableEq

namespace Line

/-- What the opcode stands for. -/
def instruction (l : Line) : Instruction := .ofOpcode l.opcode

/-- The number of bytes that belong to the line. -/
def length (l : Line) : Nat := l.instruction.length

theorem length_pos (l : Line) : 0 < l.length := l.instruction.length_pos

/-- The operand bytes as a word. -/
def word (l : Line) : Addr := .ofBytes l.first l.second

/-- Where the line's branch goes, if it is one. -/
def branchTarget (l : Line) : Addr := l.address + 2 + l.first.signExtend 16

/-- The operand in assembly notation; a branch shows its distance and its target. -/
def body (l : Line) : String :=
  match l.instruction.mode with
  | .implied => ""
  | .immediate => "#$" ++ l.first.hex
  | .zeroPage => "$" ++ l.first.hex
  | .zeroPageX => "$" ++ l.first.hex ++ ", X"
  | .zeroPageY => "$" ++ l.first.hex ++ ", Y"
  | .relative => "$" ++ l.first.hex ++ " [$" ++ l.branchTarget.hex ++ "]"
  | .absolute => "$" ++ l.word.hex
  | .absoluteX => "$" ++ l.word.hex ++ ", X"
  | .absoluteY => "$" ++ l.word.hex ++ ", Y"
  | .indirect => "($" ++ l.word.hex ++ ")"
  | .indexedIndirect => "($" ++ l.first.hex ++ ", X)"
  | .indirectIndexed => "($" ++ l.first.hex ++ "), Y"

/-- The operand and the tag of its mode. -/
def operand (l : Line) : String :=
  let tag := "\x7b" ++ l.instruction.mode.tag ++ "\x7d"
  if l.instruction.mode = .implied then tag else l.body ++ " " ++ tag

/-- The address and the mnemonic. -/
def head (l : Line) : String := "$" ++ l.address.hex ++ ": " ++ l.instruction.mnemonic

/-- The whole line. -/
def text (l : Line) : String := l.head ++ " " ++ l.operand

/-- The line in a field of the given width, its operand at the right end; a blank divides the two where there is no
room. -/
def render (l : Line) (width : Nat) : String :=
  l.head ++ blanks (max 1 (width - (l.head.length + l.operand.length))) ++ l.operand

/-- Reads the line at an address. -/
def decode (address : Addr) : Transaction Line := do
  let opcode ← Transaction.view address
  let first ← Transaction.view (address + 1)
  let second ← Transaction.view (address + 2)
  return ⟨address, opcode, first, second⟩

end Line

/-! ## Listings -/

/-- Lines in the order of their addresses. -/
structure Listing where
  lines : Array Line

namespace Listing

/-- Adds the lines from `place` to `last` to those already read. -/
def extend (last : Addr) (place : Nat) (lines : Array Line) : Transaction (Array Line) :=
  if place ≤ last.toNat then do
    let line ← Line.decode (BitVec.ofNat 16 place)
    extend last (place + line.length) (lines.push line)
  else
    return lines
termination_by last.toNat + 1 - place
decreasing_by
  have := line.length_pos
  omega

/-- The lines of a range, both ends included. -/
def ofRange (first last : Addr) : Transaction Listing := do
  let lines ← extend last first.toNat #[]
  return ⟨lines⟩

/-- The addresses where lines begin. -/
def addresses (l : Listing) : Array Addr := l.lines.map (·.address)

/-- The line that begins at an address. -/
def line? (l : Listing) (address : Addr) : Option Line := l.lines.find? (·.address == address)

/-- The lines that begin at an address or behind it. -/
def linesFrom (l : Listing) (address : Addr) : Array Line := l.lines.filter (address ≤ ·.address)

end Listing

end Nes
