import Nes.Bus

/-!
# Flat memory

One byte of storage for each of the 65536 addresses, and nothing else on the bus. Both kinds of read only look.
-/

namespace Nes

/-- A byte at every address. -/
structure FlatMemory where
  cells : Vector Byte 0x10000

namespace FlatMemory

/-- The same byte everywhere. -/
def filled (value : Byte) : FlatMemory := ⟨.replicate 0x10000 value⟩

/-- Zero everywhere. -/
def zero : FlatMemory := filled 0

/-- The byte at an address. -/
def peek (m : FlatMemory) (addr : Addr) : Byte := m.cells[(addr.toFin : Fin 0x10000)]

/-- Stores one byte. -/
def poke (m : FlatMemory) (addr : Addr) (value : Byte) : FlatMemory :=
  ⟨m.cells.set addr.toNat value addr.isLt⟩

/-- Stores bytes at `addr` and the addresses after it, from the top of memory round to the bottom. Where bytes fall on
the same address the last one stays. -/
def load (m : FlatMemory) (addr : Addr) : List Byte → FlatMemory
  | [] => m
  | b :: bytes => (m.poke addr b).load (addr + 1) bytes

instance : Bus FlatMemory where
  read _ addr m := (m.peek addr, m)
  write addr value m := m.poke addr value

@[simp] theorem peek_filled (value : Byte) (addr : Addr) : (filled value).peek addr = value := by
  simp [filled, peek]

theorem peek_poke (m : FlatMemory) (a b : Addr) (value : Byte) :
    (m.poke a value).peek b = if a = b then value else m.peek b := by
  simp [peek, poke, Vector.getElem_set, BitVec.toNat_inj]

@[simp] theorem load_nil (m : FlatMemory) (addr : Addr) : m.load addr [] = m := rfl

@[simp] theorem load_cons (m : FlatMemory) (addr : Addr) (b : Byte) (bytes : List Byte) :
    m.load addr (b :: bytes) = (m.poke addr b).load (addr + 1) bytes := rfl

@[simp] theorem read_eq (mode : ReadMode) (addr : Addr) (m : FlatMemory) :
    Bus.read mode addr m = (m.peek addr, m) := rfl

@[simp] theorem write_eq (addr : Addr) (value : Byte) (m : FlatMemory) :
    Bus.write addr value m = m.poke addr value := rfl

end FlatMemory

end Nes
