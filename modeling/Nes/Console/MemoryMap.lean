import Nes.Console.Device
import Nes.Memory.WorkRam
import Nes.Cartridge.Basic

/-!
# The memory map

The processor of the console sees work RAM at `$0000` to `$1FFF`, a device at `$2000` to `$3FFF`, and the cartridge
wherever it answers, before anything else. Where nothing answers the bus still holds the byte that was moved last, and
a read finds that.
-/

namespace Nes

/-- What the processor of the console is attached to. -/
structure MemoryMap (δ : Type) where
  ram : WorkRam := .zero
  device : δ
  cartridge : Option Cartridge := none
  /-- The byte that was moved last. -/
  openBus : Byte := 0

namespace MemoryMap

variable {δ : Type} [Device δ]

/-- The device's register that an address selects. -/
def register (addr : Addr) : Addr := addr &&& 0x7

/-- The byte at an address, if something answers there. -/
def answer (mode : ReadMode) (addr : Addr) (m : MemoryMap δ) : Option Byte × MemoryMap δ :=
  match m.cartridge.bind (·.read addr) with
  | some value => (some value, m)
  | none =>
    if addr < 0x2000 then (some (m.ram.read addr), m)
    else if addr < 0x4000 then
      let (value, device) := Device.read mode (register addr) m.device
      (some value, { m with device })
    else (none, m)

/-- Reads a byte. A live read leaves it on the bus. -/
def read (mode : ReadMode) (addr : Addr) (m : MemoryMap δ) : Byte × MemoryMap δ :=
  match m.answer mode addr, mode with
  | (some value, m), .live => (value, { m with openBus := value })
  | (some value, m), .view => (value, m)
  | (none, m), _ => (m.openBus, m)

/-- Writes a byte that no cartridge took. -/
def writeConsole (addr : Addr) (value : Byte) (m : MemoryMap δ) : MemoryMap δ :=
  if addr < 0x2000 then { m with ram := m.ram.write addr value }
  else if addr < 0x4000 then { m with device := Device.write (register addr) value m.device }
  else m

/-- Writes a byte. It is on the bus whether something takes it or not. -/
def write (addr : Addr) (value : Byte) (m : MemoryMap δ) : MemoryMap δ :=
  let m := { m with openBus := value }
  match m.cartridge with
  | none => m.writeConsole addr value
  | some cartridge =>
    match cartridge.write addr value with
    | (true, cartridge) => { m with cartridge := some cartridge }
    | (false, cartridge) => { m with cartridge := some cartridge }.writeConsole addr value

instance : Bus (MemoryMap δ) where
  read := read
  write := write

end MemoryMap

end Nes
