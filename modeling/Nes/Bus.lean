import Nes.Word

/-!
# Buses

A bus answers reads and takes writes. A read is *live*, and may change what is attached, or a *view*, which a debugger
uses and which is meant to change nothing. A monitored bus keeps the list of accesses that went through it.
-/

namespace Nes

/-- How a byte is read. -/
inductive ReadMode
  /-- By the running machine. -/
  | live
  /-- By an observer, who must not disturb the machine. -/
  | view
  deriving DecidableEq

/-- What a processor is attached to. -/
class Bus (β : Type) where
  read : ReadMode → Addr → β → Byte × β
  write : Addr → Byte → β → β

/-! ## Accesses -/

/-- One access, with the byte that was moved. -/
inductive Access
  | read (mode : ReadMode) (addr : Addr) (value : Byte)
  | write (addr : Addr) (value : Byte)
  deriving DecidableEq

/-- A bus with the accesses made so far, oldest first. -/
structure Monitored (β : Type) where
  bus : β
  log : Array Access := #[]

/-- The same bus with nothing recorded. -/
def Monitored.forget {β : Type} (m : Monitored β) : Monitored β := { m with log := #[] }

instance {β : Type} [Bus β] : Bus (Monitored β) where
  read mode addr m :=
    let (value, bus) := Bus.read mode addr m.bus
    (value, ⟨bus, m.log.push (.read mode addr value)⟩)
  write addr value m := ⟨Bus.write addr value m.bus, m.log.push (.write addr value)⟩

end Nes
