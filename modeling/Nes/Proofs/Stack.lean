import Nes.Proofs.Cells
import Nes.Proofs.Execution
import Nes.Memory.Flat

/-!
# The stack page

The processor takes it for granted that its stack is RAM. `StackBus` says what that means of a bus: a byte that was
pushed is found until it is overwritten, and a push changes its own place and nothing else. Flat memory is such a bus,
and so is the memory map of the console, whatever the device and whatever is in the slot: cartridges do not answer
below `$6000`, and work RAM has a cell of its own for each place of the stack page.
-/

namespace Nes

/-- The byte at a place of the stack page, as the processor finds it. -/
def stackByte {β : Type} [Bus β] (bus : β) (place : Byte) : Byte := (Bus.read .live (.stackPage place) bus).1

/-- A bus with RAM at the stack page. -/
class StackBus (β : Type) [Bus β] where
  /-- What the two states store is the same, but for some places of the stack page. -/
  DifferAt : List Byte → β → β → Prop
  /-- The state of what is attached besides storage. -/
  Attached : Type
  attached : β → Attached
  refl (places : List Byte) (bus : β) : DifferAt places bus bus
  trans {places : List Byte} {bus₁ bus₂ bus₃ : β} : DifferAt places bus₁ bus₂ → DifferAt places bus₂ bus₃ →
    DifferAt places bus₁ bus₃
  /-- A push changes its own place. -/
  write {places : List Byte} {place : Byte} (hplace : place ∈ places) (value : Byte) (bus : β) :
    DifferAt places bus (Bus.write (.stackPage place) value bus)
  attached_write (place value : Byte) (bus : β) : attached (Bus.write (.stackPage place) value bus) = attached bus
  /-- A read changes nothing that is stored. -/
  read (places : List Byte) (addr : Addr) (bus : β) : DifferAt places bus (Bus.read .live addr bus).2
  /-- Nothing that is attached lies past `$4000`. -/
  attached_read {addr : Addr} (haddr : 0x4000 ≤ addr.toNat) (bus : β) :
    attached (Bus.read .live addr bus).2 = attached bus
  stackByte_read (bus : β) (addr : Addr) (place : Byte) : stackByte (Bus.read .live addr bus).2 place = stackByte bus place
  stackByte_write (bus : β) (place other : Byte) (value : Byte) :
    stackByte (Bus.write (.stackPage place) value bus) other = if place = other then value else stackByte bus other

theorem Addr.toNat_stackPage (place : Byte) : (Addr.stackPage place).toNat = 0x100 + place.toNat := by
  rw [stackPage, toNat_ofBytes]
  rfl

theorem Addr.stackPage_inj {place other : Byte} : stackPage place = stackPage other ↔ place = other := by
  constructor
  · intro h
    have hnat := congrArg BitVec.toNat h
    rw [toNat_stackPage, toNat_stackPage] at hnat
    exact BitVec.eq_of_toNat_eq (by omega)
  · rintro rfl
    rfl

/-! ## Flat memory -/

/-- What the two states store is the same, but for some places of the stack page. -/
def FlatMemory.DifferAt (places : List Byte) (m m' : FlatMemory) : Prop :=
  ∀ addr, (∀ place ∈ places, addr ≠ .stackPage place) → m'.peek addr = m.peek addr

/-- What lies behind the stack page is the same. -/
theorem FlatMemory.DifferAt.peek_eq {places : List Byte} {m m' : FlatMemory} (h : DifferAt places m m') {addr : Addr}
    (haddr : 0x200 ≤ addr.toNat) : m'.peek addr = m.peek addr := by
  apply h
  intro place _ hplace
  rw [hplace, Addr.toNat_stackPage] at haddr
  have := place.isLt
  omega

instance : StackBus FlatMemory where
  DifferAt := FlatMemory.DifferAt
  Attached := Unit
  attached _ := ()
  refl _ _ _ _ := rfl
  trans h h' addr haddr := (h' addr haddr).trans (h addr haddr)
  write hplace value m addr haddr := by
    rw [FlatMemory.write_eq, FlatMemory.peek_poke, if_neg (haddr _ hplace).symm]
  attached_write _ _ _ := rfl
  read _ _ _ _ _ := rfl
  attached_read _ _ := rfl
  stackByte_read _ _ _ := rfl
  stackByte_write m place other value := by
    have hpoke := m.peek_poke (.stackPage place) (.stackPage other) value
    simp only [Addr.stackPage_inj] at hpoke
    exact hpoke

/-! ## The memory map -/

namespace MemoryMap

variable {δ : Type} [Device δ]

/-- Work RAM answers in its range, whatever is in the slot. -/
theorem read_ram (m : MemoryMap δ) (mode : ReadMode) {addr : Addr} (h : addr.toNat < 0x2000) :
    (Bus.read mode addr m).1 = m.ram.read addr := by
  have hslot : m.cartridge.bind (·.read addr) = none := by
    cases m.cartridge with
    | none => rfl
    | some c => exact c.read_of_lt (by omega)
  rcases m.read_cases mode addr with ⟨value, hvalue, -⟩ | ⟨-, ⟨-, he⟩ | ⟨⟨h2, -⟩, -⟩ | ⟨h4, -⟩⟩
  · rw [hslot] at hvalue
    cases hvalue
  · rw [he]
  · omega
  · omega

/-- Past its registers a read does not reach the device. -/
theorem read_past_device (m : MemoryMap δ) (mode : ReadMode) {addr : Addr} (h : 0x4000 ≤ addr.toNat) :
    (Bus.read mode addr m).2.device = m.device := by
  rcases m.read_cases mode addr with ⟨value, -, he⟩ | ⟨-, ⟨-, he⟩ | ⟨⟨-, h4⟩, -⟩ | ⟨-, he⟩⟩
  · rw [he]
    rfl
  · rw [he]
    rfl
  · omega
  · rw [he]

/-- What the two states store is the same, but for the cells of some places of the stack page. -/
structure DifferAt (places : List Byte) (m m' : MemoryMap δ) : Prop where
  cartridge : m'.cartridge = m.cartridge
  ram : ∀ addr, (∀ place ∈ places, WorkRam.index addr ≠ WorkRam.index (.stackPage place)) →
    m'.ram.read addr = m.ram.read addr

theorem index_stackPage_inj {place other : Byte} :
    WorkRam.index (.stackPage place) = WorkRam.index (.stackPage other) ↔ place = other := by
  have hindex (b : Byte) : (WorkRam.index (.stackPage b)).val = 0x100 + b.toNat := by
    rw [WorkRam.val_index, Addr.toNat_stackPage]
    have := b.isLt
    omega
  rw [Fin.ext_iff, hindex, hindex, ← BitVec.toNat_inj]
  omega

/-- A push goes to work RAM. -/
theorem write_stackPage (m : MemoryMap δ) (place value : Byte) : Bus.write (.stackPage place) value m =
    { m with ram := m.ram.write (.stackPage place) value, openBus := value } := by
  have hlt : (Addr.stackPage place).toNat < 0x200 := by
    rw [Addr.toNat_stackPage]
    have := place.isLt
    omega
  have hslot : (m.cartridge.map fun c => (c.write (.stackPage place) value).2) = m.cartridge := by
    cases m.cartridge with
    | none => rfl
    | some c => rw [Option.map_some, c.write_of_lt (by omega)]
  have hram : (Addr.stackPage place).toNat < 0x2000 := by omega
  have hdevice : ¬(0x2000 ≤ (Addr.stackPage place).toNat ∧ (Addr.stackPage place).toNat < 0x4000) := by omega
  rw [write_eq, if_pos hram, if_neg hdevice, hslot]

theorem stackByte_eq (m : MemoryMap δ) (place : Byte) : stackByte m place = m.ram.read (.stackPage place) := by
  apply read_ram
  rw [Addr.toNat_stackPage]
  have := place.isLt
  omega

instance : StackBus (MemoryMap δ) where
  DifferAt := DifferAt
  Attached := δ
  attached := device
  refl _ _ := ⟨rfl, fun _ _ => rfl⟩
  trans h h' := ⟨h'.cartridge.trans h.cartridge, fun addr haddr => (h'.ram addr haddr).trans (h.ram addr haddr)⟩
  write hplace value m := by
    rw [write_stackPage]
    refine ⟨rfl, fun addr haddr => ?_⟩
    rw [WorkRam.read_write, if_neg (haddr _ hplace).symm]
  attached_write place value m := by rw [write_stackPage]
  read places addr m := by
    obtain ⟨device, openBus, hread⟩ := m.read_keeps .live addr
    rw [hread]
    exact ⟨rfl, fun _ _ => rfl⟩
  attached_read haddr m := m.read_past_device .live haddr
  stackByte_read m addr place := by
    obtain ⟨device, openBus, hread⟩ := m.read_keeps .live addr
    rw [hread, stackByte_eq, stackByte_eq]
  stackByte_write m place other value := by
    rw [write_stackPage, stackByte_eq, stackByte_eq, WorkRam.read_write]
    simp only [index_stackPage_inj]

end MemoryMap

/-! ## Stacked bytes -/

namespace Registers

variable {β : Type} [Bus β]

/-- The bus when the program counter and a status byte have been pushed. -/
def stacked (r : Registers) (brk : Bool) (bus : β) : β :=
  Bus.write (.stackPage (r.sp - 1 - 1)) (r.pushedStatus brk)
    (Bus.write (.stackPage (r.sp - 1)) r.pc.low (Bus.write (.stackPage r.sp) r.pc.high bus))

/-- The places of the bytes that an interrupt stacks. -/
def frame (r : Registers) : List Byte := [r.sp, r.sp - 1, r.sp - 2]

theorem mem_frame (r : Registers) : r.sp ∈ r.frame ∧ r.sp - 1 ∈ r.frame ∧ r.sp - 2 ∈ r.frame := by simp [frame]

theorem sp_sub_two (r : Registers) : r.sp - 1 - 1 = r.sp - 2 := by bv_omega

theorem run_enterHandler_snd (r : Registers) (vector : Addr) (brk : Bool) (bus : β) :
    ((r.enterHandler vector brk).run bus).2 = ((Transaction.readWord vector).run (r.stacked brk bus)).2 := rfl

theorem run_pop (r : Registers) (bus : β) : r.pop.run bus =
    ((stackByte bus (r.sp + 1), { r with sp := r.sp + 1 }), (Bus.read .live (.stackPage (r.sp + 1)) bus).2) := rfl

variable [StackBus β]

/-- A word is taken from the two places above the stack pointer. -/
theorem run_popWord (r : Registers) (bus : β) : (r.popWord.run bus).1 =
    (.ofBytes (stackByte bus (r.sp + 1)) (stackByte bus (r.sp + 2)), { r with sp := r.sp + 2 }) := by
  have hsp : r.sp + 1 + 1 = r.sp + 2 := by bv_omega
  have hread := StackBus.stackByte_read bus (.stackPage (r.sp + 1)) (r.sp + 2)
  simp only [popWord, Transaction.run_bind, run_pop, Transaction.pure_eq, Transaction.run_done, hsp, hread]

theorem stackByte_readWord (vector : Addr) (bus : β) (place : Byte) :
    stackByte ((Transaction.readWord vector).run bus).2 place = stackByte bus place := by
  show stackByte (Bus.read .live (vector + 1) (Bus.read .live vector bus).2).2 place = _
  rw [StackBus.stackByte_read, StackBus.stackByte_read]

/-- What is found at the three places in a handler. -/
theorem stackByte_enterHandler (r : Registers) (vector : Addr) (brk : Bool) (bus : β) :
    stackByte ((r.enterHandler vector brk).run bus).2 r.sp = r.pc.high ∧
    stackByte ((r.enterHandler vector brk).run bus).2 (r.sp - 1) = r.pc.low ∧
    stackByte ((r.enterHandler vector brk).run bus).2 (r.sp - 2) = r.pushedStatus brk := by
  have h21 : r.sp - 2 ≠ r.sp - 1 := by bv_omega
  have h20 : r.sp - 2 ≠ r.sp := by bv_omega
  have h10 : r.sp - 1 ≠ r.sp := by bv_omega
  simp only [run_enterHandler_snd, stackByte_readWord, stacked, sp_sub_two, StackBus.stackByte_write, if_neg h21,
    if_neg h20, if_neg h10, if_true, and_self]

/-- A handler is entered by changing three places. -/
theorem differAt_enterHandler (r : Registers) (vector : Addr) (brk : Bool) (bus : β) :
    StackBus.DifferAt r.frame bus ((r.enterHandler vector brk).run bus).2 := by
  obtain ⟨hsp, hsp₁, hsp₂⟩ := r.mem_frame
  rw [← sp_sub_two] at hsp₂
  have hstacked : StackBus.DifferAt r.frame bus (r.stacked brk bus) :=
    StackBus.trans (StackBus.write hsp _ _) (StackBus.trans (StackBus.write hsp₁ _ _) (StackBus.write hsp₂ _ _))
  exact StackBus.trans hstacked (StackBus.trans (StackBus.read _ vector _) (StackBus.read _ (vector + 1) _))

/-- If its vector lies past what is attached, nothing of that is touched. -/
theorem attached_enterHandler (r : Registers) {vector : Addr} (hlow : 0x4000 ≤ vector.toNat)
    (hhigh : 0x4000 ≤ (vector + 1).toNat) (brk : Bool) (bus : β) :
    StackBus.attached ((r.enterHandler vector brk).run bus).2 = StackBus.attached bus := by
  have hvector : StackBus.attached ((r.enterHandler vector brk).run bus).2 = StackBus.attached (r.stacked brk bus) :=
    (StackBus.attached_read hhigh _).trans (StackBus.attached_read hlow _)
  rw [hvector, stacked, StackBus.attached_write, StackBus.attached_write, StackBus.attached_write]

end Registers

end Nes
