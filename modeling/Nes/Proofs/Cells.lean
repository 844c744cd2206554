import Nes.Proofs.Storage
import Nes.Console.MemoryMap

/-!
# Cells

An address of the processor's side names a *cell* (`cellOf`): a byte of work RAM, a device register, a byte of program
RAM or ROM, or nothing at all. Which cell that is depends on what is in the slot and on nothing else. With cells, one
access is described without the board and without the order in which addresses are decoded.

* `MemoryMap.read_eq`, `MemoryMap.read_view`, `MemoryMap.read_live`: a read gives what the cell holds and changes the
  open bus at most.
* `MemoryMap.write_eq`: what a write does to each part of the memory map.
* `MemoryMap.content_write`: a write changes the cell it names, unless that is ROM, and the open bus.
-/

namespace Nes

/-! ## Cells -/

/-- What an address of the processor's side names. -/
inductive Cell
  | ram (index : Nat)
  | register (index : Nat)
  | prgRam (index : Nat)
  | prgRom (index : Nat)
  /-- Nothing answers. -/
  | openBus
  deriving DecidableEq

/-- The cell of an address that no cartridge takes. -/
def consoleCell (addr : Addr) : Cell :=
  if addr.toNat < 0x2000 then .ram (addr.toNat % 0x800)
  else if addr.toNat < 0x4000 then .register (addr.toNat % 8)
  else .openBus

/-- The cell of an address in a cartridge, if it takes the address. -/
def Cartridge.cell (c : Cartridge) (addr : Addr) : Option Cell :=
  if addr.toNat < 0x6000 then none
  else if addr.toNat < 0x8000 then
    if 0 < c.prgRam.size then some (.prgRam ((addr.toNat - 0x6000) % c.prgRam.size)) else none
  else
    if 0 < c.header.prgBanks then some (.prgRom ((addr.toNat - 0x8000) % (0x4000 * min c.header.prgBanks 2))) else none

/-- The cell of an address, for what is in the slot. -/
def cellOf (slot : Option Cartridge) (addr : Addr) : Cell := (slot.bind (·.cell addr)).getD (consoleCell addr)

/-- The byte that a cell holds; of the open bus, the byte that was moved last. -/
def MemoryMap.content (m : MemoryMap RegisterBlock) : Cell → Byte
  | .ram index => m.ram.cells[index]?.getD 0
  | .register index => m.device.registers[index]?.getD 0
  | .prgRam index => (m.cartridge.bind (·.prgRam[index]?)).getD 0
  | .prgRom index => (m.cartridge.bind (·.prgRom[index]?)).getD 0
  | .openBus => m.openBus

/-! ## The board's choice -/

/-- The cell that a board's choice stands for. -/
def Target.cell : Target → Option Cell
  | .rom offset => some (.prgRom offset)
  | .ram offset => some (.prgRam offset)
  | .register => none

/-- A board takes the addresses that its storage has cells for. -/
theorem Cartridge.Sound.cell_eq {c : Cartridge} (h : c.Sound) (addr : Addr) :
    c.cell addr = (c.board.layout.target addr).bind Target.cell := by
  have hlt := addr.isLt
  unfold cell
  rw [h.prgRam, h.layout]
  simp only [Layout.target, Layout.ofHeader, BitVec.lt_def, prgBankSize]
  by_cases h6 : addr.toNat < 0x6000
  · simp [h6]
  by_cases h8 : addr.toNat < 0x8000
  · by_cases hr : c.header.prgRamSize = 0
    · simp [h6, h8, hr]
    · simp [h6, h8, hr, Nat.pos_of_ne_zero hr, Target.cell]
  by_cases hp : c.header.prgBanks = 0
  · simp [h6, h8, hp]
  -- the window is one bank or two banks long, and either divides its start
  by_cases h1 : c.header.prgBanks = 1
  · have hmod : (addr.toNat - 0x8000) % 0x4000 = addr.toNat % 0x4000 := by omega
    simp [h6, h8, h1, Target.cell, hmod]
  · have hmin : min c.header.prgBanks 2 = 2 := by omega
    have hmod : (addr.toNat - 0x8000) % 0x8000 = addr.toNat % 0x8000 := by omega
    simp [h6, h8, hp, h1, Nat.pos_of_ne_zero hp, Target.cell, hmin, hmod]

/-- Only storage of the cartridge is named by a cell of the cartridge. -/
theorem Cartridge.cell_cases {c : Cartridge} {addr : Addr} {cell : Cell} (h : c.cell addr = some cell) :
    (∃ index, cell = .prgRam index) ∨ ∃ index, cell = .prgRom index := by
  unfold Cartridge.cell at h
  split at h
  · cases h
  · split at h
    · split at h
      · exact .inl ⟨_, (Option.some.inj h).symm⟩
      · cases h
    · split at h
      · exact .inr ⟨_, (Option.some.inj h).symm⟩
      · cases h

/-- An address is the cartridge's, or the console's. -/
theorem cellOf_cases (slot : Option Cartridge) (addr : Addr) :
    (∃ c cell, slot = some c ∧ c.cell addr = some cell ∧ 0x6000 ≤ addr.toNat ∧ cellOf slot addr = cell) ∨
      ((∀ c, slot = some c → c.cell addr = none) ∧ cellOf slot addr = consoleCell addr) := by
  unfold cellOf
  cases hb : slot.bind (·.cell addr) with
  | none => exact .inr ⟨Option.bind_eq_none_iff.mp hb, rfl⟩
  | some cell =>
    obtain ⟨c, rfl, hcell⟩ := Option.bind_eq_some_iff.mp hb
    refine .inl ⟨c, cell, rfl, hcell, Nat.le_of_not_lt fun hlt => ?_, rfl⟩
    simp [Cartridge.cell, hlt] at hcell

theorem cellOf_eq_ram_iff {slot : Option Cartridge} {addr : Addr} {index : Nat} :
    cellOf slot addr = .ram index ↔ addr.toNat < 0x2000 ∧ addr.toNat % 0x800 = index := by
  rcases cellOf_cases slot addr with ⟨c, cell, -, hcell, h6, he⟩ | ⟨-, he⟩
  · rw [he]
    constructor
    · rintro rfl
      rcases Cartridge.cell_cases hcell with ⟨_, h⟩ | ⟨_, h⟩ <;> cases h
    · rintro ⟨hlt, -⟩
      omega
  · rw [he, consoleCell]
    by_cases h2 : addr.toNat < 0x2000
    · simp [h2]
    · by_cases h4 : addr.toNat < 0x4000 <;> simp [h2, h4]

theorem cellOf_eq_register_iff {slot : Option Cartridge} {addr : Addr} {index : Nat} :
    cellOf slot addr = .register index ↔
      (0x2000 ≤ addr.toNat ∧ addr.toNat < 0x4000) ∧ addr.toNat % 8 = index := by
  rcases cellOf_cases slot addr with ⟨c, cell, -, hcell, h6, he⟩ | ⟨-, he⟩
  · rw [he]
    constructor
    · rintro rfl
      rcases Cartridge.cell_cases hcell with ⟨_, h⟩ | ⟨_, h⟩ <;> cases h
    · rintro ⟨⟨-, hlt⟩, -⟩
      omega
  · rw [he, consoleCell]
    by_cases h2 : addr.toNat < 0x2000
    · simp [h2, Nat.not_le_of_lt h2]
    · by_cases h4 : addr.toNat < 0x4000
      · simp [h2, h4, Nat.le_of_not_lt h2]
      · simp [h2, h4]

theorem cellOf_eq_prgRam_iff {slot : Option Cartridge} {addr : Addr} {index : Nat} :
    cellOf slot addr = .prgRam index ↔ ∃ c, slot = some c ∧ c.cell addr = some (.prgRam index) := by
  rcases cellOf_cases slot addr with ⟨c, cell, rfl, hcell, h6, he⟩ | ⟨hnone, he⟩
  · simp [he, hcell]
  · rw [he, consoleCell]
    constructor
    · intro h
      by_cases h2 : addr.toNat < 0x2000
      · simp [h2] at h
      · by_cases h4 : addr.toNat < 0x4000 <;> simp [h2, h4] at h
    · rintro ⟨c, hc, hcell⟩
      rw [hnone c hc] at hcell
      cases hcell

/-! ## One access -/

/-- What is in the slot, if anything, is sound. -/
def SoundSlot (slot : Option Cartridge) : Prop := ∀ c, slot = some c → c.Sound

theorem Cartridge.Sound.slot {c : Cartridge} (h : c.Sound) : SoundSlot (some c) := by
  rintro _ ⟨⟩
  exact h

/-- Using a cartridge neither unsettles it nor renames a cell. -/
theorem SoundSlot.map {slot : Option Cartridge} (hs : SoundSlot slot) {f : Cartridge → Cartridge}
    (hf : ∀ c, c.Sound → (f c).Sound ∧ c.Keeps (f c)) :
    SoundSlot (slot.map f) ∧ ∀ addr, cellOf (slot.map f) addr = cellOf slot addr := by
  cases slot with
  | none => exact ⟨hs, fun _ => rfl⟩
  | some c =>
    obtain ⟨hsound, hkeeps⟩ := hf c (hs c rfl)
    refine ⟨?_, fun addr => ?_⟩
    · rintro _ ⟨⟩
      exact hsound
    · simp [cellOf, Cartridge.cell, hkeeps.header, hkeeps.prgRamSize]

namespace MemoryMap

variable {m : MemoryMap RegisterBlock}

theorem content_ram (m : MemoryMap RegisterBlock) (addr : Addr) :
    m.content (.ram (addr.toNat % 0x800)) = m.ram.read addr := by
  have hlt : addr.toNat % 0x800 < 0x800 := Nat.mod_lt _ (by decide)
  simp only [content, WorkRam.read, Vector.getElem?_eq_getElem hlt, Option.getD_some, Fin.getElem_fin,
    WorkRam.val_index]

theorem content_openBus (m : MemoryMap RegisterBlock) (value : Byte) {cell : Cell} (h : cell ≠ .openBus) :
    { m with openBus := value }.content cell = m.content cell := by
  cases cell with
  | openBus => exact absurd rfl h
  | _ => rfl

theorem toNat_register (addr : Addr) : (register addr).toNat = addr.toNat % 8 :=
  Nat.and_two_pow_sub_one_eq_mod addr.toNat 3

theorem content_register (m : MemoryMap RegisterBlock) (addr : Addr) :
    m.content (.register (addr.toNat % 8)) = m.device.get (register addr) := by
  have hlt : addr.toNat % 8 < 8 := Nat.mod_lt _ (by decide)
  have hreg : (register addr).toNat % 8 = addr.toNat % 8 := by rw [toNat_register, Nat.mod_mod]
  simp only [content, RegisterBlock.get, Vector.getElem?_eq_getElem hlt, Option.getD_some, Fin.getElem_fin,
    RegisterBlock.val_index, hreg]

/-- The cartridge answers with what its cell holds. -/
theorem read_slot (hs : SoundSlot m.cartridge) (addr : Addr) :
    m.cartridge.bind (·.read addr) = (m.cartridge.bind (·.cell addr)).map m.content := by
  cases hc : m.cartridge with
  | none => rfl
  | some c =>
    have h := hs c hc
    show c.read addr = (c.cell addr).map m.content
    have hselect : c.board.readTarget addr = c.board.layout.target addr := rfl
    rw [h.cell_eq, Cartridge.read, hselect]
    cases ht : c.board.layout.target addr with
    | none => rfl
    | some target =>
      have hin := h.holds ht
      cases target with
      | rom offset => simp [Target.cell, content, hc, Array.getElem?_eq_getElem hin]
      | ram offset => simp [Target.cell, content, hc, Array.getElem?_eq_getElem hin]
      | register => rfl

/-- Something answers wherever there is a cell, with what the cell holds. -/
theorem answer_eq (hs : SoundSlot m.cartridge) (mode : ReadMode) (addr : Addr) :
    m.answer mode addr =
      (if cellOf m.cartridge addr = .openBus then none else some (m.content (cellOf m.cartridge addr)), m) := by
  unfold answer
  rw [read_slot hs, cellOf]
  cases hc : m.cartridge.bind (·.cell addr) with
  | some cell =>
    have hne : cell ≠ .openBus := by
      obtain ⟨c, -, hcell⟩ := Option.bind_eq_some_iff.mp hc
      rcases Cartridge.cell_cases hcell with ⟨index, rfl⟩ | ⟨index, rfl⟩ <;> exact nofun
    simp [hne]
  | none =>
    simp only [Option.map_none, Option.getD_none, consoleCell, BitVec.lt_def]
    show (if addr.toNat < 0x2000 then _ else if addr.toNat < 0x4000 then _ else _) = _
    by_cases h2 : addr.toNat < 0x2000
    · simp [h2, content_ram]
    by_cases h4 : addr.toNat < 0x4000
    · simp only [h2, h4, if_false, if_true, content_register]
      rfl
    · simp [h2, h4]

/-- A read gives what the cell holds. -/
theorem read_eq (hs : SoundSlot m.cartridge) (mode : ReadMode) (addr : Addr) :
    (Bus.read mode addr m).1 = m.content (cellOf m.cartridge addr) := by
  show (MemoryMap.read mode addr m).1 = _
  unfold MemoryMap.read
  rw [answer_eq hs]
  by_cases ho : cellOf m.cartridge addr = .openBus
  · simp [ho, content]
  · cases mode <;> simp [ho]

/-- A view leaves everything as it is. -/
theorem read_view (hs : SoundSlot m.cartridge) (addr : Addr) : (Bus.read .view addr m).2 = m := by
  show (MemoryMap.read .view addr m).2 = m
  unfold MemoryMap.read
  rw [answer_eq hs]
  by_cases ho : cellOf m.cartridge addr = .openBus <;> simp [ho]

/-- A live read leaves its byte on the bus. -/
theorem read_live (hs : SoundSlot m.cartridge) (addr : Addr) :
    (Bus.read .live addr m).2 = { m with openBus := m.content (cellOf m.cartridge addr) } := by
  show (MemoryMap.read .live addr m).2 = _
  unfold MemoryMap.read
  rw [answer_eq hs]
  by_cases ho : cellOf m.cartridge addr = .openBus <;> simp [ho, content]

end MemoryMap

/-- A cartridge does not answer below `$6000`. -/
theorem Cartridge.read_of_lt (c : Cartridge) {addr : Addr} (h : addr.toNat < 0x6000) : c.read addr = none := by
  rw [read, Board.readTarget, Layout.target_of_lt h]

/-- A cartridge refuses every address below `$6000`. -/
theorem Cartridge.write_of_lt (c : Cartridge) {addr : Addr} (h : addr.toNat < 0x6000) (value : Byte) :
    c.write addr value = (false, c) := by
  have ht : c.board.layout.target addr = none := Layout.target_of_lt h
  rcases c.write_cases addr value with ⟨_, he, -⟩ | ⟨_, -, -, hle, -⟩ | ⟨_, he, -⟩ | ⟨-, he⟩
  · rw [ht] at he; cases he
  · rw [BitVec.le_def] at hle
    exact absurd hle (by simp; omega)
  · rw [ht] at he; cases he
  · exact he

namespace MemoryMap

section

variable {δ : Type} [Device δ]

/-- The memory map when a byte has moved on its bus. -/
def passing (m : MemoryMap δ) (mode : ReadMode) (value : Byte) : MemoryMap δ :=
  { m with openBus := if mode = .live then value else m.openBus }

/-- What can answer a read: the cartridge, and where it does not, work RAM, the device or nothing. -/
theorem read_cases (m : MemoryMap δ) (mode : ReadMode) (addr : Addr) :
    (∃ value, m.cartridge.bind (·.read addr) = some value ∧ Bus.read mode addr m = (value, m.passing mode value)) ∨
    m.cartridge.bind (·.read addr) = none ∧
      ((addr.toNat < 0x2000 ∧ Bus.read mode addr m = (m.ram.read addr, m.passing mode (m.ram.read addr))) ∨
      ((0x2000 ≤ addr.toNat ∧ addr.toNat < 0x4000) ∧ ∃ value device,
        Device.read mode (register addr) m.device = (value, device) ∧
        Bus.read mode addr m = (value, { m with device }.passing mode value)) ∨
      (0x4000 ≤ addr.toNat ∧ Bus.read mode addr m = (m.openBus, m))) := by
  have hread : Bus.read mode addr m = MemoryMap.read mode addr m := rfl
  rw [hread]
  unfold MemoryMap.read answer
  cases m.cartridge.bind (·.read addr) with
  | some value =>
    refine .inl ⟨value, rfl, ?_⟩
    cases mode <;> rfl
  | none =>
    refine .inr ⟨rfl, ?_⟩
    by_cases h2 : addr < 0x2000
    · refine .inl ⟨h2, ?_⟩
      rw [if_pos h2]
      cases mode <;> rfl
    by_cases h4 : addr < 0x4000
    · refine .inr (.inl ⟨⟨Nat.le_of_not_lt h2, h4⟩, _, _, rfl, ?_⟩)
      rw [if_neg h2, if_pos h4]
      cases mode <;> rfl
    · refine .inr (.inr ⟨Nat.le_of_not_lt h4, ?_⟩)
      rw [if_neg h2, if_neg h4]

/-- A read leaves work RAM and the slot alone, whatever the device does. -/
theorem read_keeps (m : MemoryMap δ) (mode : ReadMode) (addr : Addr) :
    ∃ device openBus, (Bus.read mode addr m).2 = { m with device, openBus } := by
  rcases m.read_cases mode addr with ⟨value, -, he⟩ | ⟨-, ⟨-, he⟩ | ⟨-, value, device, -, he⟩ | ⟨-, he⟩⟩
  · exact ⟨m.device, _, congrArg Prod.snd he⟩
  · exact ⟨m.device, _, congrArg Prod.snd he⟩
  · exact ⟨device, _, congrArg Prod.snd he⟩
  · exact ⟨m.device, m.openBus, congrArg Prod.snd he⟩

theorem writeConsole_eq (m : MemoryMap δ) (addr : Addr) (value : Byte) : m.writeConsole addr value =
    { m with
      ram := if addr.toNat < 0x2000 then m.ram.write addr value else m.ram
      device := if 0x2000 ≤ addr.toNat ∧ addr.toNat < 0x4000 then Device.write (register addr) value m.device
        else m.device } := by
  unfold writeConsole
  simp only [BitVec.lt_def]
  show (if addr.toNat < 0x2000 then _ else if addr.toNat < 0x4000 then _ else _) = _
  by_cases h2 : addr.toNat < 0x2000
  · simp [h2, Nat.not_le_of_lt h2]
  by_cases h4 : addr.toNat < 0x4000
  · simp [h2, h4, Nat.le_of_not_lt h2]
  · simp [h2, h4]

/-- What a write does, part by part: no part looks at another. -/
theorem write_eq (m : MemoryMap δ) (addr : Addr) (value : Byte) : Bus.write addr value m =
    { ram := if addr.toNat < 0x2000 then m.ram.write addr value else m.ram
      device := if 0x2000 ≤ addr.toNat ∧ addr.toNat < 0x4000 then Device.write (register addr) value m.device
        else m.device
      cartridge := m.cartridge.map fun c => (c.write addr value).2
      openBus := value } := by
  show MemoryMap.write addr value m = _
  obtain ⟨ram, device, slot, openBus⟩ := m
  unfold MemoryMap.write
  cases slot with
  | none => exact writeConsole_eq _ _ _
  | some c =>
    by_cases h6 : addr.toNat < 0x6000
    · simp only [c.write_of_lt h6, writeConsole_eq, Option.map_some]
    · have h2 : ¬addr.toNat < 0x2000 := by omega
      have h4 : ¬(0x2000 ≤ addr.toNat ∧ addr.toNat < 0x4000) := by omega
      simp only [if_neg h2, if_neg h4, Option.map_some]
      rcases hw : c.write addr value with ⟨taken, c'⟩
      cases taken with
      | true => rfl
      | false => simp only [writeConsole_eq, if_neg h2, if_neg h4]

end

theorem content_ram_write (r : WorkRam) (addr : Addr) (value : Byte) (index : Nat) :
    (r.write addr value).cells[index]?.getD 0 =
      if addr.toNat % 0x800 = index then value else r.cells[index]?.getD 0 := by
  simp only [WorkRam.write, Vector.getElem?_set, WorkRam.val_index]
  by_cases h : addr.toNat % 0x800 = index <;> simp [h]

theorem content_register_write (b : RegisterBlock) (addr : Addr) (value : Byte) (index : Nat) :
    (b.set (register addr) value).registers[index]?.getD 0 =
      if addr.toNat % 8 = index then value else b.registers[index]?.getD 0 := by
  simp only [RegisterBlock.set, Vector.getElem?_set, RegisterBlock.val_index, toNat_register, Nat.mod_mod]
  by_cases h : addr.toNat % 8 = index <;> simp [h]

theorem content_prgRam_write {c : Cartridge} (h : c.Sound) (addr : Addr) (value : Byte) (index : Nat) :
    (c.write addr value).2.prgRam[index]?.getD 0 =
      if c.cell addr = some (.prgRam index) then value else c.prgRam[index]?.getD 0 := by
  rw [h.cell_eq]
  rcases c.write_cases addr value with ⟨offset, ht, he⟩ | ⟨bank, -, -, hle, he⟩ | ⟨offset, ht, he⟩ | ⟨ht, he⟩ <;>
    rw [he]
  · have hin : offset < c.prgRam.size := h.holds ht
    by_cases hi : offset = index
    · subst hi
      simp [ht, Target.cell, hin]
    · simp [ht, Target.cell, hi]
  · have hne : (c.board.layout.target addr).bind Target.cell ≠ some (.prgRam index) := by
      intro hcell
      obtain ⟨target, ht, htc⟩ := Option.bind_eq_some_iff.mp hcell
      cases target with
      | rom offset => cases htc
      | ram offset => exact Layout.target_ne_ram hle ht
      | register => cases htc
    rw [if_neg hne]
  · simp [ht, Target.cell]
  · simp [ht]

/-- A write changes the cell that its address names, unless that is ROM, and the open bus; no other cell. -/
theorem content_write {m : MemoryMap RegisterBlock} (hs : SoundSlot m.cartridge) (addr : Addr) (value : Byte)
    (cell : Cell) : (Bus.write addr value m).content cell =
      match cell with
      | .openBus => value
      | .prgRom _ => m.content cell
      | _ => if cellOf m.cartridge addr = cell then value else m.content cell := by
  rw [write_eq]
  cases cell with
  | ram index =>
    simp only [content, cellOf_eq_ram_iff]
    by_cases h2 : addr.toNat < 0x2000
    · simp only [h2, if_true, true_and]
      exact content_ram_write m.ram addr value index
    · simp [h2]
  | register index =>
    simp only [content, cellOf_eq_register_iff]
    by_cases h4 : 0x2000 ≤ addr.toNat ∧ addr.toNat < 0x4000
    · simp only [h4, and_self, if_true, true_and]
      exact content_register_write m.device addr value index
    · simp [h4]
  | prgRam index =>
    simp only [content, cellOf_eq_prgRam_iff]
    cases hc : m.cartridge with
    | none => simp
    | some c => simpa using content_prgRam_write (hs c hc) addr value index
  | prgRom index =>
    simp only [content]
    cases hc : m.cartridge with
    | none => rfl
    | some c => simp [((hs c hc).write addr value).2.prgRom]
  | openBus => rfl

/-- Of a cartridge, cells show program RAM and ROM alone. -/
theorem content_map_cartridge {m : MemoryMap RegisterBlock} {f : Cartridge → Cartridge}
    (hf : ∀ k, m.cartridge = some k → (f k).prgRam = k.prgRam ∧ (f k).prgRom = k.prgRom) (cell : Cell) :
    { m with cartridge := m.cartridge.map f }.content cell = m.content cell := by
  cases hc : m.cartridge with
  | none => cases cell <;> simp [content, hc]
  | some k =>
    obtain ⟨hram, hrom⟩ := hf k hc
    cases cell <;> simp [content, hc, hram, hrom]

/-- The sample cartridge in the slot, and nothing written yet. -/
def sample : MemoryMap RegisterBlock := { device := {}, cartridge := some (.ofImage .strict sampleImage) }

theorem cartridge_sample : sample.cartridge = some (.ofImage .strict sampleImage) := rfl

end MemoryMap

end Nes
