import Nes.Proofs.Cells
import Nes.Proofs.Traffic
import Nes.Memory.Flat

/-!
# Plain memory

Work RAM under its first names, program RAM and program ROM are *plain*: each address there is a cell of its own as far
as writes go, and nothing but the cell answers. On plain addresses the memory map with a cartridge that fills its part
is flat memory (`plain_simulation`), whatever the device is. So a processor that keeps to them cannot tell the two apart
(`Processor.serveAll_plain`).
-/

namespace Nes

/-! ## Plain addresses -/

/-- Where a plain access may read. -/
def IsPlain (addr : Addr) : Prop := addr.toNat < 0x800 ∨ 0x6000 ≤ addr.toNat

/-- Where a plain access may write: not to ROM. -/
def IsPlainStore (addr : Addr) : Prop := addr.toNat < 0x800 ∨ (0x6000 ≤ addr.toNat ∧ addr.toNat < 0x8000)

/-- Reads and writes at plain addresses. -/
def Access.IsPlain : Access → Prop
  | .read _ addr _ => Nes.IsPlain addr
  | .write addr _ => IsPlainStore addr

instance : DecidablePred IsPlain := fun _ => inferInstanceAs (Decidable (_ ∨ _))

instance : DecidablePred IsPlainStore := fun _ => inferInstanceAs (Decidable (_ ∨ _))

instance : DecidablePred Access.IsPlain
  | .read _ addr _ => inferInstanceAs (Decidable (IsPlain addr))
  | .write addr _ => inferInstanceAs (Decidable (IsPlainStore addr))

theorem IsPlainStore.isPlain {addr : Addr} (h : IsPlainStore addr) : IsPlain addr := h.imp_right And.left

theorem IsPlain.not_register {addr : Addr} (h : IsPlain addr) : ¬(0x2000 ≤ addr.toNat ∧ addr.toNat < 0x4000) := by
  unfold IsPlain at h
  omega

/-- A cartridge with a byte for every address of its part, and a different one for each address of program RAM. -/
structure Cartridge.Fills (c : Cartridge) : Prop extends c.Sound where
  hasRom : 0 < c.header.prgBanks
  hasRam : 0x2000 ≤ c.prgRam.size

theorem Cartridge.Fills.keeps {c c' : Cartridge} (h : c.Fills) (hk : c'.Sound ∧ c.Keeps c') : c'.Fills :=
  { hk.1 with
    hasRom := hk.2.header ▸ h.hasRom
    hasRam := hk.2.prgRamSize ▸ h.hasRam }

section Cells

variable {c : Cartridge} {addr a b : Addr}

/-- The three parts of plain memory. -/
theorem Cartridge.Fills.cellOf_cases (h : c.Fills) (ha : IsPlain addr) :
    (addr.toNat < 0x800 ∧ cellOf (some c) addr = .ram addr.toNat) ∨
      (0x6000 ≤ addr.toNat ∧ addr.toNat < 0x8000 ∧ cellOf (some c) addr = .prgRam (addr.toNat - 0x6000)) ∨
        0x8000 ≤ addr.toNat ∧ ∃ index, cellOf (some c) addr = .prgRom index := by
  rcases ha with h2 | h6
  · exact .inl ⟨h2, cellOf_eq_ram_iff.mpr ⟨by omega, Nat.mod_eq_of_lt h2⟩⟩
  have hn6 : ¬addr.toNat < 0x6000 := Nat.not_lt_of_le h6
  by_cases h8 : addr.toNat < 0x8000
  · have hram := h.hasRam
    have hpos : 0 < c.prgRam.size := by omega
    have hmod : (addr.toNat - 0x6000) % c.prgRam.size = addr.toNat - 0x6000 := Nat.mod_eq_of_lt (by omega)
    exact .inr (.inl ⟨h6, h8, by simp [cellOf, Cartridge.cell, hn6, h8, hpos, hmod]⟩)
  · exact .inr (.inr ⟨Nat.le_of_not_lt h8, by simp [cellOf, Cartridge.cell, hn6, h8, h.hasRom]⟩)

theorem Cartridge.Fills.cellOf_ne_openBus (h : c.Fills) (ha : IsPlain addr) : cellOf (some c) addr ≠ .openBus := by
  rcases h.cellOf_cases ha with ⟨-, he⟩ | ⟨-, -, he⟩ | ⟨-, _, he⟩ <;> rw [he] <;> exact nofun

theorem Cartridge.Fills.cellOf_ne_prgRom (h : c.Fills) (ha : IsPlainStore addr) (index : Nat) :
    cellOf (some c) addr ≠ .prgRom index := by
  rcases h.cellOf_cases ha.isPlain with ⟨-, he⟩ | ⟨-, -, he⟩ | ⟨h8, -⟩
  · rw [he]; exact nofun
  · rw [he]; exact nofun
  · unfold IsPlainStore at ha
    omega

/-- No plain address is another name for one that may be written. -/
theorem Cartridge.Fills.cellOf_inj (h : c.Fills) (ha : IsPlainStore a) (hb : IsPlain b)
    (he : cellOf (some c) a = cellOf (some c) b) : a = b := by
  apply BitVec.eq_of_toNat_eq
  -- `a` lies in one of the two parts that can be written; in the same part the cells are numbered by the addresses
  rcases h.cellOf_cases ha.isPlain with ⟨-, hca⟩ | ⟨ha6, -, hca⟩ | ⟨-, index, hca⟩
  · rw [hca] at he
    rcases h.cellOf_cases hb with ⟨-, hcb⟩ | ⟨-, -, hcb⟩ | ⟨-, _, hcb⟩ <;> rw [hcb] at he
    · exact Cell.ram.inj he
    · cases he
    · cases he
  · rw [hca] at he
    rcases h.cellOf_cases hb with ⟨-, hcb⟩ | ⟨hb6, -, hcb⟩ | ⟨-, _, hcb⟩ <;> rw [hcb] at he
    · cases he
    · have := Cell.prgRam.inj he
      omega
    · cases he
  · exact absurd hca (h.cellOf_ne_prgRom ha index)

end Cells

/-! ## The device put aside -/

namespace MemoryMap

variable {δ : Type} [Device δ] {m : MemoryMap δ} {addr : Addr}

/-- The memory map with the plainest device in place of its own. -/
def bare (m : MemoryMap δ) : MemoryMap RegisterBlock := { m with device := {} }

/-- A plain access does not meet the device. -/
theorem read_bare (m : MemoryMap δ) (mode : ReadMode) (ha : IsPlain addr) :
    Bus.read mode addr m.bare = ((Bus.read mode addr m).1, (Bus.read mode addr m).2.bare) := by
  show MemoryMap.read mode addr m.bare = ((MemoryMap.read mode addr m).1, (MemoryMap.read mode addr m).2.bare)
  have hanswer : m.bare.answer mode addr = ((m.answer mode addr).1, (m.answer mode addr).2.bare) := by
    have hno := ha.not_register
    have hslot : m.bare.cartridge = m.cartridge := rfl
    unfold answer
    rw [hslot]
    cases m.cartridge.bind (·.read addr) with
    | some value => rfl
    | none =>
      by_cases h2 : addr < 0x2000
      · simp only [if_pos h2]
        rfl
      · have h4 : ¬addr < 0x4000 := fun h4 => hno ⟨Nat.le_of_not_lt h2, h4⟩
        simp only [if_neg h2, if_neg h4]
  unfold MemoryMap.read
  rw [hanswer]
  rcases m.answer mode addr with ⟨_ | value, m'⟩ <;> cases mode <;> rfl

theorem write_bare (m : MemoryMap δ) (ha : IsPlain addr) (value : Byte) :
    (Bus.write addr value m).bare = Bus.write addr value m.bare := by
  have hno := ha.not_register
  simp only [write_eq, bare, if_neg hno]

/-- At a plain address both kinds of read give what the cell holds. -/
theorem read_plain {c : Cartridge} (hc : m.cartridge = some c) (h : c.Fills) (mode : ReadMode) (ha : IsPlain addr) :
    (Bus.read mode addr m).1 = m.bare.content (cellOf (some c) addr) := by
  have hslot : m.bare.cartridge = some c := hc
  have hread := read_eq (hslot ▸ h.toSound.slot) mode addr
  rw [read_bare m mode ha, hslot] at hread
  exact hread

/-! ## Agreement -/

/-- The memory map holds what flat memory holds, at plain addresses. -/
def Agrees (flat : FlatMemory) (m : MemoryMap δ) : Prop :=
  ∃ c, m.cartridge = some c ∧ c.Fills ∧ ∀ addr, IsPlain addr → m.bare.content (cellOf (some c) addr) = flat.peek addr

variable {flat : FlatMemory}

theorem Agrees.read_eq (h : Agrees flat m) (mode : ReadMode) (ha : IsPlain addr) :
    (Bus.read mode addr m).1 = flat.peek addr := by
  obtain ⟨c, hc, hfills, hsame⟩ := h
  rw [read_plain hc hfills mode ha, hsame addr ha]

/-- A read changes the open bus at most, and no plain address is open. -/
theorem Agrees.read (h : Agrees flat m) (mode : ReadMode) (ha : IsPlain addr) :
    Agrees flat (Bus.read mode addr m).2 := by
  obtain ⟨c, hc, hfills, hsame⟩ := h
  have hslot : m.bare.cartridge = some c := hc
  have hs : SoundSlot m.bare.cartridge := hslot ▸ hfills.toSound.slot
  have hbare : (Bus.read mode addr m).2.bare = (Bus.read mode addr m.bare).2 := by rw [read_bare m mode ha]
  have hafter : ∃ value, (Bus.read mode addr m).2.bare = { m.bare with openBus := value } := by
    cases mode with
    | live => exact ⟨_, hbare.trans (read_live hs addr)⟩
    | view => exact ⟨m.openBus, hbare.trans (read_view hs addr)⟩
  obtain ⟨value, hafter⟩ := hafter
  refine ⟨c, (congrArg MemoryMap.cartridge hafter).trans hc, hfills, fun b hb => ?_⟩
  rw [hafter, content_openBus _ _ (hfills.cellOf_ne_openBus hb), hsame b hb]

/-- A write changes one cell, and no other plain address names it. -/
theorem Agrees.write (h : Agrees flat m) (value : Byte) (ha : IsPlainStore addr) :
    Agrees (Bus.write addr value flat) (Bus.write addr value m) := by
  obtain ⟨c, hc, hfills, hsame⟩ := h
  have hslot : m.bare.cartridge = some c := hc
  have hs : SoundSlot m.bare.cartridge := hslot ▸ hfills.toSound.slot
  have hcart : (Bus.write addr value m).cartridge = some (c.write addr value).2 := by
    rw [write_eq, hc]
    rfl
  have hfills' := hfills.keeps (hfills.toSound.write addr value)
  refine ⟨_, hcart, hfills', fun b hb => ?_⟩
  have hcell : cellOf (some (c.write addr value).2) b = cellOf (some c) b :=
    (hfills.toSound.slot.map fun c hc => hc.write addr value).2 b
  have hname : cellOf (some c) addr = cellOf (some c) b ↔ addr = b := ⟨hfills.cellOf_inj ha hb, fun h => h ▸ rfl⟩
  rw [hcell, write_bare m ha.isPlain, content_write hs, hslot, FlatMemory.write_eq, FlatMemory.peek_poke, ← hsame b hb]
  cases hcb : cellOf (some c) b with
  | openBus => exact absurd hcb (hfills.cellOf_ne_openBus hb)
  | prgRom index =>
    have : addr ≠ b := fun h => hfills.cellOf_ne_prgRom ha index (h ▸ hcb)
    simp [this]
  | _ => simp only [← hcb, hname]

/-- **On plain addresses the memory map is flat memory.** -/
theorem plain_simulation : Transaction.Simulation Access.IsPlain (Agrees : FlatMemory → MemoryMap δ → Prop) where
  value h ha := h.read_eq _ ha
  read h ha := h.read _ ha
  write h ha := h.write _ ha

end MemoryMap

/-! ## Runs -/

/-- **A processor that keeps to plain memory cannot tell the memory map from flat memory.** In the slot is a cartridge
that came of an image, with ROM and with 8 KiB of program RAM at least; flat memory holds what is seen at plain
addresses. If the traffic of the requests on flat memory is plain, then after each of them the answers, the processors
and the traffic are the same on both, and the memories still agree. -/
theorem Processor.serveAll_plain {δ : Type} [Device δ] (p : Processor) (flat : FlatMemory) (m : MemoryMap δ)
    (c : Cartridge) (hc : m.cartridge = some c) (himage : c.FromImage) (hrom : 0 < c.header.prgBanks)
    (hram : 0x2000 ≤ c.prgRam.size) (hsame : ∀ addr, IsPlain addr → (Bus.read .view addr m).1 = flat.peek addr)
    (requests : List Request)
    (hplain : ∀ access ∈ ((p.serveAll requests).run (Monitored.mk flat #[])).2.log, access.IsPlain) (k : Nat) :
    let onFlat := (p.serveAll (requests.take k)).run (Monitored.mk flat #[])
    let onMap := (p.serveAll (requests.take k)).run (Monitored.mk m #[])
    onMap.1 = onFlat.1 ∧ onMap.2.log = onFlat.2.log ∧
      ∀ addr, IsPlain addr → (Bus.read .view addr onMap.2.bus).1 = onFlat.2.bus.peek addr := by
  intro onFlat onMap
  have hfills : c.Fills := { himage.sound with hasRom := hrom, hasRam := hram }
  have hagrees : MemoryMap.Agrees flat m :=
    ⟨c, hc, hfills, fun addr ha => (MemoryMap.read_plain hc hfills .view ha).symm.trans (hsame addr ha)⟩
  have hrun : onMap.1 = onFlat.1 ∧ onMap.2.log = onFlat.2.log ∧ MemoryMap.Agrees onFlat.2.bus onMap.2.bus :=
    MemoryMap.plain_simulation.run _ hagrees rfl fun access h => hplain access (p.mem_log_serveAll requests k h)
  obtain ⟨hresult, hlog, hafter⟩ := hrun
  exact ⟨hresult, hlog, fun addr ha => hafter.read_eq .view ha⟩

/-! ## A run -/

/-- A bus that gives one byte everywhere and keeps nothing. -/
structure Steady where
  byte : Byte

instance : Bus Steady where
  read _ _ s := (s.byte, s)
  write _ _ s := s

def Access.SparesRom : Access → Prop
  | .read _ addr _ => 0x8000 ≤ addr.toNat
  | .write addr _ => addr.toNat < 0x8000

instance : DecidablePred Access.SparesRom
  | .read _ addr _ => inferInstanceAs (Decidable (_ ≤ addr.toNat))
  | .write addr _ => inferInstanceAs (Decidable (addr.toNat < _))

/-- ROM holds the byte of a steady bus throughout. -/
def Steady.InRom (s : Steady) (flat : FlatMemory) : Prop := ∀ addr : Addr, 0x8000 ≤ addr.toNat → flat.peek addr = s.byte

theorem steady_simulation : Transaction.Simulation Access.SparesRom Steady.InRom where
  value h ha := h _ ha
  read h _ := h
  write {addr value _ _} h ha b hb := by
    have hne : addr ≠ b := fun he => Nat.not_lt_of_le hb (he ▸ ha)
    rw [FlatMemory.write_eq, FlatMemory.peek_poke, if_neg hne]
    exact h b hb

/-- Flat memory that holds what is seen in a memory map. -/
def MemoryMap.flatten {δ : Type} [Device δ] (m : MemoryMap δ) : FlatMemory :=
  ⟨.ofFn fun i => (Bus.read .view (BitVec.ofFin i) m).1⟩

theorem MemoryMap.peek_flatten {δ : Type} [Device δ] (m : MemoryMap δ) (addr : Addr) :
    m.flatten.peek addr = (Bus.read .view addr m).1 := by
  simp [flatten, FlatMemory.peek]

namespace MemoryMap

theorem read_steadyRom {m : MemoryMap RegisterBlock} {c : Cartridge} {value : Byte} {addr : Addr}
    (hc : m.cartridge = some c) (hs : c.Sound) (hbanks : c.header.prgBanks = 1)
    (hrom : c.prgRom = .replicate 0x4000 value) (h8 : 0x8000 ≤ addr.toNat) : (Bus.read .view addr m).1 = value := by
  have hslot : SoundSlot m.cartridge := hc ▸ hs.slot
  have h6 : ¬addr.toNat < 0x6000 := by omega
  obtain ⟨index, hlt, hcell⟩ : ∃ index, index < 0x4000 ∧ cellOf m.cartridge addr = .prgRom index :=
    ⟨(addr.toNat - 0x8000) % 0x4000, Nat.mod_lt _ (by decide), by
      simp [cellOf, hc, Cartridge.cell, h6, Nat.not_lt_of_le h8, hbanks]⟩
  rw [read_eq hslot, hcell]
  simp [content, hc, hrom, hlt]

theorem inRom_sample : (Steady.mk 0xEA).InRom sample.flatten := by
  intro addr h8
  rw [peek_flatten]
  exact read_steadyRom cartridge_sample Cartridge.fromImage_sampleImage.sound Cartridge.prgBanks_sampleImage
    Cartridge.prgRom_sampleImage h8

end MemoryMap

namespace Processor

def sampleRequests : List Request := [.irq, .step, .nmi, .step, .reset]

/-- The run of the sample requests on a steady bus, which is computed. -/
def steadyRun : (List (Option Nat) × Processor) × Monitored Steady :=
  (({} : Processor).serveAll sampleRequests).run (Monitored.mk (Steady.mk 0xEA) #[])

theorem serveAll_sampleRequests {flat : FlatMemory} (h : (Steady.mk 0xEA).InRom flat) :
    let onFlat := (({} : Processor).serveAll sampleRequests).run (Monitored.mk flat #[])
    onFlat.1 = steadyRun.1 ∧ onFlat.2.log = steadyRun.2.log := by
  have hspares : ∀ access ∈ steadyRun.2.log, access.SparesRom := by decide
  have hstart : (Monitored.mk (Steady.mk 0xEA) #[]).bus.InRom (Monitored.mk flat #[]).bus := h
  have hrun := steady_simulation.run (({} : Processor).serveAll sampleRequests) hstart rfl hspares
  exact ⟨hrun.1, hrun.2.1⟩

/-- On the memory map with the sample cartridge each instruction costs two cycles. -/
theorem serveAll_plain_sample :
    ((({} : Processor).serveAll sampleRequests).run (Monitored.mk MemoryMap.sample #[])).1.1 =
      [none, some 2, none, some 2, none] := by
  obtain ⟨hresult, hlog⟩ := serveAll_sampleRequests MemoryMap.inRom_sample
  have hcosts : steadyRun.1.1 = [none, some 2, none, some 2, none] := by decide
  have hsteady : ∀ access ∈ steadyRun.2.log, access.IsPlain := by decide
  have hplain : ∀ access ∈ ((({} : Processor).serveAll sampleRequests).run
      (Monitored.mk MemoryMap.sample.flatten #[])).2.log, access.IsPlain := by
    rw [hlog]
    exact hsteady
  have hrom : 0 < (Cartridge.ofImage .strict sampleImage).header.prgBanks := by
    rw [Cartridge.prgBanks_sampleImage]
    decide
  have hram : 0x2000 ≤ (Cartridge.ofImage .strict sampleImage).prgRam.size :=
    Nat.le_of_eq Cartridge.size_prgRam_sampleImage.symm
  obtain ⟨hsame, -, -⟩ := serveAll_plain {} MemoryMap.sample.flatten MemoryMap.sample _ MemoryMap.cartridge_sample
    Cartridge.fromImage_sampleImage hrom hram (fun addr _ => (MemoryMap.sample.peek_flatten addr).symm)
    sampleRequests hplain sampleRequests.length
  rw [List.take_length] at hsame
  rw [hsame, hresult, hcosts]

end Processor

end Nes
