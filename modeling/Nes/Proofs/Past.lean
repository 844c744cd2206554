import Nes.Proofs.Commands
import Nes.Proofs.MasterClock

/-!
# The past of a console

A processor has a past: the cycles it has counted and the instructions it has recorded. Nothing that it does depends on
these. A processor that is put behind another past (`Processor.following`) does the same with the same bus, and counts and
records on from there (`Processor.execute_following`, `Processor.clock_following`). The same holds of a console and
everything it can be told (`Console.obeyAll_following`).

A reset leaves nothing of a console but its past, its memory and what is in the slot. If ROM answers at the reset vector,
it clears the open bus too (`Console.reset_eq`). So two consoles that hold the same bytes are the same after a reset, but
for their pasts (`Console.reset_erases_past`).
-/

namespace Nes

/-- What a processor has behind it. -/
structure Past where
  clockCount : Nat
  journal : Option (Array JournalEntry)

/-- An entry with its clock counted on from another count. -/
def JournalEntry.after (count : Nat) (e : JournalEntry) : JournalEntry := { e with clock := count + e.clock }

namespace Processor

def past (p : Processor) : Past := ⟨p.clockCount, p.journal⟩

/-- The processor as if all that it did were done behind a past. It has a journal if both have one. -/
def following (p : Processor) (past : Past) : Processor :=
  { p with
    clockCount := past.clockCount + p.clockCount
    journal := past.journal.bind fun old => p.journal.map fun new => old ++ new.map (.after past.clockCount) }

variable (p : Processor) (past : Past)

@[simp] theorem registers_following : (p.following past).registers = p.registers := rfl

@[simp] theorem clockCount_following : (p.following past).clockCount = past.clockCount + p.clockCount := rfl

@[simp] theorem complete_following : (p.following past).complete = p.complete := rfl

/-- A new processor behind a past is any processor with that past. -/
theorem recording_following (registers : Registers) (cycles : Nat) :
    ({ recording with registers, cycles } : Processor).following p.past = { p with registers, cycles } := by
  obtain ⟨_, _, clockCount, journal⟩ := p
  cases journal <;> simp [following, Processor.past, recording]

/-! ## What the processor does -/

/-- An entry is recorded with the clock of the processor that records it. -/
theorem record_following (e : JournalEntry) :
    (p.following past).record (e.after past.clockCount) = (p.record e).following past := by
  obtain ⟨count, old⟩ := past
  obtain ⟨registers, cycles, clockCount, new⟩ := p
  cases old <;> cases new <;> simp [following, record]

theorem tick_following : (p.following past).tick = p.tick.following past := rfl

theorem execute_following : (p.following past).execute = p.execute >>= fun q => .done (q.following past) := by
  -- what is written down of the instruction, in the two ways of counting
  have hrecord (pc : Addr) (opcode : Byte) (mnemonic : String) (r : Registers) (cycles : Nat) :
      (Processor.mk r cycles (past.clockCount + p.clockCount) (p.following past).journal).record
          (.ofRegisters (past.clockCount + p.clockCount) pc opcode mnemonic r) =
        ((Processor.mk r cycles p.clockCount p.journal).record
          (.ofRegisters p.clockCount pc opcode mnemonic r)).following past :=
    record_following ⟨r, cycles, p.clockCount, p.journal⟩ past (.ofRegisters p.clockCount pc opcode mnemonic r)
  simp only [execute, bind_assoc, registers_following, clockCount_following, Transaction.pure_eq, Transaction.done_bind,
    hrecord]

theorem clock_following : (p.following past).clock = p.clock >>= fun q => .done (q.following past) := by
  unfold clock
  rw [complete_following, execute_following]
  split <;> simp [tick_following]

theorem irq_following : (p.following past).irq = p.irq >>= fun q => .done (q.following past) := by
  unfold irq
  rw [registers_following]
  split
  · rfl
  · simp only [bind_assoc, Transaction.pure_eq, Transaction.done_bind]
    rfl

theorem nmi_following : (p.following past).nmi = p.nmi >>= fun q => .done (q.following past) := by
  simp only [nmi, registers_following, bind_assoc, Transaction.pure_eq, Transaction.done_bind]
  rfl

theorem reset_following : (p.following past).reset = p.reset >>= fun q => .done (q.following past) := by
  simp only [reset, bind_assoc, Transaction.pure_eq, Transaction.done_bind]
  rfl

theorem run_reset {β : Type} [Bus β] (bus : β) :
    p.reset.run bus =
      ({ p with
          registers := { sp := 0xFD, pc := ((Transaction.readWord resetVector).run bus).1, status := Flag.unused }
          cycles := 8 },
        ((Transaction.readWord resetVector).run bus).2) := by
  simp only [reset, Transaction.run_bind, Transaction.pure_eq, Transaction.run_done]

end Processor

/-! ## What the console does -/

/-- The memory map when the board and the device have been started again. -/
def MemoryMap.restart {δ : Type} [Device δ] (m : MemoryMap δ) : MemoryMap δ :=
  { m with cartridge := m.cartridge.map (·.reset), device := Device.reset m.device }

namespace Console

section Following

variable {δ : Type} (c : Console δ) (past : Past)

/-- The console with its processor behind a past. -/
def following : Console δ := { c with processor := c.processor.following past }

@[simp] theorem clock_following : (c.following past).clock = c.clock := rfl

@[simp] theorem memory_following : (c.following past).memory = c.memory := rfl

@[simp] theorem processor_following : (c.following past).processor = c.processor.following past := rfl

@[simp] theorem ticksFor_following (turns : Nat) : (c.following past).ticksFor turns = c.ticksFor turns := rfl

variable [Device δ]

theorem drive_following {t : Processor → Transaction Processor}
    (ht : t (c.processor.following past) = t c.processor >>= fun q => .done (q.following past)) :
    (c.following past).drive t = (c.drive t).following past := by
  simp only [drive, processor_following, memory_following, ht, Transaction.run_bind, Transaction.run_done]
  rfl

/-- The board and the device start again in the same way. -/
theorem reset_following : (c.following past).reset = c.reset.following past := by
  let restarted : Console δ := { c with memory := c.memory.restart }
  have hdrive := drive_following restarted past (t := (·.reset)) (restarted.processor.reset_following past)
  exact congrArg ({ · with clock := 0 }) hdrive

theorem tick_following : (c.following past).tick = c.tick.following past := by
  let ticked : Console δ := { c with memory := { c.memory with device := Device.tick c.memory.device } }
  have hdrive := drive_following ticked past (t := (·.clock)) (ticked.processor.clock_following past)
  have hturn : (c.following past).isProcessorTick = c.isProcessorTick := rfl
  unfold tick
  rw [hturn]
  split
  · exact congrArg (fun c' : Console δ => { c' with clock := c'.clock + 1 }) hdrive
  · rfl

theorem ticks_following (n : Nat) : (c.following past).ticks n = (c.ticks n).following past := by
  induction n generalizing c with
  | zero => rfl
  | succ n ih => rw [ticks, tick_following, ih, ticks]

theorem settle_following : (c.following past).settle = c.settle.following past := by
  rw [settle_eq, settle_eq, ticksFor_following, ticks_following]
  rfl

theorem toNextTurn_following : (c.following past).toNextTurn = c.toNextTurn.following past := by
  rw [toNextTurn_eq, toNextTurn_eq, ticksFor_following, ticks_following]

/-- A step says what it cost, which is a difference of counts. -/
theorem step_following : (c.following past).step = (c.step.1, c.step.2.following past) := by
  simp only [step, settle_following, toNextTurn_following, processor_following, Processor.clockCount_following,
    Nat.add_sub_add_left]

theorem run_following (count : Nat) : (c.following past).run count = (c.run count).following past := by
  induction count generalizing c with
  | zero => rfl
  | succ count ih => rw [run, step_following, ih, run]

/-- One command. -/
theorem obey_following (command : Command) :
    (c.following past).obey command = ((c.obey command).1, (c.obey command).2.following past) := by
  cases command with
  | tick => exact congrArg (Prod.mk _) (c.tick_following past)
  | step =>
    simp only [obey]
    rw [step_following]
  | run count => exact congrArg (Prod.mk _) (c.run_following past count)
  | reset => exact congrArg (Prod.mk _) (c.reset_following past)
  | irq => exact congrArg (Prod.mk _) (c.drive_following past (c.processor.irq_following past))
  | nmi => exact congrArg (Prod.mk _) (c.drive_following past (c.processor.nmi_following past))
  | insert cartridge => rfl
  | eject => rfl
  | call call =>
    cases call with
    | writeGraphics addr value =>
      obtain ⟨processor, ⟨ram, device, slot, openBus⟩, clock⟩ := c
      cases slot <;> rfl
    | _ => rfl
  | list first last => rfl

/-- **No reply depends on the past**, nor does anything that a console becomes. -/
theorem obeyAll_following (commands : List Command) :
    (c.following past).obeyAll commands = ((c.obeyAll commands).1, (c.obeyAll commands).2.following past) := by
  induction commands generalizing c with
  | nil => rfl
  | cons command rest ih => rw [obeyAll_cons, obey_following, ih, obeyAll_cons]

end Following

end Console

/-! ## Reset -/

/-- Two cartridges of one image with the same bytes in RAM; the selected banks may differ. -/
structure Cartridge.SameBytes (k k' : Cartridge) : Prop where
  header : k'.header = k.header
  prgRom : k'.prgRom = k.prgRom
  prgRam : k'.prgRam = k.prgRam
  chr : k'.chr = k.chr

/-- A reset leaves no difference between boards of one kind on one layout. -/
theorem Board.reset_congr {b b' : Board} (hlayout : b'.layout = b.layout) (hmapper : b'.mapper = b.mapper) :
    b'.reset = b.reset := by
  cases b <;> cases b' <;> simp_all [layout, mapper, reset]

theorem Cartridge.SameBytes.reset_eq {k k' : Cartridge} (h : k.SameBytes k') (hk : k.Sound) (hk' : k'.Sound) :
    k'.reset = k.reset := by
  have hboard : k'.board.reset = k.board.reset := by
    apply Board.reset_congr
    · rw [hk'.layout, hk.layout, h.header]
    · rw [hk'.mapper, hk.mapper, h.header]
  have hflag : k'.chrIsRam = k.chrIsRam := by
    rw [Bool.eq_iff_iff, hk'.chrIsRam, hk.chrIsRam, h.header]
  simp only [reset, hboard, h.header, h.prgRom, h.prgRam, h.chr, hflag]

/-- A write to ROM changes the selected bank at most. -/
theorem Cartridge.sameBytes_write (k : Cartridge) {addr : Addr} (h : 0x8000 ≤ addr) (value : Byte) :
    k.SameBytes (k.write addr value).2 := by
  rcases k.write_cases addr value with ⟨offset, ht, -⟩ | ⟨bank, -, -, -, he⟩ | ⟨offset, -, he⟩ | ⟨-, he⟩
  · exact absurd ht (Layout.target_ne_ram h)
  · rw [he]
    exact ⟨rfl, rfl, rfl, rfl⟩
  · rw [he]
    exact ⟨rfl, rfl, rfl, rfl⟩
  · rw [he]
    exact ⟨rfl, rfl, rfl, rfl⟩

theorem Cartridge.FromImage.write {k : Cartridge} (h : k.FromImage) (addr : Addr) (value : Byte) :
    (k.write addr value).2.FromImage := by
  obtain ⟨strictness, image, k₀, calls, hload, rfl⟩ := h
  refine ⟨strictness, image, k₀, calls ++ [.write addr value], hload, ?_⟩
  rw [performAll, performAll, List.foldl_append]
  rfl

namespace MemoryMap

variable {m : MemoryMap RegisterBlock}

/-- Where something answers, a live read does not see what was on the bus, and leaves nothing of it. -/
theorem read_live_openBus (hs : SoundSlot m.cartridge) {addr : Addr} (hcell : cellOf m.cartridge addr ≠ .openBus)
    (value : Byte) : Bus.read .live addr { m with openBus := value } = Bus.read .live addr m := by
  have hs' : SoundSlot { m with openBus := value }.cartridge := hs
  have hcontent := m.content_openBus value hcell
  apply Prod.ext
  · rw [read_eq hs', read_eq hs]
    exact hcontent
  · rw [read_live hs', read_live hs]
    exact congrArg (fun b => { m with openBus := b }) hcontent

/-- ROM answers from `$8000` on, if there is any. -/
theorem cellOf_rom {k : Cartridge} (hbanks : 0 < k.header.prgBanks) {addr : Addr} (h : 0x8000 ≤ addr.toNat) :
    cellOf (some k) addr ≠ .openBus := by
  have h6 : ¬addr.toNat < 0x6000 := by omega
  have h8 : ¬addr.toNat < 0x8000 := by omega
  simp [cellOf, Cartridge.cell, h6, h8, hbanks]

/-- The word at a vector does not depend on what was on the bus. -/
theorem readWord_openBus (hs : SoundSlot m.cartridge) {addr : Addr} (hcell : cellOf m.cartridge addr ≠ .openBus)
    (value : Byte) : (Transaction.readWord addr).run { m with openBus := value } = (Transaction.readWord addr).run m := by
  simp only [Transaction.readWord, Transaction.read, Transaction.reading_bind, Transaction.done_bind,
    Transaction.run_reading, read_live_openBus hs hcell]

end MemoryMap

namespace Console

theorem reset_eq_restart {δ : Type} [Device δ] (c : Console δ) :
    c.reset = ⟨(c.processor.reset.run c.memory.restart).1, (c.processor.reset.run c.memory.restart).2, 0⟩ := rfl

/-- A console with the given bytes as a reset leaves it, with nothing behind it. -/
def restarted (ram : WorkRam) (k : Cartridge) : Console RegisterBlock :=
  reset { processor := .recording, memory := { ram, device := {}, cartridge := some k } }

theorem restarted_congr {k k' : Cartridge} (h : k'.reset = k.reset) (ram : WorkRam) :
    restarted ram k' = restarted ram k := by
  simp only [restarted, reset, Option.map_some, h]

/-- **After a reset there is the past and nothing else**, but for what is in memory and in the slot. -/
theorem reset_eq {c : Console RegisterBlock} {k : Cartridge} (hslot : c.memory.cartridge = some k) (hk : k.Sound)
    (hbanks : 0 < k.header.prgBanks) : c.reset = (restarted c.memory.ram k).following c.processor.past := by
  obtain ⟨p, ⟨ram, device, slot, openBus⟩, clock⟩ := c
  obtain rfl : slot = some k := hslot
  -- the processor starts on this, with another byte on the bus
  let m : MemoryMap RegisterBlock := { ram, device := {}, cartridge := some k.reset }
  have hs : SoundSlot m.cartridge := hk.reset.1.slot
  have hcell : cellOf m.cartridge resetVector ≠ .openBus := MemoryMap.cellOf_rom hbanks (by decide)
  have hword := MemoryMap.readWord_openBus hs hcell openBus
  have hreset : p.reset.run { m with openBus } =
      ((Processor.recording.reset.run m).1.following p.past, (Processor.recording.reset.run m).2) := by
    rw [Processor.run_reset, Processor.run_reset, hword, p.recording_following]
  exact congrArg (fun r : Processor × MemoryMap RegisterBlock => Console.mk r.1 r.2 0) hreset

/-- A reset changes no byte of storage. -/
theorem reset_keeps {δ : Type} [Device δ] (c : Console δ) :
    c.reset.memory.ram = c.memory.ram ∧ c.reset.memory.cartridge = c.memory.cartridge.map (·.reset) := by
  have hmemory : c.reset.memory =
      (Bus.read .live (resetVector + 1) (Bus.read .live resetVector c.memory.restart).2).2 := by
    rw [reset_eq_restart, Processor.run_reset]
    rfl
  obtain ⟨device, openBus, hfirst⟩ := c.memory.restart.read_keeps .live resetVector
  obtain ⟨device', openBus', hsecond⟩ :=
    (Bus.read .live resetVector c.memory.restart).2.read_keeps .live (resetVector + 1)
  rw [hmemory, hsecond, hfirst]
  exact ⟨rfl, rfl⟩

/-! ## Two consoles -/

/-- Two consoles whose processors had different pasts once, and have had the same future since. -/
structure DifferInPast (past past' : Past) (c c' : Console RegisterBlock) : Prop where
  memory : c'.memory = c.memory
  clock : c'.clock = c.clock
  registers : c'.processor.registers = c.processor.registers
  cycles : c'.processor.cycles = c.processor.cycles
  /-- The counts differ by what they differed in the past. -/
  counted : c'.processor.clockCount + past.clockCount = c.processor.clockCount + past'.clockCount
  /-- Where both keep a journal, the same was added to them, dated by their own clocks. -/
  recorded : ∀ journal journal', c.processor.journal = some journal → c'.processor.journal = some journal' →
    ∃ (old old' new : Array JournalEntry), past.journal = some old ∧ past'.journal = some old' ∧
      journal = old ++ new.map (.after past.clockCount) ∧ journal' = old' ++ new.map (.after past'.clockCount)

theorem differInPast_following (c : Console RegisterBlock) (past past' : Past) :
    DifferInPast past past' (c.following past) (c.following past') where
  memory := rfl
  clock := rfl
  registers := rfl
  cycles := rfl
  counted := by
    simp only [processor_following, Processor.clockCount_following]
    omega
  recorded := by
    intro journal journal' hjournal hjournal'
    obtain ⟨old, hold, hmap⟩ := Option.bind_eq_some_iff.mp hjournal
    obtain ⟨old', hold', hmap'⟩ := Option.bind_eq_some_iff.mp hjournal'
    obtain ⟨new, hnew, rfl⟩ := Option.map_eq_some_iff.mp hmap
    obtain ⟨new', hnew', rfl⟩ := Option.map_eq_some_iff.mp hmap'
    obtain rfl : new' = new := Option.some.inj (hnew'.symm.trans hnew)
    exact ⟨old, old', new', hold, hold', rfl, rfl⟩

/-- **A reset erases the past.** Two consoles with register blocks have the same bytes in work RAM, and in their slots
cartridges of one image, with ROM, that hold the same bytes. After a reset of each, whatever they are told: they give the
same replies, and end in states that differ in what lies before the reset alone. The reset itself changes no RAM. -/
theorem reset_erases_past (c c' : Console RegisterBlock) (k k' : Cartridge) (hslot : c.memory.cartridge = some k)
    (hslot' : c'.memory.cartridge = some k') (himage : k.FromImage) (himage' : k'.FromImage)
    (hram : c'.memory.ram = c.memory.ram) (hsame : k.SameBytes k') (hbanks : 0 < k.header.prgBanks)
    (commands : List Command) :
    let run := c.reset.obeyAll commands
    let run' := c'.reset.obeyAll commands
    run'.1 = run.1 ∧ DifferInPast c.processor.past c'.processor.past run.2 run'.2 ∧
      c.reset.memory.ram = c.memory.ram ∧
      ∃ k₀, c.reset.memory.cartridge = some k₀ ∧ k.SameBytes k₀ ∧ k₀.chrIsRam = k.chrIsRam := by
  intro run run'
  have hbanks' : 0 < k'.header.prgBanks := hsame.header ▸ hbanks
  have hreset : c.reset = (restarted c.memory.ram k).following c.processor.past := reset_eq hslot himage.sound hbanks
  have hreset' : c'.reset = (restarted c.memory.ram k).following c'.processor.past := by
    rw [reset_eq hslot' himage'.sound hbanks', hram, restarted_congr (hsame.reset_eq himage.sound himage'.sound)]
  have hrun : run = (((restarted c.memory.ram k).obeyAll commands).1,
      ((restarted c.memory.ram k).obeyAll commands).2.following c.processor.past) := by
    rw [← obeyAll_following, ← hreset]
  have hrun' : run' = (((restarted c.memory.ram k).obeyAll commands).1,
      ((restarted c.memory.ram k).obeyAll commands).2.following c'.processor.past) := by
    rw [← obeyAll_following, ← hreset']
  obtain ⟨hkeepRam, hkeepSlot⟩ := c.reset_keeps
  rw [hslot] at hkeepSlot
  refine ⟨?_, ?_, hkeepRam, k.reset, hkeepSlot, ⟨rfl, rfl, rfl, rfl⟩, rfl⟩
  · rw [hrun, hrun']
  · rw [hrun, hrun']
    exact differInPast_following _ _ _

/-- A console in the middle of something, with the second bank selected. -/
def sampleBusy : Console RegisterBlock where
  processor := { registers := { a := 0x11, sp := 0x03, pc := 0x1234, status := 0xE7 }, cycles := 5, clockCount := 1000 }
  memory := { MemoryMap.sample with
    device := { registers := .replicate 8 0x99, ticks := 77 }
    cartridge := some ((Cartridge.ofImage .strict sampleImage).write 0x8000 0x01).2
    openBus := 0x5A }
  clock := 2

theorem reset_erases_past_sample :
    let commands : List Command := [.tick, .call (.write 0x8000 0x03), .step, .nmi, .run 2, .list 0x8000 0x80FF, .irq]
    (sampleBusy.reset.obeyAll commands).1 = (sample.reset.obeyAll commands).1 ∧
      (sampleBusy.reset.obeyAll commands).2.processor.clockCount =
        (sample.reset.obeyAll commands).2.processor.clockCount + 1000 := by
  intro commands
  have himage : (Cartridge.ofImage .strict sampleImage).FromImage := Cartridge.fromImage_sampleImage
  have hbanks : 0 < (Cartridge.ofImage .strict sampleImage).header.prgBanks := by
    rw [Cartridge.prgBanks_sampleImage]
    decide
  obtain ⟨hreplies, hstates, -, -⟩ := reset_erases_past sample sampleBusy _ _ rfl rfl himage
    (himage.write 0x8000 0x01) rfl (Cartridge.sameBytes_write _ (by decide) 0x01) hbanks commands
  have hcounted := hstates.counted
  have hnone : sample.processor.past.clockCount = 0 := rfl
  have hsome : sampleBusy.processor.past.clockCount = 1000 := rfl
  rw [hnone, hsome, Nat.add_zero] at hcounted
  exact ⟨hreplies, hcounted⟩

end Console

end Nes
