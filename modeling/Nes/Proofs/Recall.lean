import Nes.Proofs.Cells
import Nes.Console.Basic

/-!
# What a read recalls

The console is used from outside by reads and writes of both sides. Every use leaves an event, and the events so far
say what each cell must hold (`remembered`): the byte written last under one of its names, in ROM what was there from
the start, on an open bus the byte that the running machine moved last.

`Recalls` is the invariant of a run: every cell holds what it must. Each call keeps it (`Recalls.call`), so each read of
a run gives what the events before it say (`Console.read_recalls`).
-/

namespace Nes

namespace Console

/-! ## Calls and events -/

/-- A use of the console from outside; a read as a view is what a debugger does. -/
inductive Call
  | read (mode : ReadMode) (addr : Addr)
  | write (addr : Addr) (value : Byte)
  | readGraphics (addr : Addr)
  | writeGraphics (addr : Addr) (value : Byte)

/-- What a call did. -/
inductive Event
  | moved (access : Access)
  | graphicsRead (addr : Addr) (value : Byte)
  | graphicsWrite (addr : Addr) (value : Byte) (taken : Bool)

section

variable {δ : Type} [Device δ]

/-- One call. -/
def call (c : Console δ) : Call → Event × Console δ
  | .read mode addr =>
    let (value, c) := Bus.read mode addr c
    (.moved (.read mode addr value), c)
  | .write addr value => (.moved (.write addr value), Bus.write addr value c)
  | .readGraphics addr => (.graphicsRead addr (c.readGraphics addr), c)
  | .writeGraphics addr value =>
    let (taken, c) := c.writeGraphics addr value
    (.graphicsWrite addr value taken, c)

/-- A sequence of calls. -/
def play (c : Console δ) : List Call → List Event × Console δ
  | [] => ([], c)
  | first :: rest =>
    let (event, c) := c.call first
    let (events, c) := c.play rest
    (event :: events, c)

end

/-! ## What the events say -/

namespace Event

/-- The byte that an event wrote under a name of the cell. -/
def written (slot : Option Cartridge) (cell : Cell) : Event → Option Byte
  | .moved (.write addr value) => if cellOf slot addr = cell then some value else none
  | _ => none

/-- The byte that the running machine moved. -/
def transferred : Event → Option Byte
  | .moved (.write _ value) | .moved (.read .live _ value) => some value
  | _ => none

/-- The byte that an event leaves in a cell. -/
def leaves (slot : Option Cartridge) (cell : Cell) (event : Event) : Option Byte :=
  match cell with
  | .prgRom _ => none
  | .openBus => event.transferred
  | _ => event.written slot cell

end Event

theorem Event.getD_written (slot : Option Cartridge) (cell : Cell) (addr : Addr) (value b : Byte) :
    (Event.written slot cell (.moved (.write addr value))).getD b = if cellOf slot addr = cell then value else b := by
  simp only [Event.written]
  split <;> rfl

/-- The latest of what the elements of a list leave, when the list grows at its end. -/
theorem getD_findSome?_reverse_concat {ε γ : Type} (leaves : ε → Option γ) (past : List ε) (last : ε) (start : γ) :
    ((past ++ [last]).reverse.findSome? leaves).getD start =
      (leaves last).getD ((past.reverse.findSome? leaves).getD start) := by
  rw [List.reverse_append, List.reverse_singleton, List.singleton_append, List.findSome?_cons]
  cases leaves last <;> rfl

/-- What an address must give after the events `past`: what the latest event that left something in its cell left there,
and what the cell held at the start if there is none. -/
def remembered (start : MemoryMap RegisterBlock) (past : List Event) (addr : Addr) : Byte :=
  (past.reverse.findSome? (Event.leaves start.cartridge (cellOf start.cartridge addr))).getD
    (start.content (cellOf start.cartridge addr))

theorem remembered_concat (start : MemoryMap RegisterBlock) (past : List Event) (event : Event) (addr : Addr) :
    remembered start (past ++ [event]) addr =
      (event.leaves start.cartridge (cellOf start.cartridge addr)).getD (remembered start past addr) := by
  unfold remembered
  rw [getD_findSome?_reverse_concat]

/-! ## The invariant -/

theorem memory_writeGraphics {δ : Type} (c : Console δ) (addr : Addr) (value : Byte) :
    (c.writeGraphics addr value).2.memory =
      { c.memory with cartridge := c.memory.cartridge.map fun k => (k.writeGraphics (graphicsAddr addr) value).2 } := by
  obtain ⟨processor, ⟨ram, device, slot, openBus⟩, clock⟩ := c
  cases slot <;> rfl

/-- Every cell holds what the events since `start` say. -/
structure Recalls (start : MemoryMap RegisterBlock) (past : List Event) (m : MemoryMap RegisterBlock) : Prop where
  slot : SoundSlot m.cartridge
  cells : ∀ addr, cellOf m.cartridge addr = cellOf start.cartridge addr
  holds : ∀ addr, m.content (cellOf start.cartridge addr) = remembered start past addr

variable {start m m' : MemoryMap RegisterBlock} {past : List Event} {c : Console RegisterBlock}

theorem Recalls.refl (hs : SoundSlot m.cartridge) : Recalls m [] m := ⟨hs, fun _ => rfl, fun _ => rfl⟩

/-- An event that leaves in every cell what the memory map then holds keeps the invariant. -/
theorem Recalls.concat (h : Recalls start past m) {event : Event} (hs : SoundSlot m'.cartridge)
    (hcells : ∀ addr, cellOf m'.cartridge addr = cellOf m.cartridge addr)
    (hcontent : ∀ cell, m'.content cell = (event.leaves start.cartridge cell).getD (m.content cell)) :
    Recalls start (past ++ [event]) m' := by
  refine ⟨hs, fun addr => (hcells addr).trans (h.cells addr), fun addr => ?_⟩
  rw [remembered_concat, hcontent, h.holds]

/-- One call. -/
theorem Recalls.call (h : Recalls start past c.memory) (call : Call) :
    Recalls start (past ++ [(c.call call).1]) (c.call call).2.memory := by
  cases call with
  | read mode addr =>
    cases mode with
    | live =>
      have he : (c.call (.read .live addr)).2.memory =
          { c.memory with openBus := c.memory.content (cellOf c.memory.cartridge addr) } :=
        MemoryMap.read_live h.slot addr
      have hv : (Bus.read .live addr c).1 = c.memory.content (cellOf c.memory.cartridge addr) :=
        MemoryMap.read_eq h.slot .live addr
      rw [he]
      refine h.concat h.slot (fun _ => rfl) fun cell => ?_
      cases cell with
      | openBus => exact hv.symm
      | _ => rfl
    | view =>
      have he : (c.call (.read .view addr)).2.memory = c.memory := MemoryMap.read_view h.slot addr
      rw [he]
      refine h.concat h.slot (fun _ => rfl) fun cell => ?_
      cases cell <;> rfl
  | write addr value =>
    have hslot := h.slot.map fun c hc => hc.write addr value
    have he : (c.call (.write addr value)).2.memory = Bus.write addr value c.memory := rfl
    have hcart : (Bus.write addr value c.memory).cartridge =
        c.memory.cartridge.map fun c => (c.write addr value).2 := by
      rw [MemoryMap.write_eq]
    rw [he]
    refine h.concat (hcart ▸ hslot.1) (hcart ▸ hslot.2) fun cell => ?_
    rw [MemoryMap.content_write h.slot, h.cells]
    cases cell with
    | prgRom index => rfl
    | openBus => rfl
    | _ => exact (Event.getD_written _ _ _ _ _).symm
  | readGraphics addr =>
    refine h.concat h.slot (fun _ => rfl) fun cell => ?_
    cases cell <;> rfl
  | writeGraphics addr value =>
    have hslot := h.slot.map fun c hc => hc.writeGraphics (graphicsAddr addr) value
    have he : (c.call (.writeGraphics addr value)).2.memory =
        { c.memory with cartridge := c.memory.cartridge.map fun k => (k.writeGraphics (graphicsAddr addr) value).2 } :=
      memory_writeGraphics c addr value
    rw [he]
    refine h.concat hslot.1 hslot.2 fun cell => ?_
    rw [MemoryMap.content_map_cartridge]
    · cases cell <;> rfl
    · intro k hk
      exact ⟨k.prgRam_writeGraphics _ value, ((h.slot k hk).writeGraphics _ value).2.prgRom⟩

/-- One read: the events before it say what it gives. -/
theorem Recalls.read_eq (h : Recalls start past c.memory) (mode : ReadMode) (addr : Addr) :
    (c.call (.read mode addr)).1 = .moved (.read mode addr (remembered start past addr)) := by
  have hv : (Bus.read mode addr c).1 = c.memory.content (cellOf c.memory.cartridge addr) :=
    MemoryMap.read_eq h.slot mode addr
  rw [h.cells, h.holds] at hv
  rw [← hv]
  rfl

/-- Every run: the events of `calls` are read against what went before. -/
theorem Recalls.play (h : Recalls start past c.memory) {calls : List Call} {i : Nat} {mode : ReadMode} {addr : Addr}
    (hi : calls[i]? = some (.read mode addr)) :
    (c.play calls).1[i]? =
      some (.moved (.read mode addr (remembered start (past ++ (c.play calls).1.take i) addr))) := by
  induction calls generalizing c past i with
  | nil => simp at hi
  | cons first rest ih =>
    have hplay : (c.play (first :: rest)).1 = (c.call first).1 :: ((c.call first).2.play rest).1 := rfl
    rw [hplay]
    cases i with
    | zero =>
      obtain rfl : first = .read mode addr := by simpa using hi
      simp [h.read_eq]
    | succ i =>
      have := ih (h.call first) (by simpa using hi)
      simpa using this

/-- **Reads recall the past.** A console has a register block, and nothing in the slot or a cartridge that came of an
image. In every sequence of calls, each read of the processor's side gives what the events before it say of its
address. -/
theorem read_recalls (c : Console RegisterBlock) (hslot : ∀ k, c.memory.cartridge = some k → k.FromImage)
    (calls : List Call) (i : Nat) (mode : ReadMode) (addr : Addr) (hi : calls[i]? = some (.read mode addr)) :
    (c.play calls).1[i]? = some (.moved (.read mode addr (remembered c.memory ((c.play calls).1.take i) addr))) := by
  have hs : SoundSlot c.memory.cartridge := fun k hk => (hslot k hk).sound
  simpa using (Recalls.refl hs).play hi

/-! ## A run -/

/-- A console with the sample cartridge in its slot. -/
def sample : Console RegisterBlock := { memory := .sample }

/-- Work RAM is written under another name than it is read under, with a view of the open bus and a write to ROM in
between. -/
def sampleCalls : List Call :=
  [.write 0x1801 0x42, .writeGraphics 0 9, .read .view 0x5000, .write 0x8000 0x17, .read .live 0x0001]

theorem remembered_sampleCalls (hopen : cellOf c.memory.cartridge 0x5000 = .openBus)
    (hram : cellOf c.memory.cartridge 0x0001 = .ram 1) :
    remembered c.memory ((c.play sampleCalls).1.take 2) 0x5000 = 0x42 ∧
      remembered c.memory ((c.play sampleCalls).1.take 4) 0x0001 = 0x42 := by
  constructor
  · rw [remembered, hopen]
    simp [play, sampleCalls, call, List.findSome?, Event.leaves, Event.transferred]
  · rw [remembered, hram]
    simp [play, sampleCalls, call, List.findSome?, Event.leaves, Event.written, cellOf_eq_ram_iff]

theorem read_recalls_sample :
    (sample.play sampleCalls).1[2]? = some (.moved (.read .view 0x5000 0x42)) ∧
      (sample.play sampleCalls).1[4]? = some (.moved (.read .live 0x0001 0x42)) := by
  have hcart : sample.memory.cartridge = some (.ofImage .strict sampleImage) := rfl
  have hslot : ∀ k, sample.memory.cartridge = some k → k.FromImage := by
    intro k hk
    rw [hcart, Option.some.injEq] at hk
    exact hk ▸ Cartridge.fromImage_sampleImage
  have hopen : cellOf sample.memory.cartridge 0x5000 = .openBus := by
    simp [cellOf, hcart, Cartridge.cell, consoleCell]
  have hram : cellOf sample.memory.cartridge 0x0001 = .ram 1 := cellOf_eq_ram_iff.mpr (by decide)
  obtain ⟨hview, hlive⟩ := remembered_sampleCalls hopen hram
  constructor
  · rw [read_recalls sample hslot sampleCalls 2 .view 0x5000 rfl, hview]
  · rw [read_recalls sample hslot sampleCalls 4 .live 0x0001 rfl, hlive]

end Console

end Nes
