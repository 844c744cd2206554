import Nes.Proofs.Stack

/-!
# The stack as a stack

The stack page and the stack pointer are meant to be a stack of bytes. `ByteStack` is what is meant: a list, the top
first. `ByteStack.Models` says that a processor's registers and a bus with RAM at the stack page are such a stack, with
the pointer where it was when the stack was empty, less the bytes that are held.

* One byte pushed or popped keeps this (`ByteStack.Models.push`, `ByteStack.Models.pop`). The places of the bytes follow
  each other round the page, so that a byte pushed on fewer than 256 others lies on none of them.
* Hence so does every call (`ByteStack.Models.call`) and every run of calls (`ByteStack.Models.callAll`), if the calls
  fit: they neither take more than was put nor put more than 256 bytes (`ByteStack.Fits`).

So calls that fit are answered as by the list, and change nothing outside the stack page (`Registers.stack_lifo`).
-/

namespace Nes

/-! ## Calls -/

/-- A use of the stack. -/
inductive StackCall
  | push (value : Byte)
  | pushWord (value : Addr)
  | pop
  | popWord
  deriving DecidableEq

/-- What a use of the stack gives back. -/
inductive StackCall.Answer
  | nothing
  | byte (value : Byte)
  | word (value : Addr)
  deriving DecidableEq

namespace Registers

/-- Carries out a call. -/
def call (r : Registers) : StackCall → Transaction (StackCall.Answer × Registers)
  | .push value => do
    let r ← r.push value
    return (.nothing, r)
  | .pushWord value => do
    let r ← r.pushWord value
    return (.nothing, r)
  | .pop => do
    let (value, r) ← r.pop
    return (.byte value, r)
  | .popWord => do
    let (value, r) ← r.popWord
    return (.word value, r)

/-- Carries out calls in order. -/
def callAll (r : Registers) : List StackCall → Transaction (List StackCall.Answer × Registers)
  | [] => return ([], r)
  | call :: rest => do
    let (answer, r) ← r.call call
    let (answers, r) ← r.callAll rest
    return (answer :: answers, r)

theorem run_callAll_cons {β : Type} [Bus β] (r : Registers) (call : StackCall) (rest : List StackCall) (bus : β) :
    let first := (r.call call).run bus
    let others := (first.1.2.callAll rest).run first.2
    (r.callAll (call :: rest)).run bus = ((first.1.1 :: others.1.1, others.1.2), others.2) := by
  simp only [callAll, Transaction.run_bind, Transaction.pure_eq, Transaction.run_done]

end Registers

/-! ## Lists as stacks -/

namespace ByteStack

open StackCall

/-- A call on a list of bytes, the top first. It fails if there are too few. The high byte of a word is pushed first. -/
def call : StackCall → List Byte → Option (Answer × List Byte)
  | .push value, held => some (.nothing, value :: held)
  | .pushWord value, held => some (.nothing, value.low :: value.high :: held)
  | .pop, value :: held => some (.byte value, held)
  | .popWord, low :: high :: held => some (.word (.ofBytes low high), held)
  | _, _ => none

/-- Calls in order on a list of bytes. -/
def callAll : List StackCall → List Byte → Option (List Answer × List Byte)
  | [], held => some ([], held)
  | c :: rest, held => do
    let (answer, held) ← call c held
    let (answers, held) ← callAll rest held
    return (answer :: answers, held)

section

variable {c : StackCall} {rest : List StackCall} {held held' mid last : List Byte} {answer : Answer}
  {answers answers' : List Answer}

theorem callAll_cons (hcall : call c held = some (answer, held')) (hrest : callAll rest held' = some (answers, last)) :
    callAll (c :: rest) held = some (answer :: answers, last) := by
  simp only [callAll, hcall, hrest, Option.bind_eq_bind, Option.bind_some]
  rfl

/-- Calls behind others. -/
theorem callAll_append {first : List StackCall} (hfirst : callAll first held = some (answers, mid))
    (hrest : callAll rest mid = some (answers', last)) :
    callAll (first ++ rest) held = some (answers ++ answers', last) := by
  induction first generalizing held answers with
  | nil =>
    cases hfirst
    exact hrest
  | cons c first ih =>
    simp only [callAll, Option.bind_eq_bind, Option.bind_eq_some_iff] at hfirst
    obtain ⟨⟨answer, held'⟩, hcall, ⟨answers₁, _⟩, hothers, hboth⟩ := hfirst
    cases hboth
    exact callAll_cons hcall (ih hothers)

/-- Bytes that are pushed one after another lie on each other. -/
theorem callAll_pushes (bytes held : List Byte) :
    callAll (bytes.map .push) held = some (bytes.map fun _ => .nothing, bytes.reverse ++ held) := by
  induction bytes generalizing held with
  | nil => rfl
  | cons value bytes ih =>
    rw [List.reverse_cons, List.append_assoc]
    exact callAll_cons rfl (ih (value :: held))

/-- The bytes that are held are popped from the top. -/
theorem callAll_pops (held : List Byte) : callAll (.replicate held.length .pop) held = some (held.map .byte, []) := by
  induction held with
  | nil => rfl
  | cons value held ih => exact callAll_cons rfl ih

/-- A word comes back whole, or its low byte first. -/
theorem callAll_word (held : List Byte) (value : Addr) :
    callAll [.pushWord value, .popWord] held = some ([.nothing, .word value], held) ∧
      callAll [.pushWord value, .pop, .pop] held = some ([.nothing, .byte value.low, .byte value.high], held) := by
  have hpopWord : call .popWord (value.low :: value.high :: held) = some (.word value, held) :=
    congrArg (fun word => some (Answer.word word, held)) value.ofBytes_low_high
  exact ⟨callAll_cons rfl (callAll_cons hpopWord rfl), rfl⟩

end

/-! ## Calls that fit -/

/-- How many bytes more a call leaves. -/
def change : StackCall → Int
  | .push _ => 1
  | .pushWord _ => 2
  | .pop => -1
  | .popWord => -2

/-- From a number of bytes on, there are never fewer than none and never more than 256. -/
def Fits (bytes : Int) : List StackCall → Prop
  | [] => 0 ≤ bytes ∧ bytes ≤ 0x100
  | c :: rest => (0 ≤ bytes ∧ bytes ≤ 0x100) ∧ Fits (bytes + change c) rest

instance decidableFits : (bytes : Int) → (calls : List StackCall) → Decidable (Fits bytes calls)
  | bytes, [] => inferInstanceAs (Decidable (0 ≤ bytes ∧ bytes ≤ 0x100))
  | bytes, c :: rest =>
    have := decidableFits (bytes + change c) rest
    inferInstanceAs (Decidable ((0 ≤ bytes ∧ bytes ≤ 0x100) ∧ Fits (bytes + change c) rest))

section

variable {bytes : Int} {c : StackCall} {calls rest : List StackCall} {held : List Byte}

theorem Fits.bounds (h : Fits bytes calls) : 0 ≤ bytes ∧ bytes ≤ 0x100 := by
  cases calls with
  | nil => exact h
  | cons c rest => exact h.1

theorem Fits.of_append (h : Fits bytes (calls ++ rest)) : Fits bytes calls := by
  induction calls generalizing bytes with
  | nil => exact h.bounds
  | cons c calls ih => exact ⟨h.1, ih h.2⟩

/-- Where there is room for a word it can be popped again. -/
theorem Fits.pop_word {value : Addr} (h : Fits bytes (calls ++ [.pushWord value])) :
    Fits bytes (calls ++ [.pushWord value, .popWord]) ∧ Fits bytes (calls ++ [.pushWord value, .pop, .pop]) := by
  induction calls generalizing bytes with
  | nil =>
    simp only [List.nil_append, Fits, change] at h ⊢
    omega
  | cons c calls ih => exact ⟨⟨h.1, (ih h.2).1⟩, ⟨h.1, (ih h.2).2⟩⟩

theorem fits_pushes (values : List Byte) (hbytes : 0 ≤ bytes) (h : Fits (bytes + values.length) rest) :
    Fits bytes (values.map .push ++ rest) := by
  induction values generalizing bytes with
  | nil => simpa using h
  | cons value values ih =>
    have hnext : bytes + 1 + values.length = bytes + (value :: values).length := by
      rw [List.length_cons]
      omega
    have hbounds := h.bounds
    refine ⟨by omega, ih ?_ (hnext ▸ h)⟩
    show 0 ≤ bytes + 1
    omega

theorem fits_pops (n : Nat) (h : n ≤ 0x100) : Fits n (.replicate n .pop) := by
  induction n with
  | zero => decide
  | succ n ih =>
    have hnext : ((n + 1 : Nat) : Int) + change .pop = n := by
      simp only [change]
      omega
    exact ⟨by omega, hnext ▸ ih (by omega)⟩

/-- A call that fits finds the bytes it takes. -/
theorem exists_call (h : 0 ≤ held.length + change c) :
    ∃ answer held', call c held = some (answer, held') ∧ (held'.length : Int) = held.length + change c := by
  cases c with
  | push value => exact ⟨_, _, rfl, rfl⟩
  | pushWord value => exact ⟨_, _, rfl, rfl⟩
  | pop =>
    match held with
    | [] => exact absurd h (by decide)
    | value :: held =>
      refine ⟨_, _, rfl, ?_⟩
      simp only [List.length_cons, change]
      omega
  | popWord =>
    match held with
    | [] | [_] => exact absurd h (by simp [change])
    | low :: high :: held =>
      refine ⟨_, _, rfl, ?_⟩
      simp only [List.length_cons, change]
      omega

end

/-! ## Bytes above the stack pointer -/

/-- The bytes above a stack pointer, the top first. -/
def Holds {β : Type} [Bus β] (bus : β) (sp : Byte) : List Byte → Prop
  | [] => True
  | value :: held => stackByte bus (sp + 1) = value ∧ Holds bus (sp + 1) held

section

variable {β : Type} [Bus β] [StackBus β] {bus bus₀ : β} {sp place : Byte} {held : List Byte}

theorem Holds.read (h : Holds bus sp held) (addr : Addr) : Holds (Bus.read .live addr bus).2 sp held := by
  induction held generalizing sp with
  | nil => trivial
  | cons value held ih => exact ⟨(StackBus.stackByte_read bus addr (sp + 1)).trans h.1, ih h.2⟩

/-- A write beyond the bytes that are held leaves them as they are. -/
theorem Holds.write (h : Holds bus sp held) (hfar : held.length ≤ (place - (sp + 1)).toNat) (value : Byte) :
    Holds (Bus.write (.stackPage place) value bus) sp held := by
  induction held generalizing sp with
  | nil => trivial
  | cons top held ih =>
    rw [List.length_cons] at hfar
    have hne : place ≠ sp + 1 := by
      rintro rfl
      simp at hfar
    -- each byte that is passed brings the write nearer by one, round the page
    have hnext : (place - (sp + 1 + 1)).toNat = (place - (sp + 1)).toNat - 1 := by bv_omega
    refine ⟨?_, ih h.2 (by omega)⟩
    rw [StackBus.stackByte_write, if_neg hne]
    exact h.1

/-- The stack page. -/
def places : List Byte := (List.range 256).map (BitVec.ofNat 8)

theorem mem_places (place : Byte) : place ∈ places := place.mem_map_range

/-- From registers `r₀` and a bus `bus₀` calls have come to `r` and `bus`, and bytes are held. -/
structure Models (r₀ : Registers) (bus₀ : β) (held : List Byte) (r : Registers) (bus : β) : Prop where
  registers : r = { r₀ with sp := r₀.sp - BitVec.ofNat 8 held.length }
  holds : Holds bus r.sp held
  kept : StackBus.DifferAt places bus₀ bus

namespace Models

variable {r r₀ : Registers} {value : Byte}

/-- In the beginning nothing is held. -/
theorem start (r : Registers) (bus : β) : Models r bus [] r bus where
  registers := by simp
  holds := trivial
  kept := StackBus.refl places bus

/-- A byte is pushed on the others. -/
theorem push (h : Models r₀ bus₀ held r bus) (hroom : held.length < 0x100) (value : Byte) :
    Models r₀ bus₀ (value :: held) ((r.push value).run bus).1 ((r.push value).run bus).2 where
  registers := by
    have hsp : r₀.sp - BitVec.ofNat 8 held.length - 1 = r₀.sp - BitVec.ofNat 8 (held.length + 1) := by bv_omega
    rw [List.length_cons, ← hsp, h.registers]
    rfl
  holds := by
    have hback : r.sp - 1 + 1 = r.sp := BitVec.sub_add_cancel _ _
    have hfar : (r.sp - (r.sp + 1)).toNat = 255 := by bv_omega
    show stackByte (Bus.write (.stackPage r.sp) value bus) (r.sp - 1 + 1) = value ∧
      Holds (Bus.write (.stackPage r.sp) value bus) (r.sp - 1 + 1) held
    rw [hback, StackBus.stackByte_write, if_pos rfl]
    exact ⟨rfl, h.holds.write (by omega) value⟩
  kept := StackBus.trans h.kept (StackBus.write (mem_places r.sp) value bus)

/-- The byte at the top is popped. -/
theorem pop (h : Models r₀ bus₀ (value :: held) r bus) :
    (r.pop.run bus).1.1 = value ∧ Models r₀ bus₀ held (r.pop.run bus).1.2 (r.pop.run bus).2 := by
  rw [Registers.run_pop]
  refine ⟨h.holds.1, ?_, h.holds.2.read _, StackBus.trans h.kept (StackBus.read places _ bus)⟩
  have hsp : r₀.sp - BitVec.ofNat 8 (held.length + 1) + 1 = r₀.sp - BitVec.ofNat 8 held.length := by bv_omega
  rw [← hsp, h.registers]
  rfl

/-- **A call is answered as by the list.** -/
theorem call {c : StackCall} {answer : Answer} {held' : List Byte} (h : Models r₀ bus₀ held r bus)
    (hcall : ByteStack.call c held = some (answer, held')) (hroom : held'.length ≤ 0x100) :
    ((r.call c).run bus).1.1 = answer ∧ Models r₀ bus₀ held' ((r.call c).run bus).1.2 ((r.call c).run bus).2 := by
  cases c with
  | push value =>
    cases hcall
    exact ⟨rfl, h.push hroom value⟩
  | pushWord value =>
    cases hcall
    have hboth : held.length + 2 ≤ 0x100 := hroom
    exact ⟨rfl, (h.push (by omega) value.high).push hroom value.low⟩
  | pop =>
    cases held with
    | nil => cases hcall
    | cons value held =>
      cases hcall
      obtain ⟨hvalue, hmodels⟩ := h.pop
      exact ⟨congrArg Answer.byte hvalue, hmodels⟩
  | popWord =>
    match held with
    | [] | [_] => cases hcall
    | low :: high :: held =>
      cases hcall
      obtain ⟨hlow, hmodels⟩ := h.pop
      obtain ⟨hhigh, hmodels⟩ := hmodels.pop
      refine ⟨?_, hmodels⟩
      rw [← hlow, ← hhigh]
      rfl

/-- **Calls that fit are answered as by the list.** -/
theorem callAll {calls : List StackCall} (h : Models r₀ bus₀ held r bus) (hfits : Fits held.length calls) :
    ∃ last, ByteStack.callAll calls held = some (((r.callAll calls).run bus).1.1, last) ∧
      Models r₀ bus₀ last ((r.callAll calls).run bus).1.2 ((r.callAll calls).run bus).2 := by
  induction calls generalizing held r bus with
  | nil => exact ⟨held, rfl, h⟩
  | cons c rest ih =>
    have hbounds := hfits.2.bounds
    obtain ⟨answer, held', hcall, hlength⟩ := exists_call hbounds.1
    obtain ⟨hanswer, hmodels⟩ := h.call hcall (by omega)
    obtain ⟨last, hrest, hlast⟩ := ih hmodels (hlength ▸ hfits.2)
    rw [Registers.run_callAll_cons]
    exact ⟨last, callAll_cons (hanswer ▸ hcall) hrest, hlast⟩

end Models

end

end ByteStack

/-! ## Outside the stack page -/

/-- Nothing has changed but the stack page. -/
def FlatMemory.KeptOutsideStack (m m' : FlatMemory) : Prop :=
  ∀ addr : Addr, addr.high ≠ 0x01 → m'.peek addr = m.peek addr

/-- Nothing has changed in the slot, and in work RAM nothing but the cells of the stack page. -/
structure MemoryMap.KeptOutsideStack {δ : Type} (m m' : MemoryMap δ) : Prop where
  cartridge : m'.cartridge = m.cartridge
  ram (addr : Addr) : addr.toNat % 0x800 < 0x100 ∨ 0x200 ≤ addr.toNat % 0x800 → m'.ram.read addr = m.ram.read addr

theorem FlatMemory.DifferAt.keptOutsideStack {places : List Byte} {m m' : FlatMemory} (h : DifferAt places m m') :
    m.KeptOutsideStack m' := by
  intro addr hhigh
  apply h
  rintro place - rfl
  exact hhigh (Addr.high_ofBytes place 0x01)

theorem MemoryMap.DifferAt.keptOutsideStack {δ : Type} {places : List Byte} {m m' : MemoryMap δ}
    (h : DifferAt places m m') : m.KeptOutsideStack m' := by
  refine ⟨h.cartridge, fun addr houtside => h.ram addr ?_⟩
  intro place _ hcell
  rw [Fin.ext_iff, WorkRam.val_index, WorkRam.val_index, Addr.toNat_stackPage] at hcell
  have := place.isLt
  omega

/-! ## Last in, first out -/

namespace Registers

open StackCall

/-- The stack of a processor with registers `r` on a bus is a stack of 256 bytes, and its use leaves the bus as `kept`
tells. -/
structure LastInFirstOut {β : Type} [Bus β] (kept : β → β → Prop) (r : Registers) (bus : β) : Prop where
  /-- Bytes that are pushed come back in reverse, and then the registers are as before. -/
  reversed (bytes : List Byte) : bytes.length ≤ 0x100 →
    let out := (r.callAll (bytes.map .push ++ .replicate bytes.length .pop)).run bus
    out.1 = (bytes.map (fun _ => Answer.nothing) ++ bytes.reverse.map .byte, r) ∧ kept bus out.2
  /-- Calls that fit are answered as by the list. -/
  answered (calls : List StackCall) : ByteStack.Fits 0 calls →
    let out := (r.callAll calls).run bus
    ∃ held, ByteStack.callAll calls [] = some (out.1.1, held) ∧
      out.1.2 = { r with sp := r.sp - BitVec.ofNat 8 held.length } ∧ kept bus out.2
  /-- A word that fits comes back whole, or its low byte first. -/
  words (calls : List StackCall) (value : Addr) : ByteStack.Fits 0 (calls ++ [.pushWord value]) →
    let answers := ((r.callAll calls).run bus).1.1
    ((r.callAll (calls ++ [.pushWord value, .popWord])).run bus).1.1 = answers ++ [.nothing, .word value] ∧
    ((r.callAll (calls ++ [.pushWord value, .pop, .pop])).run bus).1.1 =
      answers ++ [.nothing, .byte value.low, .byte value.high]

theorem lastInFirstOut {β : Type} [Bus β] [StackBus β] {kept : β → β → Prop} {bus : β}
    (hkept : ∀ {bus'}, StackBus.DifferAt ByteStack.places bus bus' → kept bus bus') (r : Registers) :
    r.LastInFirstOut kept bus := by
  have hmodels {calls : List StackCall} (hfits : ByteStack.Fits 0 calls) := (ByteStack.Models.start r bus).callAll hfits
  -- what the list answers is known, so this is what is answered
  have hsame {calls : List StackCall} {answers : List Answer} {held : List Byte} (hfits : ByteStack.Fits 0 calls)
      (hcalls : ByteStack.callAll calls [] = some (answers, held)) :
      ((r.callAll calls).run bus).1.1 = answers ∧
        ByteStack.Models r bus held ((r.callAll calls).run bus).1.2 ((r.callAll calls).run bus).2 := by
    obtain ⟨last, hanswered, hlast⟩ := hmodels hfits
    cases hcalls.symm.trans hanswered
    exact ⟨rfl, hlast⟩
  refine ⟨?_, ?_, ?_⟩
  · intro bytes hlength
    have hfits : ByteStack.Fits 0 (bytes.map .push ++ .replicate bytes.length .pop) := by
      apply ByteStack.fits_pushes bytes (Int.le_refl 0)
      rw [Int.zero_add]
      exact ByteStack.fits_pops bytes.length hlength
    have hpushes := ByteStack.callAll_pushes bytes []
    have hpops := ByteStack.callAll_pops bytes.reverse
    rw [List.append_nil] at hpushes
    rw [List.length_reverse] at hpops
    obtain ⟨hanswers, hlast⟩ := hsame hfits (ByteStack.callAll_append hpushes hpops)
    have hregisters := hlast.registers
    simp only [List.length_nil, BitVec.sub_zero] at hregisters
    exact ⟨Prod.ext hanswers hregisters, hkept hlast.kept⟩
  · intro calls hfits
    obtain ⟨held, hanswered, hlast⟩ := hmodels hfits
    exact ⟨held, hanswered, hlast.registers, hkept hlast.kept⟩
  · intro calls value hfits
    obtain ⟨held, hanswered, -⟩ := hmodels hfits.of_append
    obtain ⟨hwhole, hparts⟩ := ByteStack.callAll_word held value
    exact ⟨(hsame hfits.pop_word.1 (ByteStack.callAll_append hanswered hwhole)).1,
      (hsame hfits.pop_word.2 (ByteStack.callAll_append hanswered hparts)).1⟩

/-- **The stack is last in, first out.** The processor is on flat memory, or on the memory map of a console with any
device and any cartridge or none; its stack pointer is anywhere.

* Up to 256 bytes, pushed one after another, are popped in reverse, and the registers are as they were.
* Bytes and words are pushed and popped in any order. If never more is popped than was pushed and never more than 256
  bytes are held, each pop gives what a list gives.
* A word is pushed high byte first, and comes back whole.

Outside the stack page nothing has changed. -/
theorem stack_lifo :
    (∀ (r : Registers) (m : FlatMemory), r.LastInFirstOut FlatMemory.KeptOutsideStack m) ∧
      ∀ (δ : Type) [Device δ] (r : Registers) (m : MemoryMap δ), r.LastInFirstOut MemoryMap.KeptOutsideStack m :=
  ⟨fun r _ => r.lastInFirstOut FlatMemory.DifferAt.keptOutsideStack,
    fun _ _ r _ => r.lastInFirstOut MemoryMap.DifferAt.keptOutsideStack⟩

/-- A full stack, and words and bytes in turn; both wrap. -/
theorem stack_lifo_sample :
    let r : Registers := { sp := 0x01 }
    let bytes : List Byte := (List.range 0x100).map (BitVec.ofNat 8)
    let calls : List StackCall := [.pushWord 0xBEEF, .push 0x42, .pop, .pushWord 0x1234, .popWord]
    bytes.length ≤ 0x100 ∧ ByteStack.Fits 0 calls ∧
      ((r.callAll (bytes.map .push ++ .replicate bytes.length .pop)).run FlatMemory.zero).1 =
        (bytes.map (fun _ => Answer.nothing) ++ bytes.reverse.map .byte, r) ∧
      ((r.callAll calls).run MemoryMap.sample).1.1 = [.nothing, .nothing, .byte 0x42, .nothing, .word 0x1234] := by
  intro r bytes calls
  have hlength : bytes.length ≤ 0x100 := by simp [bytes]
  have hfits : ByteStack.Fits 0 calls := by decide
  have hcalls : ByteStack.callAll calls [] =
      some ([.nothing, .nothing, .byte 0x42, .nothing, .word 0x1234], [0xEF, 0xBE]) := by
    decide
  obtain ⟨hreversed, -⟩ := (stack_lifo.1 r .zero).reversed bytes hlength
  obtain ⟨held, hanswered, -⟩ := (stack_lifo.2 _ r .sample).answered calls hfits
  obtain ⟨hsame, -⟩ := Prod.mk.inj (Option.some.inj (hcalls.symm.trans hanswered))
  exact ⟨hlength, hfits, hreversed, hsame.symm⟩

end Registers

end Nes
