import Nes.Proofs.Commands

/-!
# Views

A debugger looks at a running console: at bytes of either side, and at listings. What it asks for are reads as views and
nothing else (`Transaction.OnlyViews`, `Listing.onlyViews_ofRange`). If the device is not changed by being looked at
(`Device.Discreet`), the memory map is not, so a view leaves the console exactly as it is (`Console.obey_view`).

`Console.views_disturb_nothing` says this of whole sessions: views can be put in anywhere, and neither the replies to the
other commands nor the console at the end show it.
-/

namespace Nes

/-! ## Transactions that only look -/

namespace Transaction

variable {α γ : Type}

/-- Nothing is written, and every read is a view. -/
def OnlyViews : Transaction α → Prop
  | .done _ => True
  | .reading mode _ next => mode = .view ∧ ∀ value, (next value).OnlyViews
  | .writing _ _ _ => False

theorem onlyViews_view (addr : Addr) : (view addr).OnlyViews := ⟨rfl, fun _ => trivial⟩

theorem OnlyViews.bind {t : Transaction α} {f : α → Transaction γ} (h : t.OnlyViews) (hf : ∀ a, (f a).OnlyViews) :
    (t >>= f).OnlyViews := by
  induction t with
  | done a => exact hf a
  | reading mode addr next ih => exact ⟨h.1, fun value => ih value (h.2 value)⟩
  | writing addr value next ih => exact h.elim

/-- A bus that is not changed by one view is not changed by any number of them. -/
theorem OnlyViews.run {β : Type} [Bus β] (hβ : ∀ addr (bus : β), (Bus.read .view addr bus).2 = bus)
    {t : Transaction α} (h : t.OnlyViews) (bus : β) : (t.run bus).2 = bus := by
  induction t with
  | done a => rfl
  | reading mode addr next ih =>
    obtain ⟨rfl, hnext⟩ := h
    rw [run_reading, hβ addr bus]
    exact ih _ (hnext _)
  | writing addr value next ih => exact h.elim

end Transaction

theorem Line.onlyViews_decode (address : Addr) : (Line.decode address).OnlyViews := by
  apply (Transaction.onlyViews_view address).bind
  intro opcode
  apply (Transaction.onlyViews_view (address + 1)).bind
  intro first
  apply (Transaction.onlyViews_view (address + 2)).bind
  intro second
  exact trivial

theorem Listing.onlyViews_extend (last : Addr) (place : Nat) (lines : Array Line) :
    (extend last place lines).OnlyViews := by
  fun_induction extend last place lines with
  | case1 place lines hle ih => exact (Line.onlyViews_decode _).bind ih
  | case2 place lines hlt => exact trivial

theorem Listing.onlyViews_ofRange (first last : Addr) : (ofRange first last).OnlyViews :=
  (onlyViews_extend last first.toNat #[]).bind fun _ => trivial

/-! ## The memory map -/

/-- A device that is not changed by being looked at. -/
def Device.Discreet (δ : Type) [Device δ] : Prop :=
  ∀ (register : Addr) (d : δ), (Device.read .view register d).2 = d

theorem RegisterBlock.discreet : Device.Discreet RegisterBlock := fun _ _ => rfl

namespace MemoryMap

variable {δ : Type} [Device δ]

theorem read_of_discreet (hδ : Device.Discreet δ) (addr : Addr) (m : MemoryMap δ) : (Bus.read .view addr m).2 = m := by
  rcases m.read_cases .view addr with ⟨value, -, he⟩ | ⟨-, ⟨-, he⟩ | ⟨-, value, device, hdevice, he⟩ | ⟨-, he⟩⟩
  · rw [he]
    rfl
  · rw [he]
    rfl
  · obtain rfl : device = m.device := by rw [← hδ (register addr) m.device, hdevice]
    rw [he]
    rfl
  · rw [he]

end MemoryMap

namespace Console

/-! ## Sessions -/

/-- What a debugger asks for. -/
inductive View
  | byte (addr : Addr)
  | graphics (addr : Addr)
  | listing (first last : Addr)

/-- The command that shows it. -/
def View.command : View → Command
  | .byte addr => .call (.read .view addr)
  | .graphics addr => .call (.readGraphics addr)
  | .listing first last => .list first last

/-- A command of a session: one of its own, or a view that was put in. -/
inductive Entry
  | own (command : Command)
  | extra (view : View)

namespace Entry

def command : Entry → Command
  | .own command => command
  | .extra view => view.command

def isOwn : Entry → Bool
  | .own _ => true
  | .extra _ => false

end Entry

/-- The session without the views that were put in. -/
def ownCommands (session : List Entry) : List Command := (session.filter (·.isOwn)).map (·.command)

/-- Of the replies in a session, those to its own commands. -/
def ownReplies (session : List Entry) (replies : List Reply) : List Reply :=
  ((session.zip replies).filter (·.1.isOwn)).map (·.2)

section Sessions

variable {δ : Type} [Device δ] {c : Console δ}

/-- One view. -/
theorem obey_view (hδ : Device.Discreet δ) (c : Console δ) (view : View) : (c.obey view.command).2 = c := by
  cases view with
  | byte addr =>
    show { c with memory := (Bus.read .view addr c.memory).2 } = c
    rw [MemoryMap.read_of_discreet hδ]
  | graphics addr => rfl
  | listing first last =>
    show { c with memory := ((Listing.ofRange first last).run c.memory).2 } = c
    rw [(Listing.onlyViews_ofRange first last).run (MemoryMap.read_of_discreet hδ)]

/-- **Views disturb nothing.** The device is not changed by being looked at. In every session, put in any views anywhere:
the session's own commands have the replies that they have without them, and the console ends the same. -/
theorem views_disturb_nothing (hδ : Device.Discreet δ) (c : Console δ) (session : List Entry) :
    let watched := c.obeyAll (session.map (·.command))
    let alone := c.obeyAll (ownCommands session)
    ownReplies session watched.1 = alone.1 ∧ watched.2 = alone.2 := by
  intro watched alone
  induction session generalizing c with
  | nil => exact ⟨rfl, rfl⟩
  | cons entry rest ih =>
    cases entry with
    | own command =>
      obtain ⟨hreplies, hend⟩ := ih (c.obey command).2
      exact ⟨congrArg ((c.obey command).1 :: ·) hreplies, hend⟩
    | extra view =>
      obtain ⟨hreplies, hend⟩ := ih c
      -- the view has a reply of its own, and hands the console on as it was
      have hwatched : watched = ((c.obey view.command).1 :: ((c.obey view.command).2.obeyAll (rest.map (·.command))).1,
          ((c.obey view.command).2.obeyAll (rest.map (·.command))).2) := rfl
      rw [obey_view hδ c view] at hwatched
      rw [hwatched]
      exact ⟨hreplies, hend⟩

end Sessions

/-- Bytes of the device, of the open bus and of work RAM are looked at, and a stretch of memory is listed, between a write
and the live reads that follow it. -/
def sampleSession : List Entry :=
  [.extra (.byte 0x2002), .own (.call (.write 0x0801 0x42)), .extra (.listing 0x1FF0 0x4010), .extra (.byte 0x0001),
    .own (.call (.read .live 0x5000)), .extra (.graphics 0x1FFF), .own (.call (.read .live 0x0001))]

theorem views_disturb_nothing_sample :
    ownReplies sampleSession ((ofDevice ({} : RegisterBlock)).obeyAll (sampleSession.map (·.command))).1 =
      [.event (.moved (.write 0x0801 0x42)), .event (.moved (.read .live 0x5000 0x42)),
        .event (.moved (.read .live 0x0001 0x42))] :=
  (views_disturb_nothing RegisterBlock.discreet (ofDevice {}) sampleSession).1.trans rfl

end Console

end Nes
