import Nes.Proofs.Recall

/-!
# Commands

Everything that can be asked of a console from outside, as data: time can pass, lines can be pulled, the slot can be
filled and emptied, memory can be read, written and listed. A run of the console is what it does for a list of commands.

A run falls into two parts, through its last reset and since then (`throughReset`, `sinceReset`).
-/

namespace Nes

namespace Console

/-- What a console can be told to do. -/
inductive Command
  | tick
  | step
  | run (count : Nat)
  | reset
  | irq
  | nmi
  | insert (cartridge : Cartridge)
  | eject
  /-- A read or a write, of either side. -/
  | call (call : Call)
  | list (first last : Addr)

/-- What it hands back. -/
inductive Reply
  | nothing
  | cost (cycles : Nat)
  | slot (cartridge : Option Cartridge)
  | event (event : Event)
  | listing (listing : Listing)

section Runs

variable {δ : Type} [Device δ]

/-- One command. -/
def obey (c : Console δ) : Command → Reply × Console δ
  | .tick => (.nothing, c.tick)
  | .step =>
    let (cycles, c) := c.step
    (.cost cycles, c)
  | .run count => (.nothing, c.run count)
  | .reset => (.nothing, c.reset)
  | .irq => (.nothing, c.irq)
  | .nmi => (.nothing, c.nmi)
  | .insert cartridge =>
    let (removed, c) := c.insert cartridge
    (.slot removed, c)
  | .eject =>
    let (removed, c) := c.eject
    (.slot removed, c)
  | .call call =>
    let (event, c) := c.call call
    (.event event, c)
  | .list first last =>
    let (listing, c) := c.list first last
    (.listing listing, c)

/-- A sequence of commands. -/
def obeyAll (c : Console δ) : List Command → List Reply × Console δ
  | [] => ([], c)
  | first :: rest =>
    let (reply, c) := c.obey first
    let (replies, c) := c.obeyAll rest
    (reply :: replies, c)

theorem obeyAll_cons (c : Console δ) (first : Command) (rest : List Command) :
    c.obeyAll (first :: rest) =
      ((c.obey first).1 :: ((c.obey first).2.obeyAll rest).1, ((c.obey first).2.obeyAll rest).2) := rfl

theorem obeyAll_append (c : Console δ) (first second : List Command) :
    c.obeyAll (first ++ second) = ((c.obeyAll first).1 ++ ((c.obeyAll first).2.obeyAll second).1,
      ((c.obeyAll first).2.obeyAll second).2) := by
  induction first generalizing c with
  | nil => rfl
  | cons command rest ih => simp only [List.cons_append, obeyAll, ih]

/-- What every command of a sequence keeps, the sequence keeps. -/
theorem obeyAll_preserves {I : Console δ → Prop} {commands : List Command}
    (hobey : ∀ c, ∀ command ∈ commands, I c → I (c.obey command).2) {c : Console δ} (hc : I c) :
    I (c.obeyAll commands).2 := by
  induction commands generalizing c with
  | nil => exact hc
  | cons command rest ih =>
    have hfirst := hobey c command List.mem_cons_self hc
    exact ih (fun c other hother => hobey c other (List.mem_cons_of_mem _ hother)) hfirst

end Runs

/-! ## The last reset -/

def Command.isReset : Command → Bool
  | .reset => true
  | _ => false

/-- The commands up to the last reset, with it; none if there is no reset. -/
def throughReset (commands : List Command) : List Command :=
  (commands.reverse.dropWhile fun command => !command.isReset).reverse

/-- The commands after the last reset; all if there is none. -/
def sinceReset (commands : List Command) : List Command :=
  (commands.reverse.takeWhile fun command => !command.isReset).reverse

theorem throughReset_append_sinceReset (commands : List Command) :
    throughReset commands ++ sinceReset commands = commands := by
  rw [throughReset, sinceReset, ← List.reverse_append, List.takeWhile_append_dropWhile, List.reverse_reverse]

theorem not_isReset_of_mem_sinceReset {commands : List Command} {command : Command}
    (h : command ∈ sinceReset commands) : command.isReset = false := by
  have hall := List.all_takeWhile (l := commands.reverse) (p := fun command => !command.isReset)
  have hcommand := List.all_eq_true.mp hall command (List.mem_reverse.mp h)
  simpa using hcommand

/-- The first part is empty, or a reset ends it. -/
theorem throughReset_cases (commands : List Command) :
    throughReset commands = [] ∨ ∃ before, throughReset commands = before ++ [.reset] := by
  unfold throughReset
  cases hdrop : commands.reverse.dropWhile fun command => !command.isReset with
  | nil => exact .inl rfl
  | cons last before =>
    have hlast := List.head?_dropWhile_not (fun command : Command => !command.isReset) commands.reverse
    rw [hdrop] at hlast
    refine .inr ⟨before.reverse, ?_⟩
    cases last with
    | reset => exact List.reverse_cons
    | _ => simp [Command.isReset] at hlast

end Console

end Nes
