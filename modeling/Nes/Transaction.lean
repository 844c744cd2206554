import Nes.Bus

/-!
# Transactions

A transaction is a finite exchange with a bus that ends in a result: a tree that says which byte to move next, given the
bytes read so far. What an instruction does is a transaction, so it can be run on any bus, and a fact about all buses is
an induction on the tree.

* `Transaction.run` carries out a transaction on a bus.
* Sequencing is associative and `pure` is its unit (`LawfulMonad`), and running a sequence runs its parts in order
  (`Transaction.run_bind`).
-/

namespace Nes

/-- A finite exchange with a bus that yields an `α`. -/
inductive Transaction (α : Type)
  | done (result : α)
  | reading (mode : ReadMode) (addr : Addr) (next : Byte → Transaction α)
  | writing (addr : Addr) (value : Byte) (next : Transaction α)

namespace Transaction

variable {α γ ε : Type}

/-! ## Sequencing -/

/-- The first transaction, then the one that its result selects. -/
def andThen (f : α → Transaction γ) : Transaction α → Transaction γ
  | .done a => f a
  | .reading mode addr next => .reading mode addr fun b => (next b).andThen f
  | .writing addr value next => .writing addr value (next.andThen f)

instance : Monad Transaction where
  pure := .done
  bind t f := t.andThen f

@[simp] theorem pure_eq (a : α) : (pure a : Transaction α) = .done a := rfl

@[simp] theorem done_bind (a : α) (f : α → Transaction γ) : (Transaction.done a >>= f) = f a := rfl

@[simp] theorem reading_bind (mode : ReadMode) (addr : Addr) (next : Byte → Transaction α) (f : α → Transaction γ) :
    (Transaction.reading mode addr next >>= f) = .reading mode addr fun b => next b >>= f := rfl

@[simp] theorem writing_bind (addr : Addr) (value : Byte) (next : Transaction α) (f : α → Transaction γ) :
    (Transaction.writing addr value next >>= f) = .writing addr value (next >>= f) := rfl

theorem bind_done (t : Transaction α) : (t >>= Transaction.done) = t := by
  induction t with
  | done a => rfl
  | reading mode addr next ih => simp [ih]
  | writing addr value next ih => simp [ih]

theorem andThen_assoc (t : Transaction α) (f : α → Transaction γ) (g : γ → Transaction ε) :
    (t >>= f) >>= g = t >>= fun a => f a >>= g := by
  induction t with
  | done a => rfl
  | reading mode addr next ih => simp [ih]
  | writing addr value next ih => simp [ih]

instance : LawfulMonad Transaction :=
  LawfulMonad.mk' Transaction bind_done (fun _ _ => rfl) andThen_assoc

/-! ## Single accesses -/

/-- A live read. -/
def read (addr : Addr) : Transaction Byte := .reading .live addr .done

/-- A read by an observer. -/
def view (addr : Addr) : Transaction Byte := .reading .view addr .done

/-- A write. -/
def write (addr : Addr) (value : Byte) : Transaction Unit := .writing addr value (.done ())

/-- A live read of a little-endian word at `addr` and the address after it. -/
def readWord (addr : Addr) : Transaction Addr := do
  let low ← read addr
  let high ← read (addr + 1)
  return .ofBytes low high

/-! ## Running -/

section Run

variable {β : Type} [Bus β]

/-- Carries out a transaction on a bus. -/
def run : Transaction α → β → α × β
  | .done a, bus => (a, bus)
  | .reading mode addr next, bus =>
    let (value, bus) := Bus.read mode addr bus
    (next value).run bus
  | .writing addr value next, bus => next.run (Bus.write addr value bus)

@[simp] theorem run_done (a : α) (bus : β) : (Transaction.done a).run bus = (a, bus) := rfl

@[simp] theorem run_reading (mode : ReadMode) (addr : Addr) (next : Byte → Transaction α) (bus : β) :
    (Transaction.reading mode addr next).run bus =
      (next (Bus.read mode addr bus).1).run (Bus.read mode addr bus).2 := rfl

@[simp] theorem run_writing (addr : Addr) (value : Byte) (next : Transaction α) (bus : β) :
    (Transaction.writing addr value next).run bus = next.run (Bus.write addr value bus) := rfl

@[simp] theorem run_bind (t : Transaction α) (f : α → Transaction γ) (bus : β) :
    (t >>= f).run bus = (f (t.run bus).1).run (t.run bus).2 := by
  induction t generalizing bus with
  | done a => rfl
  | reading mode addr next ih => simp [ih]
  | writing addr value next ih => simp [ih]

end Run

end Transaction

end Nes
