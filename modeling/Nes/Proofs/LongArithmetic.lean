import Nes.Proofs.Numbers
import Nes.Proofs.StatusFlags

/-!
# Long addition and subtraction

Two numbers of many bytes are added by adding their bytes, from the lowest on, each sum with the carry of the one before.
One byte of it is exact: the sum with its carry is the sum of what went in (`Registers.addBytes_sum`), and overflow says
that the sum of the signed bytes does not fit (`Registers.addBytes_overflow`). So the whole is exact
(`Registers.thread_sum`), and as only the top bytes have signs the overflow of the last addition is the overflow of the
whole (`Registers.thread_overflow`).

Subtracting is adding the number with its bits turned over, where the carry stands for no borrow. `Operation.longhand_exact`
says what the two programs leave in memory and in the flags.
-/

namespace Nes

/-! ## One byte -/

/-- A sum has a sign that neither summand has if and only if it does not fit. -/
theorem Byte.sign_lost_iff {a b sum : Byte} {carry carried : Nat} (hcarry : carry ≤ 1)
    (h : sum.toNat + 256 * carried = a.toNat + b.toNat + carry) :
    ((sum.msb ^^ a.msb) && (sum.msb ^^ b.msb)) = true ↔
      ¬FitsSigned 1 (signed 1 a.toNat + signed 1 b.toNat + carry) := by
  have ha := a.isLt
  have hb := b.isLt
  have hsum := sum.isLt
  rw [FitsSigned, signed_eq (by omega), signed_eq (by omega)]
  simp only [BitVec.msb_eq_decide]
  by_cases ha' : 128 ≤ a.toNat <;> by_cases hb' : 128 ≤ b.toNat <;> by_cases hs : 128 ≤ sum.toNat <;>
    simp [ha', hb', hs] <;> omega

namespace Registers

variable (r : Registers) (a b : Byte)

theorem toNat_bit (mask : Byte) : (r.bit mask).toNat = (r.isSet mask).toNat := by
  unfold bit Byte.ofBool
  cases r.isSet mask <;> rfl

theorem isSet_carry_addWithCarry (m : Byte) : (r.addWithCarry m).isSet Flag.carry =
    decide (0xFF < r.a.toNat + m.toNat + (r.isSet Flag.carry).toNat) := by
  rw [← r.toNat_bit]
  exact (isSet_setZN _ (by decide) _).trans ((meets_assign (by decide) _).trans (r.isSet_assign (by decide)))

theorem isSet_overflow_addWithCarry (m : Byte) : (r.addWithCarry m).isSet Flag.overflow =
    (((r.addWithCarry m).a.msb ^^ r.a.msb) && ((r.addWithCarry m).a.msb ^^ m.msb)) := by
  rw [← BitVec.msb_xor, ← BitVec.msb_xor, ← BitVec.msb_and]
  exact (isSet_setZN _ (by decide) _).trans (isSet_assign _ (by decide))

theorem isSet_negative_addWithCarry (m : Byte) :
    (r.addWithCarry m).isSet Flag.negative = (r.addWithCarry m).a.msb :=
  isSet_assign _ (by decide)

/-- The sum of two bytes, with the carry as it is handed on. -/
def addBytes (bytes : Byte × Byte) : Shifted :=
  let sum := (r.setA bytes.1).addWithCarry bytes.2
  ⟨sum.a, sum⟩

theorem addBytes_sum :
    let new := r.addBytes (a, b)
    new.value.toNat + 256 * (new.registers.isSet Flag.carry).toNat =
      a.toNat + b.toNat + (r.isSet Flag.carry).toNat := by
  intro new
  have hcarry : (r.setA a).isSet Flag.carry = r.isSet Flag.carry := isSet_setZN _ (by decide) _
  have hvalue : new.value = a + b + (r.setA a).bit Flag.carry := rfl
  have hout : new.registers.isSet Flag.carry = decide (0xFF < a.toNat + b.toNat + (r.isSet Flag.carry).toNat) := by
    rw [← hcarry]
    exact (r.setA a).isSet_carry_addWithCarry b
  rw [hvalue, hout, BitVec.toNat_add, BitVec.toNat_add, toNat_bit, hcarry]
  have := a.isLt
  have := b.isLt
  have := (r.isSet Flag.carry).toNat_le
  by_cases hover : 0xFF < a.toNat + b.toNat + (r.isSet Flag.carry).toNat
  · rw [decide_eq_true hover, Bool.toNat_true]
    omega
  · rw [decide_eq_false hover, Bool.toNat_false]
    omega

theorem addBytes_negative :
    let new := r.addBytes (a, b)
    new.registers.isSet Flag.negative = true ↔ signed 1 new.value.toNat < 0 := by
  intro new
  have hnegative : new.registers.isSet Flag.negative = new.value.msb := (r.setA a).isSet_negative_addWithCarry b
  have := new.value.isLt
  rw [hnegative, BitVec.msb_eq_decide, decide_eq_true_iff, signed_eq (by omega)]
  split <;> omega

theorem addBytes_overflow :
    (r.addBytes (a, b)).registers.isSet Flag.overflow = true ↔
      ¬FitsSigned 1 (signed 1 a.toNat + signed 1 b.toNat + (r.isSet Flag.carry).toNat) := by
  have hoverflow : (r.addBytes (a, b)).registers.isSet Flag.overflow =
      (((r.addBytes (a, b)).value.msb ^^ a.msb) && ((r.addBytes (a, b)).value.msb ^^ b.msb)) :=
    (r.setA a).isSet_overflow_addWithCarry b
  rw [hoverflow]
  exact Byte.sign_lost_iff (Bool.toNat_le _) (r.addBytes_sum a b)

/-! ## Many bytes -/

variable (pairs : List (Byte × Byte))

/-- **A long sum is exact.** -/
theorem thread_sum :
    let out := r.thread addBytes pairs
    littleEndian out.1 + 256 ^ pairs.length * (out.2.isSet Flag.carry).toNat =
      littleEndian (pairs.map Prod.fst) + littleEndian (pairs.map Prod.snd) + (r.isSet Flag.carry).toNat := by
  induction pairs generalizing r with
  | nil => simp
  | cons pair rest ih =>
    obtain ⟨a, b⟩ := pair
    have hbyte := r.addBytes_sum a b
    have hrest := ih (r.addBytes (a, b)).registers
    simp only [thread_cons_fst, thread_cons_snd, List.map_cons, List.length_cons, littleEndian_cons, pow_succ_mul]
    omega

/-- The sign of a long sum is that of its last byte. -/
theorem thread_negative (hne : pairs ≠ []) :
    (r.thread addBytes pairs).2.isSet Flag.negative = true ↔
      signed pairs.length (littleEndian (r.thread addBytes pairs).1) < 0 := by
  induction pairs generalizing r with
  | nil => exact absurd rfl hne
  | cons pair rest ih =>
    obtain ⟨a, b⟩ := pair
    by_cases hrest : rest = []
    · subst hrest
      exact r.addBytes_negative a b
    · have hlt := littleEndian_lt ((r.addBytes (a, b)).registers.thread addBytes rest).1
      rw [length_thread] at hlt
      simp only [thread_cons_fst, thread_cons_snd, List.length_cons, littleEndian_cons]
      rw [ih _ hrest, signed_cons (by simpa using hrest) _ hlt]
      omega

/-- **Overflow of a long sum** is overflow of its last byte. -/
theorem thread_overflow (hne : pairs ≠ []) :
    (r.thread addBytes pairs).2.isSet Flag.overflow = true ↔
      ¬FitsSigned pairs.length (signed pairs.length (littleEndian (pairs.map Prod.fst)) +
        signed pairs.length (littleEndian (pairs.map Prod.snd)) + (r.isSet Flag.carry).toNat) := by
  induction pairs generalizing r with
  | nil => exact absurd rfl hne
  | cons pair rest ih =>
    obtain ⟨a, b⟩ := pair
    by_cases hrest : rest = []
    · subst hrest
      exact r.addBytes_overflow a b
    · have hfst := littleEndian_lt (rest.map Prod.fst)
      have hsnd := littleEndian_lt (rest.map Prod.snd)
      rw [List.length_map] at hfst hsnd
      have hn : rest.length ≠ 0 := by simpa using hrest
      have hbyte := r.addBytes_sum a b
      simp only [thread_cons_snd, List.map_cons, List.length_cons, littleEndian_cons]
      rw [ih _ hrest, signed_cons hn a hfst, signed_cons hn b hsnd, ← fitsSigned_cons hn (r.addBytes (a, b)).value]
      -- the byte below the rest, with its carry, is what the two lowest bytes add up to
      congr! 2
      omega

end Registers

/-! ## Differences -/

section

/- To subtract `b` is to add what is left of all ones, and a borrow is a carry that is missing. -/
variable {n a b complement c result : Nat} {carried : Bool} (hcomplement : complement + b + 1 = 256 ^ n)
  (hresult : result < 256 ^ n) (h : result + 256 ^ n * carried.toNat = a + complement + c) (hc : c ≤ 1)
  (ha : a < 256 ^ n)

include hcomplement hresult h

theorem difference_of_sum : (result : Int) = (a - b - (1 - c)) % 256 ^ n := by
  have hcast : ((256 ^ n : Nat) : Int) = 256 ^ n := by push_cast; rfl
  have hexact : (a - b - (1 - c) : Int) = result + (256 ^ n : Nat) * (carried.toNat - 1) := by
    cases carried with
    | false =>
      rw [Bool.toNat_false] at h ⊢
      omega
    | true =>
      rw [Bool.toNat_true] at h ⊢
      omega
  rw [← hcast, hexact, Int.add_mul_emod_self_left, Int.emod_eq_of_lt (by omega) (by omega)]

include hc

theorem carried_iff_no_borrow : carried = true ↔ b + (1 - c) ≤ a := by
  cases carried with
  | false =>
    rw [Bool.toNat_false] at h
    simp only [Bool.false_eq_true, false_iff]
    omega
  | true =>
    rw [Bool.toNat_true] at h
    simp only [true_iff]
    omega

include ha

/-- A difference that does not fit shows the wrong sign, and one that fits its own. -/
theorem sign_of_difference (hn : n ≠ 0) :
    ¬(signed n result < 0 ↔ ¬FitsSigned n (signed n a - signed n b - (1 - c))) ↔
      signed n a - signed n b - (1 - c) < 0 := by
  obtain ⟨half, hpow, -, hcast, -⟩ := exists_half hn
  rw [FitsSigned, signed_eq hresult, signed_eq ha, signed_eq (by omega), hcast, hpow]
  cases carried with
  | false =>
    rw [Bool.toNat_false] at h
    split <;> split <;> split <;> omega
  | true =>
    rw [Bool.toNat_true] at h
    split <;> split <;> split <;> omega

end

/-! ## In memory -/

/-- The cells of one round: those of two bytes, and the one for what is made of them. -/
structure Round where
  left : Addr
  right : Addr
  result : Addr

/-- No result is stored over another, nor over a byte that is still to be read. -/
def Round.Apart (rounds : List Round) : Prop :=
  rounds.Pairwise fun c later => c.result ≠ later.result ∧ c.result ≠ later.left ∧ c.result ≠ later.right

instance : DecidablePred Round.Apart := fun _ => inferInstanceAs (Decidable (List.Pairwise _ _))

/-- The bytes of a round, the right one as `f` has it. -/
def Round.bytes (f : Byte → Byte) (m : FlatMemory) (c : Round) : Byte × Byte := (m.peek c.left, f (m.peek c.right))

namespace Operation

/-- Loads a byte, works another into it and stores the outcome. -/
def round (op : Operation) (r : Registers) (c : Round) : Transaction Registers := do
  let loaded ← Operation.lda.perform (.address c.left) r
  let worked ← op.perform (.address c.right) loaded.registers
  let stored ← Operation.sta.perform (.address c.result) worked.registers
  return stored.registers

/-- Round after round, from the lowest bytes on. -/
def longhand (op : Operation) (rounds : List Round) (r : Registers) : Transaction Registers := rounds.foldlM op.round r

theorem computes_adc : Registers.Computes adc.round Registers.addBytes (Round.bytes id) Round.result :=
  fun _ _ _ => rfl

theorem computes_sbc : Registers.Computes sbc.round Registers.addBytes (Round.bytes (~~~·)) Round.result :=
  fun _ _ _ => rfl

variable {op : Operation} {f : Byte → Byte} {rounds : List Round}

/-- What is common to the two programs: they add, one of them with the bits of the right number turned over. -/
theorem longhand_sum (h : Registers.Computes op.round Registers.addBytes (Round.bytes f) Round.result)
    (hapart : Round.Apart rounds) (hne : rounds ≠ []) (r : Registers) (m : FlatMemory) :
    let n := rounds.length
    let out := (op.longhand rounds r).run m
    let a := m.number (rounds.map Round.left)
    let b := littleEndian ((rounds.map Round.right).map fun addr => f (m.peek addr))
    let c := (r.isSet Flag.carry).toNat
    let result := out.2.number (rounds.map Round.result)
    result + 256 ^ n * (out.1.isSet Flag.carry).toNat = a + b + c ∧
      (out.1.isSet Flag.overflow = true ↔ ¬FitsSigned n (signed n a + signed n b + c)) ∧
      (out.1.isSet Flag.negative = true ↔ signed n result < 0) := by
  intro n out a b c result
  have hinputs : rounds.Pairwise fun k later => k.result ≠ later.result ∧
      ∀ m value, Round.bytes f (m.poke k.result value) later = Round.bytes f m later := by
    refine List.Pairwise.imp (fun {k later} hk => ⟨hk.1, fun m value => ?_⟩) hapart
    simp [Round.bytes, FlatMemory.peek_poke, hk.2.1, hk.2.2]
  have hthread : ((rounds.map Round.result).map out.2.peek, out.1) =
      r.thread Registers.addBytes (rounds.map (Round.bytes f m)) := h.run_foldlM hinputs r m
  have ha : littleEndian ((rounds.map (Round.bytes f m)).map Prod.fst) = a := by
    simp [a, FlatMemory.number, Function.comp_def, Round.bytes]
  have hb : littleEndian ((rounds.map (Round.bytes f m)).map Prod.snd) = b := by
    simp [b, Function.comp_def, Round.bytes]
  have hne' : rounds.map (Round.bytes f m) ≠ [] := by simpa using hne
  have hsum := r.thread_sum (rounds.map (Round.bytes f m))
  have hoverflow := r.thread_overflow _ hne'
  have hnegative := r.thread_negative _ hne'
  rw [← hthread, ha, hb, List.length_map] at hsum hoverflow
  rw [← hthread, List.length_map] at hnegative
  exact ⟨hsum, hoverflow, hnegative⟩

/-- **Long addition and subtraction are exact.** The numbers `a` and `b` are in memory, the carry is `c`. Adding byte by
byte leaves their sum and its carry, and the overflow flag says whether the sum of the signed numbers fits. Subtracting
leaves the difference as far as there are bytes for it, a carry if there is no borrow, and the two flags that compare
signed numbers. No other flag plays a part, and the decimal flag neither. -/
theorem longhand_exact (m : FlatMemory) (r : Registers) (rounds : List Round) (hne : rounds ≠ [])
    (hapart : Round.Apart rounds) :
    let n := rounds.length
    let a := m.number (rounds.map Round.left)
    let b := m.number (rounds.map Round.right)
    let c := (r.isSet Flag.carry).toNat
    let results := rounds.map Round.result
    let sum := (adc.longhand rounds r).run m
    let difference := (sbc.longhand rounds r).run m
    (sum.2.number results + 256 ^ n * (sum.1.isSet Flag.carry).toNat = a + b + c ∧
      (sum.1.isSet Flag.overflow = true ↔ ¬FitsSigned n (signed n a + signed n b + c))) ∧
    ((difference.2.number results : Int) = (a - b - (1 - c)) % 256 ^ n ∧
      (difference.1.isSet Flag.carry = true ↔ b + (1 - c) ≤ a) ∧
      (difference.1.isSet Flag.overflow = true ↔ ¬FitsSigned n (signed n a - signed n b - (1 - c))) ∧
      ((difference.1.isSet Flag.negative ^^ difference.1.isSet Flag.overflow) = true ↔
        signed n a - signed n b - (1 - c) < 0)) := by
  intro n a b c results sum difference
  obtain ⟨hsum, hoverflow, -⟩ := longhand_sum computes_adc hapart hne r m
  refine ⟨⟨hsum, hoverflow⟩, ?_⟩
  obtain ⟨hsum', hoverflow', hnegative'⟩ := longhand_sum computes_sbc hapart hne r m
  have hn : n ≠ 0 := List.length_eq_zero_iff.not.mpr hne
  have hlength (cell : Round → Addr) : 256 ^ (rounds.map cell).length = 256 ^ n := by rw [List.length_map]
  have ha : a < 256 ^ n := (m.number_lt _).trans_eq (hlength _)
  have hresult : difference.2.number results < 256 ^ n := (difference.2.number_lt _).trans_eq (hlength _)
  have hcomplement : littleEndian ((rounds.map Round.right).map fun addr => ~~~m.peek addr) + b + 1 = 256 ^ n := by
    have hall := littleEndian_complement ((rounds.map Round.right).map m.peek)
    rwa [List.length_map, hlength, List.map_map] at hall
  have hc : c ≤ 1 := Bool.toNat_le _
  have hexact : signed n a + signed n (littleEndian ((rounds.map Round.right).map fun addr => ~~~m.peek addr)) + c =
      signed n a - signed n b - (1 - c) := by
    rw [signed_complement hn hcomplement]
    ring
  rw [hexact] at hoverflow'
  refine ⟨difference_of_sum hcomplement hresult hsum', carried_iff_no_borrow hcomplement hresult hsum' hc,
    hoverflow', ?_⟩
  rw [Bool.xor_iff_ne, Ne, Bool.eq_iff_iff, hnegative', hoverflow']
  exact sign_of_difference hcomplement hresult hsum' hc ha hn

/-- Two bytes at 0x10 and two at 0x12, with the result in place of the first number. -/
def sampleRounds : List Round := [⟨0x10, 0x12, 0x10⟩, ⟨0x11, 0x13, 0x11⟩]

/-- The greatest signed number of two bytes, and 1. -/
def sampleNumbers : FlatMemory := FlatMemory.zero.load 0x10 [0xFF, 0x7F, 0x01, 0x00]

theorem number_sampleNumbers :
    sampleNumbers.number (sampleRounds.map Round.left) = 0x7FFF ∧
      sampleNumbers.number (sampleRounds.map Round.right) = 1 := by
  simp [FlatMemory.number, sampleNumbers, sampleRounds, FlatMemory.peek_poke]

theorem longhand_exact_sample :
    let sum := (adc.longhand sampleRounds {}).run sampleNumbers
    let difference := (sbc.longhand sampleRounds {}).run sampleNumbers
    sampleRounds ≠ [] ∧ Round.Apart sampleRounds ∧
      sum.2.number [0x10, 0x11] + 0x10000 * (sum.1.isSet Flag.carry).toNat = 0x8000 ∧
      sum.1.isSet Flag.overflow = true ∧ difference.2.number [0x10, 0x11] = 0x7FFD ∧
      difference.1.isSet Flag.overflow = false := by
  intro sum difference
  have hne : sampleRounds ≠ [] := by decide
  have hapart : Round.Apart sampleRounds := by decide
  obtain ⟨⟨hsum, hoverflow⟩, hdifference, -, hoverflow', -⟩ :=
    longhand_exact sampleNumbers {} sampleRounds hne hapart
  rw [number_sampleNumbers.1, number_sampleNumbers.2] at hsum hoverflow hdifference hoverflow'
  refine ⟨hne, hapart, hsum, hoverflow.mpr (by decide), Int.ofNat_inj.mp hdifference, ?_⟩
  rw [Bool.eq_false_iff, Ne, hoverflow']
  decide

end Operation

end Nes
