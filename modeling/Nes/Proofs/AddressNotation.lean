import Mathlib.Data.List.Forall2
import Mathlib.Data.Nat.Digits.Defs
import Nes.CommandLine.Address
import Nes.Proofs.LineText

/-!
# The notation for addresses

`AddressText` is the language of the addresses on the command line: marks, a sign or none, and hexadecimal digits whose
value is that of an address. Reading follows it exactly (`CommandLine.readAddress_exact`).

* `Numeral.Spells` gives digits their value by their places. Reading digits computes this value; the limit is checked on
  the way, which makes no difference because the value never falls (`Numeral.readDigits_eq_ok_iff`).
* Marks are dropped as long as there are any. None of them is part of a number: a mark that begins with the digit `0`
  goes on with a letter that is no digit (`CommandLine.dropMarks_marks`). And nothing but marks is dropped
  (`CommandLine.exists_marks`).
-/

namespace Nes

/-! ## Digits -/

namespace Numeral

/-- A hexadecimal digit and its value. -/
def IsHexDigit (c : Char) (d : Nat) : Prop := d < 16 ∧ (c = d.digitChar ∨ c = d.digitChar.toUpper)

theorem digitChar_of_lt_ten : ∀ d < 10, Char.ofNat (d + 0x30) = d.digitChar := by
  decide

theorem digitChar_of_ten_le :
    ∀ d < 16, 10 ≤ d → Char.ofNat (d + 0x37) = d.digitChar.toUpper ∧ Char.ofNat (d + 0x57) = d.digitChar := by
  decide

theorem hexValue?_digitChar : ∀ d < 16, hexValue? d.digitChar = some d ∧ hexValue? d.digitChar.toUpper = some d := by
  decide

theorem isHexDigit_of_hexValue? {c : Char} {d : Nat} (h : hexValue? c = some d) : IsHexDigit c d := by
  have hof (base : Nat) (hbase : base ≤ c.toNat) : c = Char.ofNat (c.toNat - base + base) := by
    rw [Nat.sub_add_cancel hbase, Char.ofNat_toNat]
  unfold hexValue? at h
  split at h
  · next hrange =>
    have hlow : 0x30 ≤ c.toNat := hrange.1
    have hhigh : c.toNat ≤ 0x39 := hrange.2
    cases h
    exact ⟨by omega, .inl ((hof 0x30 hlow).trans (digitChar_of_lt_ten _ (by omega)))⟩
  split at h
  · next hrange =>
    have hlow : 0x41 ≤ c.toNat := hrange.1
    have hhigh : c.toNat ≤ 0x46 := hrange.2
    cases h
    exact ⟨by omega, .inr ((hof 0x37 (by omega)).trans (digitChar_of_ten_le _ (by omega) (by omega)).1)⟩
  split at h
  · next hrange =>
    have hlow : 0x61 ≤ c.toNat := hrange.1
    have hhigh : c.toNat ≤ 0x66 := hrange.2
    cases h
    exact ⟨by omega, .inl ((hof 0x57 (by omega)).trans (digitChar_of_ten_le _ (by omega) (by omega)).2)⟩
  · cases h

theorem hexValue?_eq_some_iff {c : Char} {d : Nat} : hexValue? c = some d ↔ IsHexDigit c d := by
  refine ⟨isHexDigit_of_hexValue?, ?_⟩
  rintro ⟨hlt, rfl | rfl⟩
  · exact (hexValue?_digitChar d hlt).1
  · exact (hexValue?_digitChar d hlt).2

theorem digit?_eq_some_iff {c : Char} {d : Nat} : digit? 16 c = some d ↔ IsHexDigit c d := by
  rw [digit?, Option.filter_eq_some_iff, hexValue?_eq_some_iff]
  exact and_iff_left_of_imp fun h => decide_eq_true h.1

/-- The characters of marks and signs, the digit `0` apart, are no digits. -/
theorem not_isHexDigit {c : Char} (h : c ∈ ['$', 'x', 'X', '+']) (d : Nat) : ¬IsHexDigit c d := by
  have hnone : hexValue? c = none := by
    simp only [List.mem_cons, List.not_mem_nil, or_false] at h
    rcases h with rfl | rfl | rfl | rfl <;> rfl
  rw [← hexValue?_eq_some_iff, hnone]
  exact nofun

/-! ## Numbers -/

/-- One digit or more, and the number that they spell, the first digit at the highest place. -/
def Spells (digits : List Char) (n : Nat) : Prop :=
  digits ≠ [] ∧ ∃ values, List.Forall₂ IsHexDigit digits values ∧ Nat.ofDigits 16 values.reverse = n

/-- One more digit behind a number. -/
abbrev append (n d : Nat) : Nat := n * 16 + d

theorem ofDigits_reverse (values : List Nat) : Nat.ofDigits 16 values.reverse = values.foldl append 0 := by
  rw [Nat.ofDigits_eq_foldr, List.foldr_reverse]
  congr
  funext n d
  simp only [Nat.cast_id, append]
  omega

theorem le_foldl_append (n : Nat) (values : List Nat) : n ≤ values.foldl append n := by
  induction values generalizing n with
  | nil => exact Nat.le_refl n
  | cons d values ih =>
    have := ih (append n d)
    rw [List.foldl_cons]
    unfold append at *
    omega

theorem IsHexDigit.value_eq {c : Char} {d d' : Nat} (h : IsHexDigit c d) (h' : IsHexDigit c d') : d = d' := by
  rw [← hexValue?_eq_some_iff] at h h'
  exact Option.some.inj (h.symm.trans h')

theorem exists_values_cons {c : Char} {cs : List Char} {d : Nat} (hc : IsHexDigit c d) {P : List Nat → Prop} :
    (∃ values, List.Forall₂ IsHexDigit (c :: cs) values ∧ P values) ↔
      ∃ values, List.Forall₂ IsHexDigit cs values ∧ P (d :: values) := by
  constructor
  · rintro ⟨_, hvalues, hp⟩
    obtain ⟨d', values, hc', hrest, rfl⟩ := List.forall₂_cons_left_iff.mp hvalues
    exact ⟨values, hrest, hc.value_eq hc' ▸ hp⟩
  · rintro ⟨values, hrest, hp⟩
    exact ⟨d :: values, .cons hc hrest, hp⟩

/-- Digits are read one after another, and the number that they make must be below the limit. -/
theorem readDigits_eq_ok_iff {limit value n : Nat} (hvalue : value < limit) (cs : List Char) :
    readDigits 16 limit value cs = .ok n ↔
      ∃ values, List.Forall₂ IsHexDigit cs values ∧ values.foldl append value = n ∧ n < limit := by
  induction cs generalizing value with
  | nil =>
    simp only [readDigits, List.forall₂_nil_left_iff, exists_eq_left, List.foldl_nil, Except.ok.injEq]
    constructor
    · rintro rfl
      exact ⟨rfl, hvalue⟩
    · exact And.left
  | cons c cs ih =>
    unfold readDigits
    cases hdigit : digit? 16 c with
    | none =>
      refine ⟨nofun, ?_⟩
      rintro ⟨_, hvalues, -⟩
      obtain ⟨d, _, hc, -, -⟩ := List.forall₂_cons_left_iff.mp hvalues
      rw [digit?_eq_some_iff.mpr hc] at hdigit
      cases hdigit
    | some d =>
      rw [exists_values_cons (digit?_eq_some_iff.mp hdigit)]
      simp only [List.foldl_cons]
      by_cases hlt : append value d < limit
      · rw [if_pos hlt, ih hlt]
      · rw [if_neg hlt]
        refine ⟨nofun, ?_⟩
        rintro ⟨values, -, rfl, hlimit⟩
        have := le_foldl_append (append value d) values
        omega

section

variable {digits : List Char} {n d : Nat} {c : Char}

theorem Spells.isHexDigit (h : Spells digits n) : ∀ c ∈ digits, ∃ d, IsHexDigit c d := by
  obtain ⟨-, values, hvalues, -⟩ := h
  exact ((List.forall₂_and_left digits values).mp (hvalues.imp fun _ d hd => ⟨⟨d, hd⟩, hd⟩)).1

theorem Spells.not_mem (h : Spells digits n) (hc : c ∈ ['$', 'x', 'X', '+']) : c ∉ digits := by
  intro hmem
  obtain ⟨d, hd⟩ := h.isHexDigit c hmem
  exact not_isHexDigit hc d hd

theorem readDigits_zero_eq_ok_iff {limit : Nat} (hlimit : 0 < limit) (hne : digits ≠ []) :
    readDigits 16 limit 0 digits = .ok n ↔ Spells digits n ∧ n < limit := by
  rw [readDigits_eq_ok_iff hlimit]
  simp only [Spells, ofDigits_reverse]
  constructor
  · rintro ⟨values, hvalues, hn, hlt⟩
    exact ⟨⟨hne, values, hvalues, hn⟩, hlt⟩
  · rintro ⟨⟨-, values, hvalues, hn⟩, hlt⟩
    exact ⟨values, hvalues, hn, hlt⟩

theorem read_signed (radix limit : Nat) (hne : digits ≠ []) :
    read radix limit ('+' :: digits) = readDigits radix limit 0 digits := by
  cases digits with
  | nil => exact absurd rfl hne
  | cons c digits => rfl

theorem read_unsigned (radix limit : Nat) (hne : digits ≠ []) (hplus : '+' ∉ digits) :
    read radix limit digits = readDigits radix limit 0 digits := by
  fun_cases read radix limit digits with
  | case1 => exact absurd rfl hne
  | case2 => exact absurd List.mem_cons_self hplus
  | case3 => exact absurd List.mem_cons_self hplus
  | case4 => rfl

/-- **What is read as a number**: a sign or none, and then digits that spell a number below the limit. -/
theorem read_eq_ok_iff {limit : Nat} (hlimit : 0 < limit) {cs : List Char} : read 16 limit cs = .ok n ↔
    ∃ sign digits, cs = sign ++ digits ∧ (sign = [] ∨ sign = ['+']) ∧ Spells digits n ∧ n < limit := by
  constructor
  · intro h
    unfold read at h
    split at h
    · cases h
    · cases h
    · next digits hne =>
      exact ⟨['+'], digits, rfl, .inr rfl, (readDigits_zero_eq_ok_iff hlimit hne).mp h⟩
    · next hne _ _ =>
      exact ⟨[], cs, rfl, .inl rfl, (readDigits_zero_eq_ok_iff hlimit hne).mp h⟩
  · rintro ⟨sign, digits, rfl, rfl | rfl, hspells⟩
    · rw [List.nil_append, read_unsigned 16 limit hspells.1.1 (hspells.1.not_mem (by decide))]
      exact (readDigits_zero_eq_ok_iff hlimit hspells.1.1).mpr hspells
    · rw [List.singleton_append, read_signed 16 limit hspells.1.1]
      exact (readDigits_zero_eq_ok_iff hlimit hspells.1.1).mpr hspells

/-! ## Numbers that are written -/

theorem spells_singleton (h : IsHexDigit c d) : Spells [c] d :=
  ⟨List.cons_ne_nil c [], [d], .cons h .nil, Nat.ofDigits_singleton⟩

theorem Spells.concat (h : Spells digits n) (hc : IsHexDigit c d) : Spells (digits ++ [c]) (append n d) := by
  obtain ⟨-, values, hvalues, hn⟩ := h
  refine ⟨by simp, values ++ [d], List.rel_append hvalues (.cons hc .nil), ?_⟩
  rw [ofDigits_reverse] at hn ⊢
  rw [List.foldl_concat, hn]

theorem Spells.zeros (h : Spells digits n) (zeros : Nat) : Spells (.replicate zeros '0' ++ digits) n := by
  induction zeros with
  | zero => exact h
  | succ zeros ih =>
    obtain ⟨-, values, hvalues, hn⟩ := ih
    refine ⟨List.cons_ne_nil _ _, 0 :: values, .cons ⟨by decide, .inl rfl⟩ hvalues, ?_⟩
    rw [List.reverse_cons, Nat.ofDigits_append_zero, hn]

/-- A number is spelled by its digits, in either case. -/
theorem spells_toDigits {shape : Char → Char} (hshape : ∀ d < 16, IsHexDigit (shape d.digitChar) d) (n : Nat) :
    Spells ((Nat.toDigits 16 n).map shape) n := by
  induction n using Nat.strongRecOn with
  | _ n ih =>
    by_cases hlt : n < 16
    · rw [Nat.toDigits_of_lt_base hlt]
      exact spells_singleton (hshape n hlt)
    · have hdigits : Nat.toDigits 16 n = Nat.toDigits 16 (n / 16) ++ [(n % 16).digitChar] := by
        rw [Nat.toDigits_eq_if (by decide), if_neg hlt]
      have hparts : append (n / 16) (n % 16) = n := Nat.div_add_mod' n 16
      have hspells := (ih (n / 16) (by omega)).concat (hshape (n % 16) (by omega))
      rw [hparts] at hspells
      rw [hdigits, List.map_append]
      exact hspells

end

end Numeral

/-! ## Marks -/

namespace CommandLine

open Numeral

/-- A mark of two characters, as often as given. -/
def repeated (first second : Char) (k : Nat) : List Char := (List.replicate k [first, second]).flatten

/-- Dollar signs, then `0x`, then `0X`, as many as given. -/
def marks (dollars lower upper : Nat) : List Char :=
  List.replicate dollars '$' ++ (repeated '0' 'x' lower ++ repeated '0' 'X' upper)

section

variable {first second c : Char} {rest : List Char}

@[simp] theorem repeated_zero : repeated first second 0 = [] := rfl

@[simp] theorem repeated_succ (k : Nat) : repeated first second (k + 1) = first :: second :: repeated first second k := rfl

theorem not_mem_repeated_append (hfirst : c ≠ first) (hsecond : c ≠ second) (hrest : c ∉ rest) (k : Nat) :
    c ∉ repeated first second k ++ rest := by
  induction k with
  | zero => exact hrest
  | succ k ih => simpa [hfirst, hsecond] using ih

/-- Nothing but marks is dropped. -/
theorem exists_dropMark (first second : Char) (cs : List Char) :
    ∃ k, cs = repeated first second k ++ dropMark first second cs := by
  fun_induction dropMark first second cs with
  | case1 a b rest h ih =>
    obtain ⟨rfl, rfl⟩ := h
    obtain ⟨k, hk⟩ := ih
    exact ⟨k + 1, congrArg (a :: b :: ·) hk⟩
  | case2 a b rest h => exact ⟨0, rfl⟩
  | case3 cs h => exact ⟨0, rfl⟩

/-- Every mark is dropped. -/
theorem dropMark_repeated (h : second ∉ rest) (k : Nat) :
    dropMark first second (repeated first second k ++ rest) = rest := by
  induction k with
  | zero =>
    rw [repeated_zero, List.nil_append]
    fun_cases dropMark first second rest with
    | case1 a b tail hmark => exact absurd (by simp [hmark.2]) h
    | case2 => rfl
    | case3 => rfl
  | succ k ih => rw [repeated_succ, List.cons_append, List.cons_append, dropMark, if_pos ⟨rfl, rfl⟩, ih]

/-- Nothing but marks is dropped, of all three kinds. -/
theorem exists_marks (cs : List Char) : ∃ dollars lower upper, cs = marks dollars lower upper ++ dropMarks cs := by
  obtain ⟨lower, hlower⟩ := exists_dropMark '0' 'x' (cs.dropWhile (· = '$'))
  obtain ⟨upper, hupper⟩ := exists_dropMark '0' 'X' (dropMark '0' 'x' (cs.dropWhile (· = '$')))
  have hdollars : cs.takeWhile (· = '$') = .replicate (cs.takeWhile (· = '$')).length '$' :=
    List.eq_replicate_of_mem fun c hc => by simpa using List.mem_takeWhile_imp hc
  refine ⟨(cs.takeWhile (· = '$')).length, lower, upper, ?_⟩
  calc
    cs = cs.takeWhile (· = '$') ++ cs.dropWhile (· = '$') := List.takeWhile_append_dropWhile.symm
    _ = _ := by rw [marks, dropMarks, ← hdollars, List.append_assoc, List.append_assoc, ← hupper, ← hlower]

/-- Every mark is dropped, of all three kinds, in front of text that holds none of their own characters. -/
theorem dropMarks_marks (h : ∀ c ∈ ['$', 'x', 'X'], c ∉ rest) (dollars lower upper : Nat) :
    dropMarks (marks dollars lower upper ++ rest) = rest := by
  have hx : 'x' ∉ repeated '0' 'X' upper ++ rest :=
    not_mem_repeated_append (by decide) (by decide) (h 'x' (by decide)) upper
  have hdollar : '$' ∉ repeated '0' 'X' upper ++ rest :=
    not_mem_repeated_append (by decide) (by decide) (h '$' (by decide)) upper
  have hdollar' : '$' ∉ repeated '0' 'x' lower ++ (repeated '0' 'X' upper ++ rest) :=
    not_mem_repeated_append (by decide) (by decide) hdollar lower
  rw [marks, dropMarks, List.append_assoc, List.append_assoc, dropWhile_replicate_append dollars hdollar',
    dropMark_repeated hx, dropMark_repeated (h 'X' (by decide))]

end

/-! ## Addresses -/

/-- The texts of addresses: marks, a sign or none, and digits. -/
inductive AddressText : List Char → Nat → Prop
  | intro (dollars lower upper : Nat) {sign digits : List Char} {n : Nat} (hsign : sign = [] ∨ sign = ['+'])
    (hdigits : Spells digits n) (hlimit : n ≤ 0xFFFF) : AddressText (marks dollars lower upper ++ (sign ++ digits)) n

theorem read_dropMarks_eq_ok_iff {cs : List Char} {n : Nat} :
    Numeral.read 16 0x10000 (dropMarks cs) = .ok n ↔ AddressText cs n := by
  rw [read_eq_ok_iff (by decide)]
  constructor
  · rintro ⟨sign, digits, hdrop, hsign, hdigits, hlimit⟩
    obtain ⟨dollars, lower, upper, hcs⟩ := exists_marks cs
    rw [hcs, hdrop]
    exact .intro dollars lower upper hsign hdigits (by omega)
  · rintro @⟨dollars, lower, upper, sign, digits, _, hsign, hdigits, hlimit⟩
    have hbare : ∀ c ∈ ['$', 'x', 'X'], c ∉ sign ++ digits := by
      intro c hc hmem
      rcases List.mem_append.mp hmem with hmem | hmem
      · rcases hsign with rfl | rfl
        · cases hmem
        · rw [List.mem_singleton.mp hmem] at hc
          exact absurd hc (by decide)
      · exact hdigits.not_mem (List.mem_append_left ['+'] hc) hmem
    exact ⟨sign, digits, dropMarks_marks hbare dollars lower upper, hsign, hdigits, by omega⟩

theorem readAddress_eq_ok_iff {s : String} {a : Addr} : readAddress s = .ok a ↔ AddressText s.toList a.toNat := by
  rw [← read_dropMarks_eq_ok_iff, readAddress]
  cases hread : Numeral.read 16 0x10000 (dropMarks s.toList) with
  | error cause => exact ⟨nofun, nofun⟩
  | ok n =>
    obtain ⟨_, _, -, -, -, hlimit⟩ := (read_eq_ok_iff (by decide)).mp hread
    show Except.ok (BitVec.ofNat 16 n) = .ok a ↔ _
    rw [Except.ok.injEq, Except.ok.injEq, ← BitVec.toNat_inj, BitVec.toNat_ofNat, Nat.mod_eq_of_lt hlimit]

theorem readAddress_eq_error_iff {s : String} :
    (∃ cause, readAddress s = .error cause) ↔ ∀ n, ¬AddressText s.toList n := by
  constructor
  · rintro ⟨cause, hcause⟩ n htext
    rw [readAddress, read_dropMarks_eq_ok_iff.mpr htext] at hcause
    cases hcause
  · intro hnone
    cases hread : readAddress s with
    | error cause => exact ⟨cause, rfl⟩
    | ok a => exact absurd (readAddress_eq_ok_iff.mp hread) (hnone a.toNat)

/-- A number behind one mark at most. -/
theorem addressText_of_mark {mark : String} (hmark : mark ∈ ["", "$", "0x", "0X"]) {digits : List Char} {n : Nat}
    (hdigits : Spells digits n) (hlimit : n ≤ 0xFFFF) : AddressText (mark.toList ++ digits) n := by
  obtain ⟨dollars, lower, upper, hmarks⟩ : ∃ dollars lower upper, mark.toList = marks dollars lower upper := by
    simp only [List.mem_cons, List.not_mem_nil, or_false] at hmark
    rcases hmark with rfl | rfl | rfl | rfl
    · exact ⟨0, 0, 0, rfl⟩
    · exact ⟨1, 0, 0, rfl⟩
    · exact ⟨0, 1, 0, rfl⟩
    · exact ⟨0, 0, 1, rfl⟩
  rw [hmarks]
  exact .intro dollars lower upper (.inl rfl) hdigits hlimit

/-- **The notation for addresses is read exactly.**

* A text is read as an address if and only if it is any number of dollar signs, then any number of `0x`, then any number
  of `0X`, a plus sign or none, and one hexadecimal digit or more that spell the address.
* All other texts are refused.
* An address written with its digits in either case, with zeros before them, and bare or with one mark, is read back. -/
theorem readAddress_exact :
    (∀ (s : String) (a : Addr), readAddress s = .ok a ↔ AddressText s.toList a.toNat) ∧
    (∀ s : String, (∃ cause, readAddress s = .error cause) ↔ ∀ n, ¬AddressText s.toList n) ∧
    ∀ (a : Addr) (zeros : Nat), ∀ mark ∈ ["", "$", "0x", "0X"], ∀ shape ∈ [id, Char.toUpper],
      readAddress (mark ++ String.ofList (.replicate zeros '0' ++ (Nat.toDigits 16 a.toNat).map shape)) = .ok a := by
  refine ⟨fun s a => readAddress_eq_ok_iff, fun s => readAddress_eq_error_iff, ?_⟩
  intro a zeros mark hmark shape hshape
  have hcase : ∀ d < 16, IsHexDigit (shape d.digitChar) d := by
    simp only [List.mem_cons, List.not_mem_nil, or_false] at hshape
    rcases hshape with rfl | rfl
    · exact fun d hlt => ⟨hlt, .inl rfl⟩
    · exact fun d hlt => ⟨hlt, .inr rfl⟩
  have hlimit : a.toNat ≤ 0xFFFF := Nat.le_of_lt_succ a.isLt
  rw [readAddress_eq_ok_iff, String.toList_append, String.toList_ofList]
  exact addressText_of_mark hmark ((spells_toDigits hcase a.toNat).zeros zeros) hlimit

theorem readAddress_exact_sample : readAddress "0X000BEEF" = .ok 0xBEEF := by
  have hmark : "0X" ∈ ["", "$", "0x", "0X"] := by decide
  have htext : "0X000BEEF" =
      "0X" ++ String.ofList (.replicate 3 '0' ++ (Nat.toDigits 16 (0xBEEF : Addr).toNat).map Char.toUpper) := by
    decide
  rw [htext]
  exact readAddress_exact.2.2 0xBEEF 3 "0X" hmark Char.toUpper (by simp)

end CommandLine

end Nes
