/-!
# Decimal text and alignment

Counts are written in decimal without leading zeros; columns are filled with blanks.
-/

namespace Nes

/-- The decimal digits of a number. -/
def decimal (n : Nat) : String := String.ofList (Nat.toDigits 10 n)

/-- A run of blanks. -/
def blanks (n : Nat) : String := String.ofList (List.replicate n ' ')

/-- Text moved to the right end of a column; longer text stays as it is. -/
def alignRight (width : Nat) (text : String) : String := blanks (width - text.length) ++ text

/-- Text at the left end of a column; longer text stays as it is. -/
def alignLeft (width : Nat) (text : String) : String := text ++ blanks (width - text.length)

@[simp] theorem length_blanks (n : Nat) : (blanks n).length = n := by
  simp [blanks]

theorem alignLeft_of_le {width : Nat} {text : String} (h : width ≤ text.length) : alignLeft width text = text := by
  rw [alignLeft, Nat.sub_eq_zero_of_le h]
  exact String.append_empty

end Nes
