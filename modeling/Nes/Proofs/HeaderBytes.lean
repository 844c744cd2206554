import Nes.Cartridge.Loading

/-!
# The bytes of a header

The header by which an image is loaded has the first sixteen bytes of the image (`Header.raw`); the high half of byte 7
is cleared if a lenient reader repairs it (`Header.accepted`).

* The reserved byte that is found in use is the first one (`Header.dirtyOffset?_raw_of_least`).
* Sizes and mapper number are sums over the bytes that have their bits, in either format (`Header.spelledBy_accepted`).
* A repair leaves the format, so of the two checks that a header goes through only one can refuse it
  (`Header.load_of_long`).
-/

namespace Nes

/-! ## What is read -/

/-- Whether byte 7 marks the newer format. -/
def IsNewer (image : Array Byte) : Prop := image.getD 7 0 &&& 0x0C = 0x08

instance (image : Array Byte) : Decidable (IsNewer image) :=
  inferInstanceAs (Decidable (image.getD 7 0 &&& 0x0C = 0x08))

/-- Whether the mapper bits of byte 7 are not believed: a lenient reader finds one of the last four header bytes of the
older format in use. -/
def IsRepaired (strictness : Strictness) (image : Array Byte) : Prop :=
  strictness = .lenient ∧ ¬IsNewer image ∧ ∃ i ∈ [12, 13, 14, 15], image.getD i 0 ≠ 0

instance (strictness : Strictness) (image : Array Byte) : Decidable (IsRepaired strictness image) :=
  inferInstanceAs (Decidable (_ ∧ _ ∧ _))

/-- The header by which an image is loaded: its first sixteen bytes, with the high half of byte 7 cleared if it is
repaired. -/
def Header.accepted (strictness : Strictness) (image : Array Byte) : Header :=
  ⟨.ofFn fun i => if i.val = 7 ∧ IsRepaired strictness image then image.getD 7 0 &&& 0x0F else image.getD i 0⟩

/-- What the bytes of an image say of the parts and the board. A bank count or a mapper number is a sum over the bytes
that have its bits. -/
structure Header.SpelledBy (strictness : Strictness) (image : Array Byte) (h : Header) : Prop where
  trainer : h.trainer = true ↔ (image.getD 6 0).toNat / 4 % 2 = 1
  prgBanks : h.prgBanks = (image.getD 4 0).toNat + if IsNewer image then 256 * ((image.getD 9 0).toNat % 16) else 0
  chrBanks : h.chrBanks = (image.getD 5 0).toNat + if IsNewer image then 256 * ((image.getD 9 0).toNat / 16) else 0
  mapper : h.mapper = (image.getD 6 0).toNat / 16 +
    (if IsRepaired strictness image then 0 else 16 * ((image.getD 7 0).toNat / 16)) +
    if IsNewer image then 256 * ((image.getD 8 0).toNat % 16) else 0
  prgRamSize : h.prgRamSize =
    if IsNewer image then if (image.getD 10 0).toNat % 16 = 0 then 0 else 64 <<< ((image.getD 10 0).toNat % 16)
    else if (image.getD 10 0).toNat / 16 % 2 = 1 then 0 else max (image.getD 8 0).toNat 1 * 8192
  /-- No sum of sizes leaves the range of a machine word. -/
  imageSize_lt : h.imageSize < 0x8000000

/-! ## Nibbles -/

theorem Byte.toNat_lowNibble (b : Byte) : b.lowNibble.toNat = b.toNat % 16 := by
  simp [Byte.lowNibble]

theorem Byte.toNat_highNibble (b : Byte) : b.highNibble.toNat = b.toNat / 16 := by
  have := b.isLt
  simp only [Byte.highNibble, BitVec.extractLsb'_toNat, Nat.shiftRight_eq_div_pow]
  omega

/-- A nibble above a byte. -/
theorem Byte.toNat_extended (n : BitVec 4) (b : Byte) : (n ++ b).toNat = 256 * n.toNat + b.toNat := by
  rw [BitVec.toNat_append, Nat.shiftLeft_eq, Nat.mul_comm, ← Nat.two_pow_add_eq_or_of_lt b.isLt]

namespace Header

variable {strictness : Strictness} {image : Array Byte}

/-- The number that three nibbles make. -/
theorem toNat_nibbles (a b c : BitVec 4) : (a ++ b ++ c).toNat = 256 * a.toNat + 16 * b.toNat + c.toNat := by
  have hb := b.isLt
  have hc := c.isLt
  have hhigh : (a ++ b).toNat = 16 * a.toNat + b.toNat := by
    rw [BitVec.toNat_append, Nat.shiftLeft_eq, Nat.mul_comm, ← Nat.two_pow_add_eq_or_of_lt hb]
  rw [BitVec.toNat_append, Nat.shiftLeft_eq, Nat.mul_comm, ← Nat.two_pow_add_eq_or_of_lt hc, hhigh]
  omega

/-! ## The first sixteen bytes -/

theorem flags_dropMapperHigh (h : Header) : h.dropMapperHigh.bytes[7] = h.bytes[7] &&& 0x0F := by
  simp [dropMapperHigh]

theorem format_dropMapperHigh (h : Header) : h.dropMapperHigh.format = h.format := by
  rw [format, format, flags_dropMapperHigh, BitVec.and_assoc]
  rfl

/-- The first sixteen bytes as they stand. -/
def raw (image : Array Byte) : Header := ⟨.ofFn fun i => image.getD i 0⟩

theorem getElem_raw (image : Array Byte) (i : Nat) (h : i < headerSize) : (raw image).bytes[i] = image.getD i 0 := by
  simp [raw]

theorem ofImage?_of_lt (h : image.size < 16) : ofImage? image = none := by
  simp [ofImage?, headerSize, h]

theorem ofImage?_of_le (h : 16 ≤ image.size) : ofImage? image = some (raw image) := by
  simp only [ofImage?, headerSize, h, dite_true, Option.some.injEq]
  refine congrArg Header.mk (Vector.ext fun i hi => ?_)
  have : i < image.size := by omega
  simp [Array.getD, this]

theorem format_raw (image : Array Byte) : (raw image).format = if IsNewer image then .nes20 else .ines := by
  simp [format, getElem_raw, IsNewer]

theorem signature_raw (image : Array Byte) :
    (raw image).signature = #v[image.getD 0 0, image.getD 1 0, image.getD 2 0, image.getD 3 0] := by
  simp [signature, getElem_raw]

theorem accepted_of_not_repaired (h : ¬IsRepaired strictness image) : accepted strictness image = raw image := by
  simp [accepted, raw, h]

theorem accepted_of_repaired (h : IsRepaired strictness image) :
    accepted strictness image = (raw image).dropMapperHigh := by
  refine congrArg Header.mk (Vector.ext fun i hi => ?_)
  simp only [h, and_true, Vector.getElem_ofFn, getElem_raw, Vector.getElem_set, eq_comm]

theorem isOverwritten_raw (image : Array Byte) :
    (raw image).isOverwritten = true ↔ ∃ i ∈ [12, 13, 14, 15], image.getD i 0 ≠ 0 := by
  simp only [isOverwritten, List.any_cons, List.any_nil, Fin.getElem_fin, getElem_raw, Bool.or_eq_true, bne_iff_ne,
    Bool.or_false, List.mem_cons, List.not_mem_nil, or_false, exists_eq_or_imp, exists_eq_left]
  exact Iff.rfl

theorem hasHugeSize_raw (image : Array Byte) : (raw image).hasHugeSize = true ↔
    (image.getD 9 0).toNat % 16 = 15 ∨ (image.getD 9 0).toNat / 16 = 15 := by
  simp only [hasHugeSize, getElem_raw, Bool.or_eq_true, beq_iff_eq, ← BitVec.toNat_inj, Byte.toNat_lowNibble,
    Byte.toNat_highNibble]
  rfl

theorem mem_reserved : ∀ i : Fin headerSize, i ∈ ([11, 12, 13, 14, 15] : List (Fin headerSize)) ↔ 11 ≤ i.val := by
  decide

/-- The first reserved byte in use: those before it are zero. -/
theorem dirtyOffset?_raw_eq_some {k : Fin headerSize} (h : (raw image).dirtyOffset? = some k) :
    11 ≤ k.val ∧ image.getD k 0 ≠ 0 ∧ ∀ i, 11 ≤ i → i < k.val → image.getD i 0 = 0 := by
  obtain ⟨hk, before, after, hsplit, hbefore⟩ := List.find?_eq_some_iff_append.mp h
  simp only [Fin.getElem_fin, getElem_raw, bne_iff_ne] at hk
  have hsorted : (before ++ k :: after).Pairwise (· < ·) := by rw [← hsplit]; decide
  have hmem (i : Fin headerSize) : i ∈ before ++ k :: after ↔ 11 ≤ i.val := by rw [← hsplit]; exact mem_reserved i
  refine ⟨(hmem k).mp (by simp), hk, fun i h11 hlt => ?_⟩
  have hi : i < headerSize := Nat.lt_trans hlt k.isLt
  -- the list is sorted, so a smaller reserved offset was tried before `k`
  have hin : (⟨i, hi⟩ : Fin headerSize) ∈ before := by
    rcases List.mem_append.mp ((hmem ⟨i, hi⟩).mpr h11) with hb | ha
    · exact hb
    · rcases List.mem_cons.mp ha with rfl | ha
      · exact absurd hlt (Nat.lt_irrefl i)
      · exact absurd (List.rel_of_pairwise_cons (List.pairwise_append.mp hsorted).2.1 ha) (Nat.lt_asymm hlt)
  simpa [getElem_raw] using hbefore _ hin

theorem dirtyOffset?_raw_eq_none : (raw image).dirtyOffset? = none ↔ ∀ i, 11 ≤ i → i ≤ 15 → image.getD i 0 = 0 := by
  simp only [dirtyOffset?, List.find?_eq_none, Fin.getElem_fin, getElem_raw, bne_iff_ne, ne_eq, Decidable.not_not,
    mem_reserved]
  constructor
  · intro h i h11 h15
    exact h ⟨i, Nat.lt_succ_of_le h15⟩ h11
  · intro h i hi
    exact h i hi (Nat.le_of_lt_succ i.isLt)

/-- The least reserved offset that holds something is the one that is found. -/
theorem dirtyOffset?_raw_of_least {offset : Nat} (h11 : 11 ≤ offset) (h15 : offset ≤ 15) (hne : image.getD offset 0 ≠ 0)
    (hleast : ∀ i, 11 ≤ i → i < offset → image.getD i 0 = 0) :
    ∃ k : Fin headerSize, (raw image).dirtyOffset? = some k ∧ k.val = offset := by
  cases hd : (raw image).dirtyOffset? with
  | none => exact absurd (dirtyOffset?_raw_eq_none.mp hd offset h11 h15) hne
  | some k =>
    obtain ⟨hk11, hk, hbefore⟩ := dirtyOffset?_raw_eq_some hd
    refine ⟨k, rfl, ?_⟩
    rcases Nat.lt_trichotomy k.val offset with hlt | heq | hgt
    · exact absurd (hleast k hk11 hlt) hk
    · exact heq
    · exact absurd (hbefore offset h11 hgt) hne

/-! ## The accepted header -/

theorem getElem_accepted {i : Nat} (hi : i < 16) (hne : i ≠ 7) :
    (accepted strictness image).bytes[i] = image.getD i 0 := by
  simp [accepted, hne]

theorem format_accepted (strictness : Strictness) (image : Array Byte) :
    (accepted strictness image).format = if IsNewer image then .nes20 else .ines := by
  by_cases hr : IsRepaired strictness image
  · rw [accepted_of_repaired hr, format_dropMapperHigh, format_raw]
  · rw [accepted_of_not_repaired hr, format_raw]

theorem toNat_mapperHigh_accepted (strictness : Strictness) (image : Array Byte) :
    (accepted strictness image).mapperHigh.toNat =
      if IsRepaired strictness image then 0 else (image.getD 7 0).toNat / 16 := by
  unfold mapperHigh
  by_cases hr : IsRepaired strictness image
  · have hcleared : ∀ b : Byte, (b &&& 0x0F).highNibble.toNat = 0 := by decide
    rw [accepted_of_repaired hr, flags_dropMapperHigh, hcleared, if_pos hr]
  · rw [accepted_of_not_repaired hr, getElem_raw, Byte.toNat_highNibble, if_neg hr]

theorem prgRamPresent_accepted (strictness : Strictness) (image : Array Byte) :
    (accepted strictness image).prgRamPresent =
      if IsNewer image then (image.getD 10 0).toNat % 16 != 0 else (image.getD 10 0).toNat / 16 % 2 != 1 := by
  have hbits : ∀ b : Byte, (b.lowNibble != 0) = (b.toNat % 16 != 0) ∧ (!b.getLsbD 4) = (b.toNat / 16 % 2 != 1) := by
    decide
  rw [prgRamPresent, format_accepted, getElem_accepted (by omega) (by omega)]
  by_cases hn : IsNewer image
  · simp only [if_pos hn, (hbits _).1]
  · simp only [if_neg hn, (hbits _).2]

/-- **The header by which an image is loaded says what the bytes spell**, in either format. -/
theorem spelledBy_accepted (strictness : Strictness) (image : Array Byte) :
    (accepted strictness image).SpelledBy strictness image where
  trainer := by
    have hbit : ∀ b : Byte, b.getLsbD 2 = true ↔ b.toNat / 4 % 2 = 1 := by decide
    rw [trainer, getElem_accepted (by omega) (by omega), hbit]
  prgBanks := by
    rw [prgBanks, format_accepted, getElem_accepted (by omega) (by omega), getElem_accepted (by omega) (by omega)]
    by_cases hn : IsNewer image
    · simp only [if_pos hn, Byte.toNat_extended, Byte.toNat_lowNibble, Nat.add_comm]
    · simp only [if_neg hn, Nat.add_zero]
  chrBanks := by
    rw [chrBanks, format_accepted, getElem_accepted (by omega) (by omega), getElem_accepted (by omega) (by omega)]
    by_cases hn : IsNewer image
    · simp only [if_pos hn, Byte.toNat_extended, Byte.toNat_highNibble, Nat.add_comm]
    · simp only [if_neg hn, Nat.add_zero]
  mapper := by
    have hnone : BitVec.toNat (0 : BitVec 4) = 0 := rfl
    rw [mapper, format_accepted, getElem_accepted (by omega) (by omega), getElem_accepted (by omega) (by omega)]
    by_cases hn : IsNewer image
    · simp only [if_pos hn, toNat_nibbles, toNat_mapperHigh_accepted, Byte.toNat_lowNibble, Byte.toNat_highNibble]
      split <;> omega
    · simp only [if_neg hn, toNat_nibbles, toNat_mapperHigh_accepted, hnone, Byte.toNat_highNibble]
      split <;> omega
  prgRamSize := by
    rw [prgRamSize, format_accepted, prgRamPresent_accepted, getElem_accepted (by omega) (by omega),
      getElem_accepted (by omega) (by omega)]
    by_cases hn : IsNewer image
    · simp only [if_pos hn, bne_iff_ne, ite_not, Byte.toNat_lowNibble]
    · simp only [if_neg hn, bne_iff_ne, ite_not]
  imageSize_lt := imageSize_lt _

/-! ## The two checks of a header -/

/-- After the check of the older format that of the newer one finds nothing, since a repair leaves the format. -/
theorem checkPadding_bind_checkSizes {h : Header} (hformat : h.format = .ines) :
    (h.checkPadding strictness >>= checkSizes) = h.checkPadding strictness := by
  have holder {h' : Header} (hsame : h'.format = h.format) : h'.checkSizes = pure h' := by
    simp [checkSizes, hsame, hformat]
  unfold checkPadding
  cases h.dirtyOffset? with
  | none => exact holder rfl
  | some offset =>
    cases strictness with
    | strict => rfl
    | lenient =>
      by_cases ho : h.isOverwritten = true
      · simp only [ho, if_true, bind_assoc, pure_bind, holder h.format_dropMapperHigh]
      · simp only [ho, Bool.false_eq_true, if_false, bind_assoc, pure_bind, holder rfl]

theorem load_of_short (h : image.size < 16) : load strictness image = throw .tooShort := by
  rw [load, ofImage?_of_lt h]

/-- A header is checked in one way or in the other. -/
theorem load_of_long (h : 16 ≤ image.size) : load strictness image =
    if (raw image).signature ≠ magic then throw (.badMagic (raw image).signature)
    else match (raw image).format with
      | .ines => (raw image).checkPadding strictness
      | .nes20 => if (raw image).hasHugeSize then throw .sizeOverflow else return raw image := by
  rw [load, ofImage?_of_le h]
  by_cases hmagic : (raw image).signature ≠ magic
  · simp only [if_pos hmagic]
  simp only [if_neg hmagic]
  cases hformat : (raw image).format with
  | ines => exact checkPadding_bind_checkSizes hformat
  | nes20 =>
    simp only [reduceCtorEq, if_false, pure_bind, checkSizes, hformat, true_and]

end Header

end Nes
