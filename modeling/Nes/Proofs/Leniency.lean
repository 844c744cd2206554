import Nes.Proofs.Loading

/-!
# Strict and lenient readers

A strict and a lenient reader go through the same checks and differ in one of them. What comes of a header does not depend
on the bytes behind it nor on what was reported (`Header.verdict`, `Header.yields_load_append`), and there are three ways
in which the two readers judge it (`Header.Judged`): both refuse it for the same cause, both accept it as it is, or the
strict one refuses it for its reserved bytes and the lenient one repairs it.

* What a header says is `Header.Properties`. A repair changes none of it but the mapper number
  (`Header.properties_dropMapperHigh`).
* A lenient reader accepts what it made of a header as it is (`Header.verdict_of_lenient`), since a repair leaves the bytes
  that the verdict depends on (`Header.judged_by_repaired`).

`Header.readers_agree` says what this means for the readers of an image.
-/

namespace Nes

namespace Header

/-! ## What a header says -/

/-- Everything that is read off a header. -/
structure Properties where
  format : HeaderFormat
  prgBanks : Nat
  chrBanks : Nat
  prgRomSize : Nat
  chrRomSize : Nat
  prgRamPresent : Bool
  prgRamSize : Nat
  mapper : Nat
  submapper : Nat
  fourScreen : Bool
  mirroring : Mirroring
  battery : Bool
  trainer : Bool
  vsSystem : Bool
  playChoice : Bool
  tvSystem : TvSystem
  tvCompatibility : TvCompatibility
  busConflicts : Bool
  deriving DecidableEq

def properties (h : Header) : Properties where
  format := h.format
  prgBanks := h.prgBanks
  chrBanks := h.chrBanks
  prgRomSize := h.prgRomSize
  chrRomSize := h.chrRomSize
  prgRamPresent := h.prgRamPresent
  prgRamSize := h.prgRamSize
  mapper := h.mapper
  submapper := h.submapper
  fourScreen := h.fourScreen
  mirroring := h.mirroring
  battery := h.battery
  trainer := h.trainer
  vsSystem := h.vsSystem
  playChoice := h.playChoice
  tvSystem := h.tvSystem
  tvCompatibility := h.tvCompatibility
  busConflicts := h.busConflicts

/-! ## Repair -/

section Repair

variable (h : Header)

theorem getElem_dropMapperHigh {i : Nat} (hi : i < headerSize) (hne : 7 ≠ i) :
    h.dropMapperHigh.bytes[i] = h.bytes[i] := by
  simp [dropMapperHigh, hne]

/-- Without its high bits the mapper number is what byte 6 has of it. -/
theorem mapper_dropMapperHigh (hformat : h.format = .ines) : h.dropMapperHigh.mapper = h.mapper % 16 := by
  have hzero : h.dropMapperHigh.mapperHigh = 0#4 := by
    have hnibble : ∀ b : Byte, (b &&& 0x0F).highNibble = 0#4 := by decide
    rw [mapperHigh, flags_dropMapperHigh, hnibble]
  have hlow : h.dropMapperHigh.bytes[6] = h.bytes[6] := h.getElem_dropMapperHigh _ (by decide)
  have hbound := h.bytes[6].highNibble.isLt
  simp only [mapper, format_dropMapperHigh, hformat, toNat_nibbles, hzero, hlow, BitVec.ofNat_eq_ofNat,
    BitVec.toNat_ofNat]
  omega

/-- **A repair changes the mapper number and nothing else.** -/
theorem properties_dropMapperHigh :
    h.dropMapperHigh.properties = { h.properties with mapper := h.dropMapperHigh.mapper } := by
  have hformat := h.format_dropMapperHigh
  have h4 : h.dropMapperHigh.bytes[4] = h.bytes[4] := h.getElem_dropMapperHigh _ (by decide)
  have h5 : h.dropMapperHigh.bytes[5] = h.bytes[5] := h.getElem_dropMapperHigh _ (by decide)
  have h6 : h.dropMapperHigh.bytes[6] = h.bytes[6] := h.getElem_dropMapperHigh _ (by decide)
  have h8 : h.dropMapperHigh.bytes[8] = h.bytes[8] := h.getElem_dropMapperHigh _ (by decide)
  have h9 : h.dropMapperHigh.bytes[9] = h.bytes[9] := h.getElem_dropMapperHigh _ (by decide)
  have h10 : h.dropMapperHigh.bytes[10] = h.bytes[10] := h.getElem_dropMapperHigh _ (by decide)
  have h12 : h.dropMapperHigh.bytes[12] = h.bytes[12] := h.getElem_dropMapperHigh _ (by decide)
  -- of byte 7 the low half is left, which has the format and the flags of the console
  have hflag : ∀ b : Byte, (b &&& 0x0F).getLsbD 0 = b.getLsbD 0 ∧ (b &&& 0x0F).getLsbD 1 = b.getLsbD 1 := by decide
  have hvs : h.dropMapperHigh.vsSystem = h.vsSystem := by rw [vsSystem, vsSystem, flags_dropMapperHigh, (hflag _).1]
  have hpc : h.dropMapperHigh.playChoice = h.playChoice := by
    rw [playChoice, playChoice, flags_dropMapperHigh, (hflag _).2]
  have hprg : h.dropMapperHigh.prgBanks = h.prgBanks := by rw [prgBanks, prgBanks, hformat, h4, h9]
  have hchr : h.dropMapperHigh.chrBanks = h.chrBanks := by rw [chrBanks, chrBanks, hformat, h5, h9]
  have hpresent : h.dropMapperHigh.prgRamPresent = h.prgRamPresent := by
    rw [prgRamPresent, prgRamPresent, hformat, h10]
  have hram : h.dropMapperHigh.prgRamSize = h.prgRamSize := by
    rw [prgRamSize, prgRamSize, hformat, hpresent, h8, h10]
  have hsub : h.dropMapperHigh.submapper = h.submapper := by rw [submapper, submapper, hformat, h8]
  have hscreen : h.dropMapperHigh.fourScreen = h.fourScreen := by rw [fourScreen, fourScreen, h6]
  have hmirroring : h.dropMapperHigh.mirroring = h.mirroring := by rw [mirroring, mirroring, hscreen, h6]
  have htv : h.dropMapperHigh.tvSystem = h.tvSystem := by rw [tvSystem, tvSystem, hformat, h9, h12]
  have htvs : h.dropMapperHigh.tvCompatibility = h.tvCompatibility := by
    rw [tvCompatibility, tvCompatibility, hformat, h10, h12]
  have hbus : h.dropMapperHigh.busConflicts = h.busConflicts := by rw [busConflicts, busConflicts, hformat, h10]
  simp only [properties, prgRomSize, chrRomSize, battery, trainer, hformat, h6, hvs, hpc, hprg, hchr, hpresent, hram,
    hsub, hscreen, hmirroring, htv, htvs, hbus]

/-- What a lenient reader makes of a header of the older format. -/
def repaired (h : Header) : Header := if h.isOverwritten then h.dropMapperHigh else h

theorem isOverwritten_dropMapperHigh : h.dropMapperHigh.isOverwritten = h.isOverwritten := by
  have hkept (i : Fin headerSize) (hne : 7 ≠ i.val) := h.getElem_dropMapperHigh i.isLt hne
  simp only [isOverwritten, List.any_cons, List.any_nil, Fin.getElem_fin, hkept 12 (by decide), hkept 13 (by decide),
    hkept 14 (by decide), hkept 15 (by decide)]

theorem dirtyOffset?_dropMapperHigh : h.dropMapperHigh.dirtyOffset? = h.dirtyOffset? := by
  have hkept (i : Fin headerSize) (hne : 7 ≠ i.val) := h.getElem_dropMapperHigh i.isLt hne
  simp only [dirtyOffset?, List.find?_cons, List.find?_nil, Fin.getElem_fin, hkept 11 (by decide), hkept 12 (by decide),
    hkept 13 (by decide), hkept 14 (by decide), hkept 15 (by decide)]

theorem signature_dropMapperHigh : h.dropMapperHigh.signature = h.signature := by
  simp [signature, dropMapperHigh]

theorem dropMapperHigh_dropMapperHigh : h.dropMapperHigh.dropMapperHigh = h.dropMapperHigh := by
  have hmask : ∀ b : Byte, b &&& 0x0F &&& 0x0F = b &&& 0x0F := by decide
  refine congrArg Header.mk ?_
  rw [flags_dropMapperHigh, hmask, dropMapperHigh, Vector.set_set]

end Repair

/-! ## How a header is judged -/

/-- What comes of a header of the older format. -/
def paddingVerdict (strictness : Strictness) (h : Header) : Except LoadError Header :=
  match h.dirtyOffset?, strictness with
  | none, _ => .ok h
  | some offset, .strict => .error (.dirtyPadding offset (h.bytes.get offset))
  | some _, .lenient => .ok h.repaired

/-- What comes of a header. -/
def verdict (strictness : Strictness) (h : Header) : Except LoadError Header :=
  if h.signature ≠ magic then .error (.badMagic h.signature)
  else match h.format with
    | .ines => h.paddingVerdict strictness
    | .nes20 => if h.hasHugeSize then .error .sizeOverflow else .ok h

/-- How a strict and a lenient reader judge a header. -/
inductive Judged (h : Header) : Except LoadError Header → Except LoadError Header → Prop
  /-- There is a cause that no reader passes over. -/
  | refused {e : LoadError} : (∀ offset value, e ≠ .dirtyPadding offset value) → Judged h (.error e) (.error e)
  | accepted : Judged h (.ok h) (.ok h)
  | repaired {offset : Nat} {value : Byte} : h.format = .ines →
      Judged h (.error (.dirtyPadding offset value)) (.ok h.repaired)

theorem judged (h : Header) : Judged h (h.verdict .strict) (h.verdict .lenient) := by
  unfold verdict
  by_cases hmagic : h.signature ≠ magic
  · rw [if_pos hmagic, if_pos hmagic]
    exact .refused fun _ _ he => nomatch he
  rw [if_neg hmagic, if_neg hmagic]
  cases hformat : h.format with
  | ines =>
    unfold paddingVerdict
    cases h.dirtyOffset? with
    | none => exact .accepted
    | some offset => exact .repaired hformat
  | nes20 =>
    by_cases hsize : h.hasHugeSize = true
    · simp only [hsize, if_true]
      exact .refused fun _ _ he => nomatch he
    · simp only [hsize]
      exact .accepted

theorem repaired_cases (h : Header) :
    h.isOverwritten = true ∧ h.repaired = h.dropMapperHigh ∨ h.isOverwritten = false ∧ h.repaired = h := by
  unfold repaired
  cases h.isOverwritten with
  | true => exact .inl ⟨rfl, rfl⟩
  | false => exact .inr ⟨rfl, rfl⟩

/-- A repair leaves what a header is judged by. -/
theorem judged_by_repaired (h : Header) : h.repaired.signature = h.signature ∧ h.repaired.format = h.format ∧
    h.repaired.dirtyOffset? = h.dirtyOffset? ∧ h.repaired.repaired = h.repaired := by
  rcases h.repaired_cases with ⟨hover, hr⟩ | ⟨hover, hr⟩
  · rw [hr]
    refine ⟨h.signature_dropMapperHigh, h.format_dropMapperHigh, h.dirtyOffset?_dropMapperHigh, ?_⟩
    rw [repaired, isOverwritten_dropMapperHigh, hover, if_pos rfl, dropMapperHigh_dropMapperHigh]
  · rw [hr]
    exact ⟨rfl, rfl, rfl, hr⟩

/-- **A lenient reader accepts what it made of a header.** -/
theorem verdict_of_lenient {h r : Header} (hr : h.verdict .lenient = .ok r) : r.verdict .lenient = .ok r := by
  have hjudged := h.judged
  rw [hr] at hjudged
  generalize h.verdict .strict = strict at hjudged
  cases hjudged with
  | accepted => exact hr
  | repaired hformat =>
    obtain ⟨hsignature, hformat', hdirty, hagain⟩ := h.judged_by_repaired
    unfold verdict paddingVerdict at hr ⊢
    rw [hsignature, hformat', hformat, hdirty, hagain]
    by_cases hmagic : h.signature ≠ magic
    · rw [if_pos hmagic] at hr
      cases hr
    · rw [if_neg hmagic]
      cases h.dirtyOffset? with
      | none => rfl
      | some offset => rfl

/-! ## Readers of images -/

section Readers

open Loading (Yields yields_pure yields_throw yields_report)

variable {strictness : Strictness} {image : Array Byte}

theorem yields_tooShort (h : image.size < 16) : Yields (load strictness image) (.error .tooShort) := by
  rw [load_of_short h]
  exact yields_throw _

theorem yields_paddingVerdict (h : Header) : Yields (h.checkPadding strictness) (h.paddingVerdict strictness) := by
  unfold checkPadding paddingVerdict
  cases h.dirtyOffset? with
  | none => exact yields_pure h
  | some offset =>
    cases strictness with
    | strict => exact yields_throw _
    | lenient =>
      rcases h.repaired_cases with ⟨hover, hr⟩ | ⟨hover, hr⟩
      · simp only [hr, hover, if_true]
        exact (yields_report _).bind_ok (yields_pure _)
      · simp only [hr, hover, Bool.false_eq_true, if_false]
        exact (yields_report _).bind_ok (yields_pure _)

theorem toArray_raw (h : 16 ≤ image.size) : (raw image).bytes.toArray = image.extract 0 16 := by
  have hheader := ofImage?_of_le h
  rw [ofImage?, dif_pos h] at hheader
  exact (congrArg (·.bytes.toArray) (Option.some.inj hheader)).symm

/-- A reader ends with the verdict on the first sixteen bytes. -/
theorem yields_verdict (h : 16 ≤ image.size) : Yields (load strictness image) ((raw image).verdict strictness) := by
  rw [load_of_long h, verdict]
  by_cases hmagic : (raw image).signature ≠ magic
  · simp only [if_pos hmagic]
    exact yields_throw _
  simp only [if_neg hmagic]
  cases (raw image).format with
  | ines => exact yields_paddingVerdict (raw image)
  | nes20 =>
    by_cases hsize : (raw image).hasHugeSize = true
    · simp only [if_pos hsize]
      exact yields_throw _
    · simp only [if_neg hsize]
      exact yields_pure _

theorem raw_append (h : Header) (rest : Array Byte) : raw (h.bytes.toArray ++ rest) = h := by
  refine congrArg Header.mk (Vector.ext fun i hi => ?_)
  have hsize : i < h.bytes.toArray.size := by simpa using hi
  rw [Vector.getElem_ofFn, Array.getD_eq_getD_getElem?, Array.getElem?_append_left hsize]
  simp [hi]

/-- What comes of a header, whatever follows it. -/
theorem yields_load_append (strictness : Strictness) (h : Header) (rest : Array Byte) :
    Yields (load strictness (h.bytes.toArray ++ rest)) (h.verdict strictness) := by
  have hsize : 16 ≤ (h.bytes.toArray ++ rest).size := by simp
  have hverdict : Yields (load strictness _) _ := yields_verdict hsize
  rwa [raw_append] at hverdict

/-- One of the last four bytes of the header is in use. -/
def Overwritten (image : Array Byte) : Prop := ∃ i ∈ [12, 13, 14, 15], image.getD i 0 ≠ 0

instance (image : Array Byte) : Decidable (Overwritten image) := inferInstanceAs (Decidable (∃ i ∈ [12, 13, 14, 15], _))

theorem repaired_raw_cases (image : Array Byte) :
    Overwritten image ∧ (raw image).repaired = (raw image).dropMapperHigh ∨
      ¬Overwritten image ∧ (raw image).repaired = raw image := by
  have hiff : (raw image).isOverwritten = true ↔ Overwritten image := isOverwritten_raw image
  rcases (raw image).repaired_cases with ⟨hover, hr⟩ | ⟨hover, hr⟩
  · exact .inl ⟨hiff.mp hover, hr⟩
  · exact .inr ⟨mt hiff.mpr (Bool.eq_false_iff.mp hover), hr⟩

theorem getD_repaired_raw (image : Array Byte) {i : Nat} (hi : i < 16) : (raw image).repaired.bytes.toArray.getD i 0 =
    if i = 7 ∧ Overwritten image then image.getD 7 0 &&& 0x0F else image.getD i 0 := by
  have hget (h : Header) : h.bytes.toArray.getD i 0 = h.bytes[i] := by simp [hi]
  rw [hget]
  rcases repaired_raw_cases image with ⟨hover, hr⟩ | ⟨hover, hr⟩
  · by_cases h7 : i = 7
    · subst h7
      simp only [hr, flags_dropMapperHigh, getElem_raw, hover, and_self, if_true]
    · simp only [hr, getElem_dropMapperHigh _ hi (Ne.symm h7), getElem_raw, h7, false_and, if_false]
  · simp only [hr, getElem_raw, hover, and_false, if_false]

theorem properties_repaired_raw (hformat : (raw image).format = .ines) : (raw image).repaired.properties =
    { (raw image).properties with
      mapper := if Overwritten image then (raw image).mapper % 16 else (raw image).mapper } := by
  rcases repaired_raw_cases image with ⟨hover, hr⟩ | ⟨hover, hr⟩
  · rw [hr, properties_dropMapperHigh, mapper_dropMapperHigh _ hformat, if_pos hover]
  · rw [hr, if_neg hover]
    rfl

theorem Judged.of_ok {h r : Header} {strict lenient : Except LoadError Header} (hjudged : Judged h strict lenient)
    (hstrict : strict = .ok r) : lenient = .ok r ∧ r = h := by
  cases hjudged with
  | refused he => cases hstrict
  | accepted =>
    cases hstrict
    exact ⟨rfl, rfl⟩
  | repaired hformat => cases hstrict

theorem Judged.of_error {h : Header} {e : LoadError} {strict lenient : Except LoadError Header}
    (hjudged : Judged h strict lenient) (hstrict : strict = .error e)
    (he : ∀ offset value, e ≠ .dirtyPadding offset value) :
    lenient = .error e := by
  cases hjudged with
  | refused _ => exact hstrict
  | accepted => cases hstrict
  | repaired hformat =>
    cases hstrict
    exact absurd rfl (he _ _)

theorem Judged.of_dirtyPadding {h : Header} {offset : Nat} {value : Byte} {strict lenient : Except LoadError Header}
    (hjudged : Judged h strict lenient) (hstrict : strict = .error (.dirtyPadding offset value)) :
    lenient = .ok h.repaired ∧ h.format = .ines := by
  cases hjudged with
  | refused he =>
    cases hstrict
    exact absurd rfl (he _ _)
  | accepted => cases hstrict
  | repaired hformat => exact ⟨rfl, hformat⟩

/-- **Strict and lenient readers agree, except about reserved bytes that are in use.**

* What a strict reader accepts a lenient one accepts as well: the first sixteen bytes as they are.
* What a strict reader refuses for any other cause a lenient one refuses for the same cause.
* What a strict reader refuses for its reserved bytes a lenient one accepts. The high half of byte 7 is cleared if and only
  if one of the last four bytes is in use, and no other byte is changed. Of what the header says nothing changes but the
  mapper number, which keeps its low four bits.
* What a lenient reader made of a header it accepts as it is, whatever follows. -/
theorem readers_agree (image : Array Byte) :
    let strict := (load .strict image).conclude.result
    let lenient := (load .lenient image).conclude.result
    (∀ h, strict = .ok h → lenient = .ok h ∧ h.bytes.toArray = image.extract 0 16) ∧
    (∀ e, strict = .error e → (∀ offset value, e ≠ .dirtyPadding offset value) → lenient = .error e) ∧
    (∀ offset value, strict = .error (.dirtyPadding offset value) → ∃ h, lenient = .ok h ∧
      (∀ i < 16, h.bytes.toArray.getD i 0 =
        if i = 7 ∧ Overwritten image then image.getD 7 0 &&& 0x0F else image.getD i 0) ∧
      h.properties = { (raw image).properties with
        mapper := if Overwritten image then (raw image).mapper % 16 else (raw image).mapper }) ∧
    ∀ h, lenient = .ok h → ∀ rest, (load .lenient (h.bytes.toArray ++ rest)).conclude.result = .ok h := by
  intro strict lenient
  rcases Nat.lt_or_ge image.size 16 with hsize | hsize
  · have hstrict : strict = .error .tooShort := (yields_tooShort hsize).result_conclude
    have hlenient : lenient = .error .tooShort := (yields_tooShort hsize).result_conclude
    rw [hstrict, hlenient]
    exact ⟨fun h hh => (nomatch hh), fun e he _ => he, fun offset value he => (nomatch he), fun h hh => (nomatch hh)⟩
  have hstrict : strict = (raw image).verdict .strict := (yields_verdict hsize).result_conclude
  have hlenient : lenient = (raw image).verdict .lenient := (yields_verdict hsize).result_conclude
  have hjudged : Judged (raw image) strict lenient := by
    rw [hstrict, hlenient]
    exact (raw image).judged
  refine ⟨?_, fun e => hjudged.of_error, ?_, ?_⟩
  · intro h hh
    obtain ⟨hok, rfl⟩ := hjudged.of_ok hh
    exact ⟨hok, toArray_raw hsize⟩
  · intro offset value he
    obtain ⟨hok, hformat⟩ := hjudged.of_dirtyPadding he
    exact ⟨_, hok, fun i hi => getD_repaired_raw image hi, properties_repaired_raw hformat⟩
  · intro h hh rest
    rw [(yields_load_append .lenient h rest).result_conclude]
    exact verdict_of_lenient (hlenient.symm.trans hh)

/-- A header over whose end a tool wrote its name. -/
def sampleTagged : Array Byte :=
  #[0x4E, 0x45, 0x53, 0x1A, 2, 1, 0x30, 0x44, 0x69, 0x73, 0x6B, 0x44, 0x75, 0x64, 0x65, 0x21]

theorem readers_agree_sample :
    (load .strict sampleTagged).conclude.result = .error (.dirtyPadding 11 0x44) ∧
      ∃ h, (load .lenient sampleTagged).conclude.result = .ok h ∧ h.mapper = 3 ∧
        (load .lenient (h.bytes.toArray ++ #[0xFF])).conclude.result = .ok h := by
  have hstrict : (load .strict sampleTagged).conclude.result = .error (.dirtyPadding 11 0x44) := rfl
  obtain ⟨-, -, hdirty, hagain⟩ := readers_agree sampleTagged
  obtain ⟨h, hlenient, -, hproperties⟩ := hdirty 11 0x44 hstrict
  have hmapper := congrArg Properties.mapper hproperties
  refine ⟨hstrict, h, hlenient, hmapper.trans (by decide), hagain h hlenient #[0xFF]⟩

end Readers

end Header

end Nes
