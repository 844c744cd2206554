import Nes.Proofs.HeaderBytes

/-!
# What comes of an image

An image has a *fault* for every cause that applies to it (`Fault`), read off its bytes, and the causes are looked for
in a fixed order (`LoadError.order`). Loading ends with the first fault, and without one in the cartridge whose storage
is cut out of the image end to end (`Built`). Both are told by the header by which the image is loaded, and so by the
image's bytes (`Header.SpelledBy`).

* `Loading.Yields`: a step of loading ends in the same way whatever was reported before it, so steps compose.
* `Cartridge.load_first_fault`: an image with a fault is refused for its first one.
* `Cartridge.load_without_fault`: an image without a fault is loaded.
* `Cartridge.load_exact` puts both together: every outcome has exactly one description.
-/

namespace Nes

/-! ## Steps of loading -/

namespace Loading

variable {α γ : Type} {l : Loading α} {f : α → Loading γ} {a : α} {e : LoadError} {r : Except LoadError γ}

/-- The step ends in `r`, whatever was reported before it. -/
def Yields (l : Loading α) (r : Except LoadError α) : Prop := ∀ notices, ((ExceptT.run l).run notices).1 = r

theorem yields_pure (a : α) : Yields (pure a) (.ok a) := fun _ => rfl

theorem yields_throw (e : LoadError) : Yields (throw e : Loading α) (.error e) := fun _ => rfl

theorem yields_report (n : Notice) : Yields (report n) (.ok ()) := fun _ => rfl

theorem yields_lift (x : Except LoadError α) : Yields (x : Loading α) x := by
  intro n
  cases x <;> rfl

theorem Yields.bind_ok (h : Yields l (.ok a)) (hf : Yields (f a) r) : Yields (l >>= f) r := by
  intro n
  have hl := h n
  simp only [ExceptT.run_bind, StateT.run_bind]
  cases hx : (ExceptT.run l).run n with
  | mk x n' =>
    rw [hx] at hl
    subst hl
    exact hf n'

theorem Yields.bind_error (h : Yields l (.error e)) : Yields (l >>= f) (.error e) := by
  intro n
  have hl := h n
  simp only [ExceptT.run_bind, StateT.run_bind]
  cases hx : (ExceptT.run l).run n with
  | mk x n' =>
    rw [hx] at hl
    subst hl
    rfl

theorem Yields.result_conclude {r : Except LoadError α} (h : Yields l r) : l.conclude.result = r := h #[]

end Loading

/-! ## Faults -/

/-- The parts that a header announces, in the order of the image, with their lengths. -/
def Header.parts (h : Header) : List (ImagePart × Nat) :=
  (if h.trainer then [(.trainer, 512)] else []) ++ (.prgRom, h.prgBanks * 16384) ::
    (if 0 < h.chrBanks then [(.chrRom, h.chrBanks * 8192)] else [])

/-- Parts laid end to end, each with the offset at which it starts. -/
def layOut (start : Nat) : List (ImagePart × Nat) → List (ImagePart × Nat × Nat)
  | [] => []
  | (part, size) :: rest => (part, start, size) :: layOut (start + size) rest

/-- The causes that apply to an image. -/
inductive Fault (strictness : Strictness) (image : Array Byte) : LoadError → Prop
  | tooShort : image.size < 16 → Fault strictness image .tooShort
  | badMagic {found : Vector Byte 4} :
    found = #v[image.getD 0 0, image.getD 1 0, image.getD 2 0, image.getD 3 0] → found ≠ #v[0x4E, 0x45, 0x53, 0x1A] →
      Fault strictness image (.badMagic found)
  /-- The least offset from 11 to 15 that holds something in the older format, for a strict reader. -/
  | dirtyPadding {offset : Nat} :
    strictness = .strict → ¬IsNewer image → 11 ≤ offset → offset ≤ 15 → image.getD offset 0 ≠ 0 →
      (∀ i, 11 ≤ i → i < offset → image.getD i 0 = 0) →
        Fault strictness image (.dirtyPadding offset (image.getD offset 0))
  /-- In the newer format, half of byte 9 is `$F`. -/
  | sizeOverflow :
    IsNewer image → (image.getD 9 0).toNat % 16 = 15 ∨ (image.getD 9 0).toNat / 16 = 15 →
      Fault strictness image .sizeOverflow
  | unsupportedMapper {mapper : Nat} :
    mapper = (Header.accepted strictness image).mapper → mapper ≠ 0 → mapper ≠ 3 →
      Fault strictness image (.unsupportedMapper mapper)
  /-- A part that the header announces does not end inside the image. -/
  | truncated {part : ImagePart} {start size : Nat} :
    (part, start, size) ∈ layOut 16 (Header.accepted strictness image).parts → image.size < start + size →
      Fault strictness image (.truncated part size (image.size - start))

/-- The order in which causes are looked for. -/
def LoadError.order : LoadError → Nat
  | .tooShort => 0
  | .badMagic _ => 1
  | .dirtyPadding _ _ => 2
  | .sizeOverflow => 3
  | .unsupportedMapper _ => 4
  | .truncated .trainer _ _ => 5
  | .truncated .prgRom _ _ => 6
  | .truncated .chrRom _ _ => 7
  | .unreadable _ => 8

/-- The cartridge that an image without a fault describes: its ROM is cut out of the image where the parts lie. -/
structure Built (strictness : Strictness) (image : Array Byte) (c : Cartridge) : Prop where
  header : c.header = .accepted strictness image
  board : c.board = if c.header.mapper = 0 then .nrom (.ofHeader c.header) else .cnrom (.ofHeader c.header) 0
  prgRom : ∀ start size, (.prgRom, start, size) ∈ layOut 16 c.header.parts →
    c.prgRom = image.extract start (start + size)
  chrRom : ∀ start size, (.chrRom, start, size) ∈ layOut 16 c.header.parts →
    c.chr = image.extract start (start + size)
  chrRam : c.header.chrBanks = 0 → c.chr = .replicate 8192 0
  chrIsRam : c.chrIsRam = true ↔ c.header.chrBanks = 0
  prgRam : c.prgRam = .replicate c.header.prgRamSize 0

/-! ## The steps in order -/

/-- No cause before the `n`-th applies. -/
def ClearBefore (strictness : Strictness) (image : Array Byte) (n : Nat) : Prop :=
  ∀ e, Fault strictness image e → n ≤ e.order

section Steps

variable {strictness : Strictness} {image : Array Byte}

open Loading (Yields yields_pure yields_throw yields_report yields_lift)

theorem ClearBefore.mono {m n : Nat} (h : ClearBefore strictness image n) (hm : m ≤ n) :
    ClearBefore strictness image m := fun e he => Nat.le_trans hm (h e he)

theorem ClearBefore.size_ge (h : ClearBefore strictness image 1) : 16 ≤ image.size := by
  refine Nat.le_of_not_lt fun hs => ?_
  exact absurd (h _ (.tooShort hs)) (by decide)

theorem ClearBefore.signature_eq (h : ClearBefore strictness image 2) :
    (Header.raw image).signature = Header.magic := by
  refine Decidable.byContradiction fun hm => ?_
  rw [Header.signature_raw] at hm
  exact absurd (h _ (.badMagic rfl hm)) (by simp [LoadError.order])

/-- Past the signature, loading the header is checking its reserved bytes or its size notation. -/
theorem Header.load_of_clear (h : ClearBefore strictness image 2) : Header.load strictness image =
    if IsNewer image then (if (raw image).hasHugeSize then throw .sizeOverflow else return raw image)
    else (raw image).checkPadding strictness := by
  rw [load_of_long (h.mono (by decide)).size_ge]
  simp only [h.signature_eq, ne_eq, not_true_eq_false, if_false, format_raw]
  by_cases hn : IsNewer image <;> simp [hn]

/-- A header that no cause forbids is accepted. -/
theorem Header.yields_load (h : ClearBefore strictness image 4) :
    Yields (Header.load strictness image) (.ok (accepted strictness image)) := by
  rw [Header.load_of_clear (h.mono (by decide))]
  by_cases hn : IsNewer image
  · have hr : ¬IsRepaired strictness image := fun hr => hr.2.1 hn
    have hs : (raw image).hasHugeSize = false := by
      rw [← Bool.not_eq_true, hasHugeSize_raw]
      exact fun hs => absurd (h _ (.sizeOverflow hn hs)) (by decide)
    rw [if_pos hn, hs, accepted_of_not_repaired hr]
    exact yields_pure _
  · rw [if_neg hn, checkPadding.eq_def]
    cases hd : (raw image).dirtyOffset? with
    | none =>
      have hz := dirtyOffset?_raw_eq_none.mp hd
      have hr : ¬IsRepaired strictness image := by
        rintro ⟨-, -, i, hi, hne⟩
        exact hne (hz i (by simp at hi; omega) (by simp at hi; omega))
      rw [accepted_of_not_repaired hr]
      exact yields_pure _
    | some k =>
      obtain ⟨h11, hk, hbefore⟩ := dirtyOffset?_raw_eq_some hd
      cases strictness with
      | strict =>
        have hf : Fault .strict image (.dirtyPadding k (image.getD k 0)) :=
          .dirtyPadding rfl hn h11 (Nat.le_of_lt_succ k.isLt) hk hbefore
        exact absurd (h _ hf) (by simp [LoadError.order])
      | lenient =>
        by_cases ho : (raw image).isOverwritten = true
        · have hr : IsRepaired .lenient image := ⟨rfl, hn, (isOverwritten_raw image).mp ho⟩
          rw [accepted_of_repaired hr]
          simp only [ho, if_true]
          exact (yields_report _).bind_ok (yields_pure _)
        · have hr : ¬IsRepaired .lenient image := fun hr => ho ((isOverwritten_raw image).mpr hr.2.2)
          rw [accepted_of_not_repaired hr]
          simp only [ho]
          exact (yields_report _).bind_ok (yields_pure _)

/-- What is wrong with a header is said of it, if nothing before it is wrong. -/
theorem Header.yields_load_error {e : LoadError} (he : Fault strictness image e)
    (hfirst : ClearBefore strictness image e.order) (hlt : e.order < 4) :
    Yields (Header.load strictness image) (.error e) := by
  cases he with
  | tooShort hs =>
    rw [Header.load_of_short hs]
    exact yields_throw _
  | badMagic hfound hm =>
    rw [Header.load_of_long hfirst.size_ge]
    simp only [signature_raw, ← hfound]
    rw [if_pos (by simpa [magic] using hm)]
    exact yields_throw _
  | dirtyPadding hstrict hn h11 h15 hk hbefore =>
    obtain ⟨k, hd, rfl⟩ := dirtyOffset?_raw_of_least h11 h15 hk hbefore
    rw [Header.load_of_clear hfirst, if_neg hn, hstrict, checkPadding.eq_def, hd]
    simp only [Fin.getElem_fin, getElem_raw]
    exact yields_throw _
  | sizeOverflow hn hs =>
    rw [Header.load_of_clear (hfirst.mono (by decide)), if_pos hn, if_pos ((hasHugeSize_raw image).mpr hs)]
    exact yields_throw _
  | unsupportedMapper _ _ _ => exact absurd hlt (by simp [LoadError.order])
  | @truncated part _ _ _ _ => cases part <;> exact absurd hlt (by simp [LoadError.order])

/-- Where the parts lie. -/
theorem Header.mem_layOut (h : Header) {part : ImagePart} {start size : Nat} :
    (part, start, size) ∈ layOut 16 h.parts ↔
      (part = .trainer ∧ h.trainer = true ∧ start = headerSize ∧ size = trainerSize) ∨
      (part = .prgRom ∧ start = h.prgStart ∧ size = h.prgRomSize) ∨
      (part = .chrRom ∧ h.chrBanks ≠ 0 ∧ start = h.chrStart ∧ size = h.chrRomSize) := by
  unfold parts chrStart prgStart prgRomSize chrRomSize
  by_cases ht : h.trainer = true <;> by_cases hc : h.chrBanks = 0 <;>
    simp [ht, hc, layOut, headerSize, trainerSize, Nat.pos_iff_ne_zero]

theorem ClearBefore.mapper_eq (h : ClearBefore strictness image 5) :
    (Header.accepted strictness image).mapper = 0 ∨ (Header.accepted strictness image).mapper = 3 := by
  refine Decidable.byContradiction fun hm => ?_
  obtain ⟨h0, h3⟩ := not_or.mp hm
  exact absurd (h _ (.unsupportedMapper rfl h0 h3)) (by simp [LoadError.order])

/-- A part before the first fault lies inside the image. -/
theorem ClearBefore.part_le {n start size : Nat} {part : ImagePart} (h : ClearBefore strictness image n)
    (hp : (part, start, size) ∈ layOut 16 (Header.accepted strictness image).parts)
    (hn : (LoadError.truncated part size (image.size - start)).order < n) : start + size ≤ image.size := by
  refine Nat.le_of_not_lt fun hs => ?_
  exact absurd (h _ (.truncated hp hs)) (Nat.not_le_of_lt hn)

theorem yields_takePart {part : ImagePart} {start size : Nat} (h : start + size ≤ image.size) :
    Yields (takePart image part start size) (.ok (image.extract start (start + size))) := by
  rw [takePart, if_pos h]
  exact yields_pure _

theorem yields_takePart_error {part : ImagePart} {start size : Nat} (h : image.size < start + size) :
    Yields (takePart image part start size) (.error (.truncated part size (image.size - start))) := by
  rw [takePart, if_neg (Nat.not_le_of_lt h)]
  exact yields_throw _

theorem Board.ofHeader_of_supported {h : Header} (hm : h.mapper = 0 ∨ h.mapper = 3) :
    Board.ofHeader h = .ok (if h.mapper = 0 then .nrom (.ofHeader h) else .cnrom (.ofHeader h) 0) := by
  rcases hm with hm | hm <;> simp [Board.ofHeader, hm]

theorem Board.ofHeader_of_unsupported {h : Header} (h0 : h.mapper ≠ 0) (h3 : h.mapper ≠ 3) :
    Board.ofHeader h = .error (.unsupportedMapper h.mapper) := by
  unfold Board.ofHeader
  split
  · contradiction
  · contradiction
  · rfl

namespace Cartridge

/-- Graphics storage as the header describes it. -/
def graphicsOf (h : Header) (image : Array Byte) : Array Byte :=
  if h.chrBanks = 0 then .replicate chrBankSize 0 else image.extract h.chrStart (h.chrStart + h.chrRomSize)

/-- The cartridge of an image without a fault. -/
def ofImage (strictness : Strictness) (image : Array Byte) : Cartridge :=
  let header := Header.accepted strictness image
  { header
    board := if header.mapper = 0 then .nrom (.ofHeader header) else .cnrom (.ofHeader header) 0
    prgRom := image.extract header.prgStart (header.prgStart + header.prgRomSize)
    prgRam := .replicate header.prgRamSize 0
    chr := graphicsOf header image
    chrIsRam := header.chrBanks == 0 }

theorem yields_board (h : ClearBefore strictness image 5) :
    Yields (Board.ofHeader (.accepted strictness image) : Loading Board) (.ok (ofImage strictness image).board) := by
  rw [Board.ofHeader_of_supported h.mapper_eq]
  exact yields_lift _

theorem yields_skipTrainer (h : ClearBefore strictness image 6) :
    Yields (skipTrainer (.accepted strictness image) image) (.ok ()) := by
  unfold skipTrainer
  by_cases ht : (Header.accepted strictness image).trainer = true
  · rw [if_pos ht]
    have hp := (Header.accepted strictness image).mem_layOut.mpr (.inl ⟨rfl, ht, rfl, rfl⟩)
    exact (yields_takePart (h.part_le hp (by simp [LoadError.order]))).bind_ok (yields_report _)
  · rw [if_neg ht]
    exact yields_pure _

theorem yields_skipTrainer_error {h : Header} (ht : h.trainer = true) (hs : image.size < headerSize + trainerSize) :
    Yields (skipTrainer h image) (.error (.truncated .trainer trainerSize (image.size - headerSize))) := by
  rw [skipTrainer, if_pos ht]
  exact (yields_takePart_error hs).bind_error

theorem yields_prgRom (h : ClearBefore strictness image 7) :
    let header := Header.accepted strictness image
    Yields (takePart image .prgRom header.prgStart header.prgRomSize) (.ok (ofImage strictness image).prgRom) := by
  have hp := (Header.accepted strictness image).mem_layOut.mpr (.inr (.inl ⟨rfl, rfl, rfl⟩))
  exact yields_takePart (h.part_le hp (by simp [LoadError.order]))

theorem yields_takeGraphics (h : ClearBefore strictness image 8) :
    let c := ofImage strictness image
    Yields (takeGraphics (.accepted strictness image) image) (.ok (c.chr, c.chrIsRam)) := by
  intro c
  have hchr : c.chr = graphicsOf (.accepted strictness image) image := rfl
  have hflag : c.chrIsRam = ((Header.accepted strictness image).chrBanks == 0) := rfl
  rw [hchr, hflag]
  unfold takeGraphics graphicsOf
  by_cases hc : (Header.accepted strictness image).chrBanks = 0
  · rw [if_pos hc, if_pos hc, beq_iff_eq.mpr hc]
    exact yields_pure _
  · rw [if_neg hc, if_neg hc, beq_eq_false_iff_ne.mpr hc]
    have hp := (Header.accepted strictness image).mem_layOut.mpr (.inr (.inr ⟨rfl, hc, rfl, rfl⟩))
    exact (yields_takePart (h.part_le hp (by simp [LoadError.order]))).bind_ok (yields_pure _)

theorem yields_takeGraphics_error {h : Header} (hc : h.chrBanks ≠ 0) (hs : image.size < h.chrStart + h.chrRomSize) :
    Yields (takeGraphics h image) (.error (.truncated .chrRom h.chrRomSize (image.size - h.chrStart))) := by
  rw [takeGraphics, if_neg hc]
  exact (yields_takePart_error hs).bind_error

theorem load_without_fault (h : ∀ e, ¬Fault strictness image e) :
    Yields (load strictness image) (.ok (ofImage strictness image)) := by
  have hclear (n : Nat) : ClearBefore strictness image n := fun e he => absurd he (h e)
  refine (Header.yields_load (hclear 4)).bind_ok ?_
  refine (yields_board (hclear 5)).bind_ok ?_
  refine (yields_report _).bind_ok ((yields_skipTrainer (hclear 6)).bind_ok ?_)
  refine (yields_prgRom (hclear 7)).bind_ok ((yields_takeGraphics (hclear 8)).bind_ok ?_)
  by_cases ht : (Header.accepted strictness image).imageSize < image.size
  · simp only [ht, if_true]
    exact (yields_report _).bind_ok (yields_pure _)
  · simp only [ht, if_false]
    exact yields_pure _

/-- The first fault of an image is what loading it ends with. -/
theorem load_first_fault {e : LoadError} (he : Fault strictness image e)
    (hfirst : ClearBefore strictness image e.order) : Yields (load strictness image) (.error e) := by
  by_cases hlt : e.order < 4
  · exact (Header.yields_load_error he hfirst hlt).bind_error
  refine (Header.yields_load (hfirst.mono (Nat.le_of_not_lt hlt))).bind_ok ?_
  cases he with
  | tooShort _ => exact absurd (by decide) hlt
  | badMagic _ _ => exact absurd (by simp [LoadError.order]) hlt
  | dirtyPadding _ _ _ _ _ _ => exact absurd (by simp [LoadError.order]) hlt
  | sizeOverflow _ _ => exact absurd (by decide) hlt
  | unsupportedMapper hm h0 h3 =>
    subst hm
    have hb := yields_lift (Board.ofHeader (.accepted strictness image))
    rw [Board.ofHeader_of_unsupported h0 h3] at hb
    rw [Board.ofHeader_of_unsupported h0 h3]
    exact hb.bind_error
  | truncated hp hs =>
    rcases (Header.mem_layOut _).mp hp with ⟨rfl, ht, rfl, rfl⟩ | ⟨rfl, rfl, rfl⟩ | ⟨rfl, hc, rfl, rfl⟩
    · refine (yields_board hfirst).bind_ok ((yields_report _).bind_ok ?_)
      exact (yields_skipTrainer_error ht hs).bind_error
    · refine (yields_board (hfirst.mono (by simp [LoadError.order]))).bind_ok ((yields_report _).bind_ok ?_)
      refine (yields_skipTrainer hfirst).bind_ok ?_
      exact (yields_takePart_error hs).bind_error
    · refine (yields_board (hfirst.mono (by simp [LoadError.order]))).bind_ok ((yields_report _).bind_ok ?_)
      refine (yields_skipTrainer (hfirst.mono (by simp [LoadError.order]))).bind_ok ?_
      refine (yields_prgRom hfirst).bind_ok ?_
      exact (yields_takeGraphics_error hc hs).bind_error

/-! ## Every outcome -/

theorem built_ofImage (strictness : Strictness) (image : Array Byte) :
    Built strictness image (ofImage strictness image) where
  header := rfl
  board := rfl
  prgRom start size hp := by
    rcases (Header.mem_layOut _).mp hp with ⟨h, -⟩ | ⟨-, rfl, rfl⟩ | ⟨h, -⟩
    · cases h
    · rfl
    · cases h
  chrRom start size hp := by
    rcases (Header.mem_layOut _).mp hp with ⟨h, -⟩ | ⟨h, -⟩ | ⟨-, hc, rfl, rfl⟩
    · cases h
    · cases h
    · exact if_neg hc
  chrRam hc := if_pos hc
  chrIsRam := beq_iff_eq
  prgRam := rfl

/-- Its description leaves nothing of a cartridge open. -/
theorem eq_ofImage_of_built {c : Cartridge} (h : Built strictness image c) : c = ofImage strictness image := by
  obtain ⟨header, board, prgRom, prgRam, chr, chrIsRam⟩ := c
  obtain ⟨hheader, hboard, hprg, hchr, hchrRam, hflag, hram⟩ := h
  simp only at hheader hboard hprg hchr hchrRam hflag hram
  subst hheader hboard hram
  have hprg := hprg _ _ ((Header.mem_layOut _).mpr (.inr (.inl ⟨rfl, rfl, rfl⟩)))
  have hchr : chr = graphicsOf (.accepted strictness image) image := by
    unfold graphicsOf
    by_cases hc : (Header.accepted strictness image).chrBanks = 0
    · rw [if_pos hc]
      exact hchrRam hc
    · rw [if_neg hc]
      exact hchr _ _ ((Header.mem_layOut _).mpr (.inr (.inr ⟨rfl, hc, rfl, rfl⟩)))
  have hflag : chrIsRam = ((Header.accepted strictness image).chrBanks == 0) := by
    rw [Bool.eq_iff_iff, hflag, beq_iff_eq]
  rw [hprg, hchr, hflag]
  rfl

/-- An image with a fault has a first one. -/
theorem exists_first_fault {e : LoadError} (he : Fault strictness image e) :
    ∃ e₀, Fault strictness image e₀ ∧ ClearBefore strictness image e₀.order := by
  induction hn : e.order using Nat.strongRecOn generalizing e with
  | ind n ih =>
    by_cases hfirst : ClearBefore strictness image e.order
    · exact ⟨e, he, hfirst⟩
    · simp only [ClearBefore, Classical.not_forall, Nat.not_le] at hfirst
      obtain ⟨e', he', hlt⟩ := hfirst
      exact ih _ (hn ▸ hlt) he' rfl

/-- An error names the first fault. -/
theorem first_fault_of_load {e : LoadError} (h : (load strictness image).conclude.result = .error e) :
    Fault strictness image e ∧ ClearBefore strictness image e.order := by
  by_cases hf : ∃ e, Fault strictness image e
  · obtain ⟨e', he'⟩ := hf
    obtain ⟨e₀, he₀, hfirst⟩ := exists_first_fault he'
    rw [(load_first_fault he₀ hfirst).result_conclude] at h
    obtain rfl : e₀ = e := by simpa using h
    exact ⟨he₀, hfirst⟩
  · rw [(load_without_fault fun e he => hf ⟨e, he⟩).result_conclude] at h
    cases h

/-- A cartridge comes only of an image without a fault. -/
theorem eq_ofImage_of_load {c : Cartridge} (h : (load strictness image).conclude.result = .ok c) :
    (∀ e, ¬Fault strictness image e) ∧ c = ofImage strictness image := by
  have hnone : ∀ e, ¬Fault strictness image e := by
    intro e he
    obtain ⟨e₀, he₀, hfirst⟩ := exists_first_fault he
    rw [(load_first_fault he₀ hfirst).result_conclude] at h
    cases h
  rw [(load_without_fault hnone).result_conclude] at h
  exact ⟨hnone, (Except.ok.inj h).symm⟩

/-- **Loading, exactly.** It ends in an error if and only if that is the first fault of the image, and in a cartridge if
and only if the image has no fault and describes that cartridge. The sizes and the mapper number by which this is so are
those that the bytes of the image spell. -/
theorem load_exact (strictness : Strictness) (image : Array Byte) :
    (∀ e, (load strictness image).conclude.result = .error e ↔
      Fault strictness image e ∧ ∀ e', Fault strictness image e' → e.order ≤ e'.order) ∧
    (∀ c, (load strictness image).conclude.result = .ok c ↔
      (∀ e, ¬Fault strictness image e) ∧ Built strictness image c) ∧
    (Header.accepted strictness image).SpelledBy strictness image := by
  refine ⟨fun e => ⟨first_fault_of_load, ?_⟩, fun c => ⟨fun h => ?_, ?_⟩, Header.spelledBy_accepted strictness image⟩
  · rintro ⟨he, hfirst⟩
    exact (load_first_fault he hfirst).result_conclude
  · obtain ⟨hnone, rfl⟩ := eq_ofImage_of_load h
    exact ⟨hnone, built_ofImage strictness image⟩
  · rintro ⟨hnone, hb⟩
    rw [eq_ofImage_of_built hb]
    exact (load_without_fault hnone).result_conclude

end Cartridge

end Steps

/-! ## An image -/

/-- A board with a bank register, a bank of program ROM that holds `$EA` throughout, and two banks of graphics ROM. -/
def sampleImage : Array Byte :=
  #[0x4E, 0x45, 0x53, 0x1A, 1, 2, 0x30, 0, 0, 0, 0, 0, 0, 0, 0, 0] ++
    (Array.replicate 0x4000 0xEA ++ Array.replicate 0x4000 0x55)

def sampleHeader : Header := ⟨#v[0x4E, 0x45, 0x53, 0x1A, 1, 2, 0x30, 0, 0, 0, 0, 0, 0, 0, 0, 0]⟩

theorem size_sampleImage : sampleImage.size = 16 + (0x4000 + 0x4000) := by
  simp [sampleImage]

theorem getD_sampleImage (i : Nat) (h : i < 16) : sampleImage.getD i 0 = sampleHeader.bytes[i] := by
  rw [Array.getD_eq_getD_getElem?]
  simp [sampleImage, sampleHeader, Array.getElem?_append, h]

theorem not_isRepaired_sampleImage : ¬IsRepaired .strict sampleImage := fun h => absurd h.1 (by decide)

theorem accepted_sampleImage : Header.accepted .strict sampleImage = sampleHeader := by
  rw [Header.accepted_of_not_repaired not_isRepaired_sampleImage]
  refine congrArg Header.mk (Vector.ext fun i hi => ?_)
  rw [Vector.getElem_ofFn, getD_sampleImage i hi]
  rfl

theorem not_isNewer_sampleImage : ¬IsNewer sampleImage := by
  unfold IsNewer
  rw [getD_sampleImage 7 (by decide)]
  decide

theorem no_fault_sampleImage (e : LoadError) : ¬Fault .strict sampleImage e := by
  intro he
  cases he with
  | tooShort h =>
    rw [size_sampleImage] at h
    omega
  | badMagic hfound hne =>
    refine hne (hfound.trans ?_)
    rw [getD_sampleImage 0 (by decide), getD_sampleImage 1 (by decide), getD_sampleImage 2 (by decide),
      getD_sampleImage 3 (by decide)]
    rfl
  | dirtyPadding _ _ h11 h15 hne _ =>
    refine hne ?_
    rw [getD_sampleImage _ (by omega)]
    have : ∀ i : Fin 16, 11 ≤ i.val → sampleHeader.bytes[i] = 0 := by decide
    exact this ⟨_, by omega⟩ h11
  | sizeOverflow h _ => exact not_isNewer_sampleImage h
  | unsupportedMapper hm _ h3 =>
    rw [accepted_sampleImage] at hm
    exact h3 (hm.trans (by decide))
  | truncated hp hlt =>
    rw [accepted_sampleImage] at hp
    have hparts : layOut 16 sampleHeader.parts = [(.prgRom, 16, 0x4000), (.chrRom, 16 + 0x4000, 0x4000)] := by decide
    rw [hparts] at hp
    rw [size_sampleImage] at hlt
    simp only [List.mem_cons, Prod.mk.injEq, List.not_mem_nil, or_false] at hp
    omega

theorem load_sampleImage :
    (Cartridge.load .strict sampleImage).conclude.result = .ok (.ofImage .strict sampleImage) :=
  (Cartridge.load_without_fault no_fault_sampleImage).result_conclude

namespace Cartridge

theorem header_sampleImage : (ofImage .strict sampleImage).header = sampleHeader :=
  (built_ofImage .strict sampleImage).header.trans accepted_sampleImage

theorem prgBanks_sampleImage : (ofImage .strict sampleImage).header.prgBanks = 1 := by
  rw [header_sampleImage]
  decide

theorem size_prgRam_sampleImage : (ofImage .strict sampleImage).prgRam.size = 0x2000 := by
  rw [(built_ofImage .strict sampleImage).prgRam, header_sampleImage, Array.size_replicate]
  decide

theorem prgRom_sampleImage : (ofImage .strict sampleImage).prgRom = .replicate 0x4000 0xEA := by
  have hpart : (.prgRom, 16, 0x4000) ∈ layOut 16 (ofImage .strict sampleImage).header.parts := by
    rw [header_sampleImage]
    decide
  rw [(built_ofImage .strict sampleImage).prgRom 16 0x4000 hpart, sampleImage, Array.extract_append]
  simp [Array.extract_append]

end Cartridge

/-- A header of the newer format with nothing behind it. -/
def sampleNewer : Array Byte := #[0x4E, 0x45, 0x53, 0x1A, 2, 1, 0x50, 0x68, 0x31, 0x21, 7, 0, 0, 0, 0, 0]

theorem clearBefore_sampleNewer : ClearBefore .strict sampleNewer 4 := by
  have hnewer : IsNewer sampleNewer := by decide
  intro e he
  cases he with
  | tooShort h => exact absurd h (by decide)
  | badMagic hfound hne => exact absurd (hfound.trans (by decide)) hne
  | dirtyPadding _ h _ _ _ _ => exact absurd hnewer h
  | sizeOverflow _ h => exact absurd h (by decide)
  | unsupportedMapper _ _ _ => exact Nat.le_refl 4
  | @truncated part _ _ _ _ => cases part <;> simp [LoadError.order]

/-- A cartridge of one bank of program ROM and two of graphics ROM, and an image that asks for a board with the number
`5 + 16 * 6 + 256 * 1`. -/
theorem Cartridge.load_exact_sample :
    ((load .strict sampleImage).conclude.result = .ok (ofImage .strict sampleImage) ∧
      let h := Header.accepted .strict sampleImage
      h.trainer = false ∧ h.prgBanks = 1 ∧ h.chrBanks = 2 ∧ h.mapper = 3 ∧ h.prgRamSize = 8192) ∧
    ((load .strict sampleNewer).conclude.result = .error (.unsupportedMapper 357) ∧
      let h := Header.accepted .strict sampleNewer
      h.prgBanks = 2 + 256 * 1 ∧ h.chrBanks = 1 + 256 * 2 ∧ h.mapper = 357 ∧ h.prgRamSize = 64 <<< 7) := by
  obtain ⟨-, hbuilt, hspelled⟩ := load_exact .strict sampleImage
  obtain ⟨hrefused, -, hspelled'⟩ := load_exact .strict sampleNewer
  have hmapper : (Header.accepted .strict sampleNewer).mapper = 357 := hspelled'.mapper.trans (by decide)
  have hfault : Fault .strict sampleNewer (.unsupportedMapper 357) :=
    .unsupportedMapper hmapper.symm (by decide) (by decide)
  refine ⟨⟨(hbuilt _).mpr ⟨no_fault_sampleImage, built_ofImage .strict sampleImage⟩, ?_, ?_, ?_, ?_, ?_⟩,
    (hrefused _).mpr ⟨hfault, clearBefore_sampleNewer⟩, hspelled'.prgBanks.trans (by decide),
    hspelled'.chrBanks.trans (by decide), hmapper, hspelled'.prgRamSize.trans (by decide)⟩
  · rw [← Bool.not_eq_true, hspelled.trainer, getD_sampleImage 6 (by decide)]
    decide
  · rw [hspelled.prgBanks, if_neg not_isNewer_sampleImage, getD_sampleImage 4 (by decide)]
    rfl
  · rw [hspelled.chrBanks, if_neg not_isNewer_sampleImage, getD_sampleImage 5 (by decide)]
    rfl
  · rw [hspelled.mapper, if_neg not_isNewer_sampleImage, if_neg not_isRepaired_sampleImage,
      getD_sampleImage 6 (by decide), getD_sampleImage 7 (by decide)]
    rfl
  · rw [hspelled.prgRamSize, if_neg not_isNewer_sampleImage, getD_sampleImage 8 (by decide),
      getD_sampleImage 10 (by decide)]
    rfl

end Nes
