import Nes.Proofs.Loading

/-!
# Storage of a cartridge in use

What a header announces fixes how much storage a cartridge has and which offsets its board can select. A cartridge is
*sound* (`Cartridge.Sound`) when storage, board and header fit together.

* A cartridge that comes of an image is sound (`Cartridge.sound_of_load`), and every call leaves it so
  (`Cartridge.Sound.perform`).
* A call changes bytes of RAM and the selected bank, and nothing else (`Cartridge.Keeps`).
* On a sound cartridge every selected offset lies inside the storage it names (`Cartridge.Sound.contained`), so each
  access finds its byte.
* `Cartridge.load_contained_kept` says this of every image and every sequence of calls.
-/

namespace Nes

/-! ## What a board selects -/

namespace Layout

variable {l : Layout} {addr : Addr} {offset : Nat}

theorem target_rom_lt (h : l.target addr = some (.rom offset)) : offset < l.prgBanks * prgBankSize := by
  unfold target at h
  split at h
  · cases h
  · split at h
    · split at h <;> cases h
    · split at h
      · cases h
      · obtain rfl : addr.toNat % (if l.prgBanks = 1 then prgBankSize else 2 * prgBankSize) = offset := by simpa using h
        split
        · simp only [prgBankSize]; omega
        · simp only [prgBankSize]; omega

theorem target_ram_lt (h : l.target addr = some (.ram offset)) : offset < l.prgRamSize := by
  unfold target at h
  split at h
  · cases h
  · split at h
    · split at h
      · cases h
      · obtain rfl : (addr.toNat - 0x6000) % l.prgRamSize = offset := by simpa using h
        exact Nat.mod_lt _ (by omega)
    · split at h <;> cases h

theorem target_ne_register (l : Layout) (addr : Addr) : l.target addr ≠ some .register := by
  unfold target
  intro h
  split at h
  · cases h
  · split at h <;> split at h <;> cases h

/-- Program RAM ends where the bank register begins. -/
theorem target_ne_ram (ha : 0x8000 ≤ addr) : l.target addr ≠ some (.ram offset) := by
  unfold target
  intro h
  have h8 : ¬addr < 0x8000 := BitVec.not_lt.mpr ha
  have h6 : ¬addr < 0x6000 := by bv_omega
  rw [if_neg h6, if_neg h8] at h
  split at h <;> cases h

theorem target_of_lt (h : addr.toNat < 0x6000) : l.target addr = none := if_pos h

theorem chrOffset_lt (h : chrOffset addr = some offset) : offset < chrBankSize := by
  unfold chrOffset at h
  split at h
  · rename_i hlt
    cases h
    simpa [chrBankSize, BitVec.lt_def] using hlt
  · cases h

end Layout

namespace Board

/-- The selected bank of graphics storage. -/
def bank : Board → Nat
  | .nrom _ => 0
  | .cnrom _ bank => bank

theorem chrReadOffset_eq (b : Board) (addr : Addr) :
    b.chrReadOffset addr = (Layout.chrOffset addr).map (b.bank * chrBankSize + ·) := by
  cases b <;> simp [chrReadOffset, bank]

@[simp] theorem layout_reset (b : Board) : b.reset.layout = b.layout := by cases b <;> rfl

@[simp] theorem mapper_reset (b : Board) : b.reset.mapper = b.mapper := by cases b <;> rfl

@[simp] theorem bank_reset (b : Board) : b.reset.bank = 0 := by cases b <;> rfl

theorem writeTarget_cnrom_of_le {addr : Addr} (h : 0x8000 ≤ addr) (layout : Layout) (bank : Nat) (value : Byte) :
    (Board.cnrom layout bank).writeTarget addr value =
      (some .register, .cnrom layout ((value &&& 0x03).toNat % max layout.chrBanks 1)) := if_pos h

theorem writeTarget_cnrom_of_not_le {addr : Addr} (h : ¬0x8000 ≤ addr) (layout : Layout) (bank : Nat) (value : Byte) :
    (Board.cnrom layout bank).writeTarget addr value = (layout.target addr, .cnrom layout bank) := if_neg h

/-- What a write can do to a board: it selects what a read of the address would and leaves the board alone, or it goes
to the bank register and selects a bank that is there. -/
theorem writeTarget_cases (b : Board) (addr : Addr) (value : Byte) :
    b.writeTarget addr value = (b.layout.target addr, b) ∨
      ∃ bank, bank < max b.layout.chrBanks 1 ∧ b.mapper = 3 ∧ 0x8000 ≤ addr ∧
        b.writeTarget addr value = (some .register, .cnrom b.layout bank) := by
  cases b with
  | nrom layout => exact .inl rfl
  | cnrom layout bank =>
    by_cases h : 0x8000 ≤ addr
    · exact .inr ⟨_, Nat.mod_lt _ (by omega), rfl, h, writeTarget_cnrom_of_le h layout bank value⟩
    · exact .inl (writeTarget_cnrom_of_not_le h layout bank value)

end Board

/-! ## Sound cartridges -/

namespace Cartridge

/-- Storage, board and header fit together. -/
structure Sound (c : Cartridge) : Prop where
  layout : c.board.layout = .ofHeader c.header
  mapper : c.board.mapper = c.header.mapper
  bank : c.board.bank < max c.header.chrBanks 1
  prgRom : c.prgRom.size = c.header.prgBanks * prgBankSize
  prgRam : c.prgRam.size = c.header.prgRamSize
  chr : c.chr.size = max c.header.chrBanks 1 * chrBankSize
  chrIsRam : c.chrIsRam = true ↔ c.header.chrBanks = 0

/-- What stays of a cartridge while it is used. -/
structure Keeps (c c' : Cartridge) : Prop where
  header : c'.header = c.header
  mapper : c'.board.mapper = c.board.mapper
  prgRom : c'.prgRom = c.prgRom
  prgRamSize : c'.prgRam.size = c.prgRam.size
  chrSize : c'.chr.size = c.chr.size
  chrIsRam : c'.chrIsRam = c.chrIsRam
  /-- Graphics ROM keeps its bytes. -/
  chr : 0 < c.header.chrBanks → c'.chr = c.chr

theorem Keeps.refl (c : Cartridge) : Keeps c c := ⟨rfl, rfl, rfl, rfl, rfl, rfl, fun _ => rfl⟩

theorem Keeps.trans {c₁ c₂ c₃ : Cartridge} (h : Keeps c₁ c₂) (h' : Keeps c₂ c₃) : Keeps c₁ c₃ where
  header := h'.header.trans h.header
  mapper := h'.mapper.trans h.mapper
  prgRom := h'.prgRom.trans h.prgRom
  prgRamSize := h'.prgRamSize.trans h.prgRamSize
  chrSize := h'.chrSize.trans h.chrSize
  chrIsRam := h'.chrIsRam.trans h.chrIsRam
  chr hc := (h'.chr (h.header.symm ▸ hc)).trans (h.chr hc)

/-- What a write can do to a cartridge: a byte of program RAM, another bank, or nothing. -/
theorem write_cases (c : Cartridge) (addr : Addr) (value : Byte) :
    (∃ offset, c.board.layout.target addr = some (.ram offset) ∧
      c.write addr value = (true, { c with prgRam := c.prgRam.setIfInBounds offset value })) ∨
    (∃ bank, bank < max c.board.layout.chrBanks 1 ∧ c.board.mapper = 3 ∧ 0x8000 ≤ addr ∧
      c.write addr value = (true, { c with board := .cnrom c.board.layout bank })) ∨
    (∃ offset, c.board.layout.target addr = some (.rom offset) ∧ c.write addr value = (true, c)) ∨
    (c.board.layout.target addr = none ∧ c.write addr value = (false, c)) := by
  unfold write
  rcases c.board.writeTarget_cases addr value with h | ⟨bank, hlt, hm, ha, h⟩
  · rw [h]
    cases ht : c.board.layout.target addr with
    | none => exact .inr (.inr (.inr ⟨rfl, rfl⟩))
    | some target =>
      cases target with
      | rom offset => exact .inr (.inr (.inl ⟨offset, rfl, rfl⟩))
      | ram offset => exact .inl ⟨offset, rfl, rfl⟩
      | register => exact absurd ht (Layout.target_ne_register _ _)
  · rw [h]
    exact .inr (.inl ⟨bank, hlt, hm, ha, rfl⟩)

/-- What a write to the graphics side can do: a byte of graphics RAM, or nothing. -/
theorem writeGraphics_cases (c : Cartridge) (addr : Addr) (value : Byte) :
    (∃ offset, c.board.layout.chrBanks = 0 ∧ c.board.chrWriteOffset addr = some offset ∧
      c.writeGraphics addr value = (true, { c with chr := c.chr.setIfInBounds offset value })) ∨
    (c.board.chrWriteOffset addr = none ∧ c.writeGraphics addr value = (false, c)) := by
  unfold writeGraphics
  cases h : c.board.chrWriteOffset addr with
  | none => exact .inr ⟨rfl, rfl⟩
  | some offset =>
    have hc : c.board.layout.chrBanks = 0 := by
      by_cases hc : c.board.layout.chrBanks = 0
      · exact hc
      · simp [Board.chrWriteOffset, hc] at h
    exact .inl ⟨offset, hc, rfl, rfl⟩

theorem prgRam_writeGraphics (c : Cartridge) (addr : Addr) (value : Byte) :
    (c.writeGraphics addr value).2.prgRam = c.prgRam := by
  rcases c.writeGraphics_cases addr value with ⟨offset, -, -, he⟩ | ⟨-, he⟩ <;> rw [he]

/-! ## Calls -/

/-- What can be asked of a cartridge. -/
inductive Call
  | read (addr : Addr)
  | write (addr : Addr) (value : Byte)
  | readGraphics (addr : Addr)
  | writeGraphics (addr : Addr) (value : Byte)
  | reset

/-- The cartridge after a call; a read does not change it. -/
def perform (c : Cartridge) : Call → Cartridge
  | .read _ | .readGraphics _ => c
  | .write addr value => (c.write addr value).2
  | .writeGraphics addr value => (c.writeGraphics addr value).2
  | .reset => c.reset

/-- The cartridge after a sequence of calls. -/
def performAll (c : Cartridge) (calls : List Call) : Cartridge := calls.foldl perform c

variable {c : Cartridge}

theorem Sound.chrBanks_layout (h : c.Sound) : c.board.layout.chrBanks = c.header.chrBanks := by rw [h.layout]; rfl

theorem Sound.write (h : c.Sound) (addr : Addr) (value : Byte) :
    (c.write addr value).2.Sound ∧ Keeps c (c.write addr value).2 := by
  rcases c.write_cases addr value with ⟨offset, -, he⟩ | ⟨bank, hlt, hm, -, he⟩ | ⟨offset, -, he⟩ | ⟨-, he⟩ <;> rw [he]
  · refine ⟨⟨h.layout, h.mapper, h.bank, h.prgRom, ?_, h.chr, h.chrIsRam⟩, ⟨rfl, rfl, rfl, ?_, rfl, rfl, fun _ => rfl⟩⟩
    · simpa using h.prgRam
    · simp
  · rw [h.chrBanks_layout] at hlt
    have hmapper := hm.symm.trans h.mapper
    exact ⟨⟨h.layout, hmapper, hlt, h.prgRom, h.prgRam, h.chr, h.chrIsRam⟩,
      ⟨rfl, hm.symm, rfl, rfl, rfl, rfl, fun _ => rfl⟩⟩
  · exact ⟨h, Keeps.refl c⟩
  · exact ⟨h, Keeps.refl c⟩

theorem Sound.writeGraphics (h : c.Sound) (addr : Addr) (value : Byte) :
    (c.writeGraphics addr value).2.Sound ∧ Keeps c (c.writeGraphics addr value).2 := by
  rcases c.writeGraphics_cases addr value with ⟨offset, hc, -, he⟩ | ⟨-, he⟩ <;> rw [he]
  · rw [h.chrBanks_layout] at hc
    refine ⟨⟨h.layout, h.mapper, h.bank, h.prgRom, h.prgRam, ?_, h.chrIsRam⟩,
      ⟨rfl, rfl, rfl, rfl, ?_, rfl, fun hpos => ?_⟩⟩
    · simpa using h.chr
    · simp
    · exact absurd hc (Nat.ne_of_gt hpos)
  · exact ⟨h, Keeps.refl c⟩

theorem Sound.reset (h : c.Sound) : c.reset.Sound ∧ Keeps c c.reset := by
  refine ⟨⟨?_, ?_, ?_, h.prgRom, h.prgRam, h.chr, h.chrIsRam⟩, ⟨rfl, ?_, rfl, rfl, rfl, rfl, fun _ => rfl⟩⟩
  · simpa [Cartridge.reset] using h.layout
  · simpa [Cartridge.reset] using h.mapper
  · simp only [Cartridge.reset, Board.bank_reset]
    omega
  · simp [Cartridge.reset]

/-- One call. -/
theorem Sound.perform (h : c.Sound) (call : Call) : (c.perform call).Sound ∧ Keeps c (c.perform call) := by
  cases call with
  | read addr => exact ⟨h, Keeps.refl c⟩
  | write addr value => exact h.write addr value
  | readGraphics addr => exact ⟨h, Keeps.refl c⟩
  | writeGraphics addr value => exact h.writeGraphics addr value
  | reset => exact h.reset

/-- Every run. -/
theorem Sound.performAll (h : c.Sound) (calls : List Call) :
    (c.performAll calls).Sound ∧ Keeps c (c.performAll calls) := by
  induction calls generalizing c with
  | nil => exact ⟨h, Keeps.refl c⟩
  | cons call calls ih =>
    obtain ⟨hsound, hkeeps⟩ := h.perform call
    obtain ⟨hsound', hkeeps'⟩ := ih hsound
    exact ⟨hsound', hkeeps.trans hkeeps'⟩

/-! ## Offsets -/

/-- The offset of a target lies inside the storage that the target names. -/
def Holds (c : Cartridge) : Target → Prop
  | .rom offset => offset < c.prgRom.size
  | .ram offset => offset < c.prgRam.size
  | .register => True

/-- Every offset that the board can select lies inside storage, and a selected byte is found. -/
structure Contained (c : Cartridge) : Prop where
  readTarget : ∀ addr target, c.board.readTarget addr = some target → c.Holds target
  writeTarget : ∀ addr value target, (c.board.writeTarget addr value).1 = some target → c.Holds target
  chrReadOffset : ∀ addr offset, c.board.chrReadOffset addr = some offset → offset < c.chr.size
  chrWriteOffset : ∀ addr offset, c.board.chrWriteOffset addr = some offset → offset < c.chr.size
  read : ∀ addr, (c.read addr).isSome = (c.board.readTarget addr).isSome
  readGraphics : ∀ addr, (c.readGraphics addr).isSome = (c.board.chrReadOffset addr).isSome

theorem Sound.holds (h : c.Sound) {addr : Addr} {target : Target} (ht : c.board.layout.target addr = some target) :
    c.Holds target := by
  cases target with
  | rom offset =>
    have hlt := Layout.target_rom_lt ht
    rw [h.layout] at hlt
    show offset < c.prgRom.size
    rwa [h.prgRom]
  | ram offset =>
    have hlt := Layout.target_ram_lt ht
    rw [h.layout] at hlt
    show offset < c.prgRam.size
    rwa [h.prgRam]
  | register => trivial

/-- Each place in the selected bank lies inside graphics storage. -/
theorem Sound.place_lt (h : c.Sound) {place : Nat} (hplace : place < chrBankSize) :
    c.board.bank * chrBankSize + place < c.chr.size := by
  rw [h.chr]
  calc c.board.bank * chrBankSize + place < c.board.bank * chrBankSize + chrBankSize := Nat.add_lt_add_left hplace _
    _ = (c.board.bank + 1) * chrBankSize := (Nat.succ_mul _ _).symm
    _ ≤ max c.header.chrBanks 1 * chrBankSize := Nat.mul_le_mul_right _ h.bank

theorem Sound.chrReadOffset_lt (h : c.Sound) {addr : Addr} {offset : Nat}
    (ho : c.board.chrReadOffset addr = some offset) : offset < c.chr.size := by
  rw [Board.chrReadOffset_eq] at ho
  obtain ⟨place, hplace, rfl⟩ := Option.map_eq_some_iff.mp ho
  exact h.place_lt (Layout.chrOffset_lt hplace)

theorem Sound.chrWriteOffset_lt (h : c.Sound) {addr : Addr} {offset : Nat}
    (ho : c.board.chrWriteOffset addr = some offset) : offset < c.chr.size := by
  unfold Board.chrWriteOffset at ho
  split at ho
  · have hlt := Layout.chrOffset_lt ho
    rw [h.chr]
    calc offset < 1 * chrBankSize := by rwa [Nat.one_mul]
      _ ≤ max c.header.chrBanks 1 * chrBankSize := Nat.mul_le_mul_right _ (Nat.le_max_right _ _)
  · cases ho

theorem Sound.isSome_read (h : c.Sound) (addr : Addr) : (c.read addr).isSome = (c.board.readTarget addr).isSome := by
  unfold read
  cases ht : c.board.readTarget addr with
  | none => rfl
  | some target =>
    cases target with
    | rom offset => simpa [Holds] using h.holds ht
    | ram offset => simpa [Holds] using h.holds ht
    | register => exact absurd ht (Layout.target_ne_register _ _)

theorem Sound.isSome_readGraphics (h : c.Sound) (addr : Addr) :
    (c.readGraphics addr).isSome = (c.board.chrReadOffset addr).isSome := by
  unfold readGraphics
  cases ho : c.board.chrReadOffset addr with
  | none => rfl
  | some offset => simpa using h.chrReadOffset_lt ho

theorem Sound.contained (h : c.Sound) : c.Contained where
  readTarget _ _ ht := h.holds ht
  writeTarget addr value target ht := by
    rcases c.board.writeTarget_cases addr value with he | ⟨bank, -, -, -, he⟩
    · exact h.holds (by simpa [he] using ht)
    · obtain rfl : Target.register = target := by simpa [he] using ht
      trivial
  chrReadOffset _ _ ho := h.chrReadOffset_lt ho
  chrWriteOffset _ _ ho := h.chrWriteOffset_lt ho
  read addr := h.isSome_read addr
  readGraphics addr := h.isSome_readGraphics addr

/-! ## From the image on -/

section

variable {strictness : Strictness} {image : Array Byte}

/-- A part that is taken has the length that the header gives it. -/
theorem size_extract_part (hf : ∀ e, ¬Fault strictness image e) {part : ImagePart} {start size : Nat}
    (hp : (part, start, size) ∈ layOut 16 (Header.accepted strictness image).parts) :
    (image.extract start (start + size)).size = size := by
  have hle : start + size ≤ image.size := Nat.le_of_not_lt fun hlt => hf _ (.truncated hp hlt)
  rw [Array.size_extract]
  omega

theorem bank_ofImage (strictness : Strictness) (image : Array Byte) : (ofImage strictness image).board.bank = 0 := by
  show (if _ then _ else _ : Board).bank = 0
  split <;> rfl

theorem sound_ofImage (hf : ∀ e, ¬Fault strictness image e) : (ofImage strictness image).Sound where
  layout := by
    show (if _ then _ else _ : Board).layout = _
    split <;> rfl
  mapper := by
    have hm : (Header.accepted strictness image).mapper = 0 ∨ (Header.accepted strictness image).mapper = 3 :=
      ClearBefore.mapper_eq fun e he => absurd he (hf e)
    rcases hm with hm | hm <;> simp [ofImage, hm, Board.mapper]
  bank := by
    rw [bank_ofImage]
    omega
  prgRom := size_extract_part hf ((Header.mem_layOut _).mpr (.inr (.inl ⟨rfl, rfl, rfl⟩)))
  prgRam := Array.size_replicate
  chr := by
    show (graphicsOf (.accepted strictness image) image).size = _
    unfold graphicsOf
    by_cases hc : (Header.accepted strictness image).chrBanks = 0
    · have hbanks : max (ofImage strictness image).header.chrBanks 1 = 1 := by
        show max (Header.accepted strictness image).chrBanks 1 = 1
        omega
      rw [if_pos hc, Array.size_replicate, hbanks, Nat.one_mul]
    · have hbanks : max (ofImage strictness image).header.chrBanks 1 = (Header.accepted strictness image).chrBanks := by
        show max (Header.accepted strictness image).chrBanks 1 = _
        omega
      rw [if_neg hc, size_extract_part hf ((Header.mem_layOut _).mpr (.inr (.inr ⟨rfl, hc, rfl, rfl⟩))), hbanks]
      rfl
  chrIsRam := (built_ofImage strictness image).chrIsRam

theorem sound_of_load (h : (load strictness image).conclude.result = .ok c) : c.Sound := by
  obtain ⟨hf, rfl⟩ := eq_ofImage_of_load h
  exact sound_ofImage hf

/-- A cartridge that came of an image and may have been used since. -/
def FromImage (c : Cartridge) : Prop :=
  ∃ strictness image c₀ calls, (load strictness image).conclude.result = .ok c₀ ∧ c = c₀.performAll calls

theorem FromImage.sound (h : c.FromImage) : c.Sound := by
  obtain ⟨strictness, image, c₀, calls, hload, rfl⟩ := h
  exact ((sound_of_load hload).performAll calls).1

theorem fromImage_sampleImage : (ofImage .strict sampleImage).FromImage :=
  ⟨.strict, sampleImage, _, [], load_sampleImage, rfl⟩

/-- **Offsets stay inside storage, and storage stays what it is.** Whatever is asked of a cartridge that came of an
image, every offset that its board selects lies inside the storage it names; the header, program ROM, the lengths of the
three storages, the mapper number, the bytes of graphics ROM and whether it is ROM are those of the loaded cartridge. -/
theorem load_contained_kept (h : (load strictness image).conclude.result = .ok c) (calls : List Call) :
    (c.performAll calls).Contained ∧
    (c.performAll calls).header = c.header ∧
    (c.performAll calls).prgRom = c.prgRom ∧
    (c.performAll calls).prgRam.size = c.prgRam.size ∧
    (c.performAll calls).chr.size = c.chr.size ∧
    (c.performAll calls).board.mapper = (c.performAll calls).header.mapper ∧
    (0 < c.header.chrBanks → (c.performAll calls).chr = c.chr) ∧
    (c.performAll calls).chrIsRam = c.chrIsRam := by
  obtain ⟨hsound, hkeeps⟩ := (sound_of_load h).performAll calls
  exact ⟨hsound.contained, hkeeps.header, hkeeps.prgRom, hkeeps.prgRamSize, hkeeps.chrSize, hsound.mapper, hkeeps.chr,
    hkeeps.chrIsRam⟩

theorem load_contained_kept_sampleImage :
    (load .strict sampleImage).conclude.result = .ok (ofImage .strict sampleImage) ∧
    ((ofImage .strict sampleImage).performAll [.write 0x8000 0x03, .write 0x6010 0x77, .writeGraphics 0 1]).Contained ∧
    ((ofImage .strict sampleImage).performAll [.write 0x8000 0x03, .write 0x6010 0x77, .writeGraphics 0 1]).chr =
      (ofImage .strict sampleImage).chr := by
  obtain ⟨hcontained, -, -, -, -, -, hchr, -⟩ :=
    load_contained_kept load_sampleImage [.write 0x8000 0x03, .write 0x6010 0x77, .writeGraphics 0 1]
  refine ⟨load_sampleImage, hcontained, hchr ?_⟩
  rw [header_sampleImage]
  decide

end

end Cartridge

end Nes
