import Nes.Proofs.History

/-!
# What the graphics side shows

The graphics side of a console sees a bank of the cartridge's graphics storage below `$2000`, and nothing above. What it
sees there follows from the image and the history alone.

* Graphics ROM shows the bytes of the image. On a board with a bank register, the bank is the one that was selected last,
  since the start or since a reset (`shownBank`).
* Graphics RAM shows what was written last (`Happening.draws`). A board that selects a bank for reads selects none for
  writes; the two agree because without ROM there is one bank.

`Cartridge.Shows` is the invariant of a run. Each happening keeps it (`Console.chronicled_shows`), so it holds after every
run, and `Console.graphics_recalled` reads the result off it.
-/

namespace Nes

/-! ## What the history says -/

namespace Console

/-- The byte that a happening leaves in a bank register. -/
def Happening.selects : Happening → Option Byte
  | .access (.write addr value) => if 0x8000 ≤ addr then some value else none
  | .reset => some 0
  | _ => none

/-- The byte that a happening leaves at a place of graphics RAM. -/
def Happening.draws (place : Nat) : Happening → Option Byte
  | .graphicsWrite addr value => if addr.toNat % 0x4000 = place then some value else none
  | _ => none

/-- The latest of the bytes that happenings leave, 0 if none leaves one. -/
def latest (leaves : Happening → Option Byte) (past : List Happening) : Byte :=
  (past.reverse.findSome? leaves).getD 0

theorem latest_concat (leaves : Happening → Option Byte) (past : List Happening) (happening : Happening) :
    latest leaves (past ++ [happening]) = (leaves happening).getD (latest leaves past) := by
  unfold latest
  rw [getD_findSome?_reverse_concat]

/-- The bank of graphics ROM that shows: without a bank register the first, else the one selected last. -/
def shownBank (h : Header) (past : List Happening) : Nat :=
  if h.mapper = 3 then (latest Happening.selects past).toNat % 4 % h.chrBanks else 0

theorem shownBank_concat {h : Header} {past : List Happening} {happening : Happening} (hs : happening.selects = none) :
    shownBank h (past ++ [happening]) = shownBank h past := by
  rw [shownBank, latest_concat, hs]
  rfl

theorem toNat_graphicsAddr (addr : Addr) : (graphicsAddr addr).toNat = addr.toNat % 0x4000 :=
  Nat.and_two_pow_sub_one_eq_mod addr.toNat 14

end Console

open Console (Happening latest shownBank graphicsAddr)

/-- The place in a bank that an address of the console's graphics side selects. -/
theorem Layout.chrOffset_graphicsAddr (addr : Addr) : Layout.chrOffset (graphicsAddr addr) =
    if addr.toNat % 0x4000 < chrBankSize then some (addr.toNat % 0x4000) else none := by
  simp only [chrOffset, BitVec.lt_def, Console.toNat_graphicsAddr]
  rfl

/-! ## The bank register -/

/-- The bank after a write of the processor's side. -/
theorem Board.bank_writeTarget (b : Board) (addr : Addr) (value : Byte) : (b.writeTarget addr value).2.bank =
    if b.mapper = 3 ∧ 0x8000 ≤ addr then value.toNat % 4 % max b.layout.chrBanks 1 else b.bank := by
  cases b with
  | nrom layout =>
    have hmapper : ¬((Board.nrom layout).mapper = 3 ∧ 0x8000 ≤ addr) := fun h => nomatch h.1
    rw [if_neg hmapper]
    rfl
  | cnrom layout bank =>
    by_cases h : 0x8000 ≤ addr
    · have hvalue : (value &&& 0x03).toNat = value.toNat % 4 := Nat.and_two_pow_sub_one_eq_mod value.toNat 2
      rw [writeTarget_cnrom_of_le h, if_pos ⟨rfl, h⟩, hvalue]
      rfl
    · rw [writeTarget_cnrom_of_not_le h, if_neg fun hboth => h hboth.2]

namespace Cartridge

theorem board_write (k : Cartridge) (addr : Addr) (value : Byte) :
    (k.write addr value).2.board = (k.board.writeTarget addr value).2 := by
  unfold write
  rcases k.board.writeTarget addr value with ⟨target, board⟩
  cases target with
  | none => rfl
  | some target => cases target <;> rfl

/-- The processor's side does not reach graphics storage. -/
theorem chr_write (k : Cartridge) (addr : Addr) (value : Byte) : (k.write addr value).2.chr = k.chr := by
  rcases k.write_cases addr value with ⟨offset, -, he⟩ | ⟨bank, -, -, -, he⟩ | ⟨offset, -, he⟩ | ⟨-, he⟩ <;> rw [he]

/-- The graphics side takes a write where it is RAM, and nowhere else. -/
theorem Sound.writeGraphics_eq {k : Cartridge} (h : k.Sound) (addr : Addr) (value : Byte) :
    k.writeGraphics (graphicsAddr addr) value =
      if k.header.chrBanks = 0 ∧ addr.toNat % 0x4000 < chrBankSize then
        (true, { k with chr := k.chr.setIfInBounds (addr.toNat % 0x4000) value })
      else (false, k) := by
  unfold Cartridge.writeGraphics Board.chrWriteOffset
  rw [h.chrBanks_layout, Layout.chrOffset_graphicsAddr]
  by_cases hbanks : k.header.chrBanks = 0 <;> by_cases hplace : addr.toNat % 0x4000 < chrBankSize <;>
    simp only [hbanks, hplace, and_self, and_false, and_true, if_true, if_false]

/-! ## The invariant -/

/-- A cartridge shows what an image and the past say; `k₀` is the cartridge as it was loaded. -/
structure Shows (k₀ : Cartridge) (past : List Happening) (k : Cartridge) : Prop where
  sound : k.Sound
  keeps : k₀.Keeps k
  bank : 0 < k₀.header.chrBanks → k.board.bank = shownBank k₀.header past
  ram : k₀.header.chrBanks = 0 → ∀ place, place < chrBankSize →
    k.chr[place]? = some (latest (Happening.draws place) past)

namespace Shows

variable {k₀ k : Cartridge} {past : List Happening}

/-- A happening that leaves nothing changes nothing. -/
theorem pass (h : Shows k₀ past k) {happening : Happening} (hselects : happening.selects = none)
    (hdraws : ∀ place, happening.draws place = none) : Shows k₀ (past ++ [happening]) k where
  sound := h.sound
  keeps := h.keeps
  bank hbanks := by rw [h.bank hbanks, Console.shownBank_concat hselects]
  ram hbanks place hplace := by rw [h.ram hbanks place hplace, Console.latest_concat, hdraws, Option.getD_none]

theorem write (h : Shows k₀ past k) (addr : Addr) (value : Byte) :
    Shows k₀ (past ++ [.access (.write addr value)]) (k.write addr value).2 where
  sound := (h.sound.write addr value).1
  keeps := h.keeps.trans (h.sound.write addr value).2
  bank hbanks := by
    have hmapper : k.board.mapper = k₀.header.mapper := by rw [h.sound.mapper, h.keeps.header]
    have hmax : max k.board.layout.chrBanks 1 = k₀.header.chrBanks := by
      rw [h.sound.chrBanks_layout, h.keeps.header]
      omega
    rw [board_write, Board.bank_writeTarget, hmapper, hmax]
    by_cases hregister : 0x8000 ≤ addr
    · have hselects : (Happening.access (.write addr value)).selects = some value := if_pos hregister
      rw [shownBank, Console.latest_concat, hselects, Option.getD_some]
      by_cases hm : k₀.header.mapper = 3
      · rw [if_pos ⟨hm, hregister⟩, if_pos hm]
      · rw [if_neg fun hboth => hm hboth.1, if_neg hm, h.bank hbanks, shownBank, if_neg hm]
    · have hselects : (Happening.access (.write addr value)).selects = none := if_neg hregister
      rw [Console.shownBank_concat hselects, if_neg fun hboth => hregister hboth.2, h.bank hbanks]
  ram hbanks place hplace := by
    rw [chr_write, h.ram hbanks place hplace, Console.latest_concat]
    rfl

theorem writeGraphics (h : Shows k₀ past k) (addr : Addr) (value : Byte) :
    Shows k₀ (past ++ [.graphicsWrite addr value]) (k.writeGraphics (graphicsAddr addr) value).2 where
  sound := (h.sound.writeGraphics (graphicsAddr addr) value).1
  keeps := h.keeps.trans (h.sound.writeGraphics (graphicsAddr addr) value).2
  bank hbanks := by
    have hrom : ¬(k.header.chrBanks = 0 ∧ addr.toNat % 0x4000 < chrBankSize) := by
      rw [h.keeps.header]
      omega
    rw [h.sound.writeGraphics_eq, if_neg hrom, h.bank hbanks, Console.shownBank_concat rfl]
  ram hbanks place hplace := by
    rw [h.sound.writeGraphics_eq, h.keeps.header, Console.latest_concat, Happening.draws]
    by_cases hin : addr.toNat % 0x4000 < chrBankSize
    · rw [if_pos ⟨hbanks, hin⟩, Array.getElem?_setIfInBounds]
      by_cases hsame : addr.toNat % 0x4000 = place
      · have hsize : addr.toNat % 0x4000 < k.chr.size := by
          rw [h.sound.chr, h.keeps.header, hbanks]
          simpa using hin
        rw [if_pos hsame, if_pos hsize, if_pos hsame, Option.getD_some]
      · rw [if_neg hsame, if_neg hsame, h.ram hbanks place hplace, Option.getD_none]
    · have hother : addr.toNat % 0x4000 ≠ place := by omega
      rw [if_neg fun hboth => hin hboth.2, if_neg hother, h.ram hbanks place hplace, Option.getD_none]

theorem reset (h : Shows k₀ past k) : Shows k₀ (past ++ [.reset]) k.reset where
  sound := h.sound.reset.1
  keeps := h.keeps.trans h.sound.reset.2
  bank hbanks := by
    rw [shownBank, Console.latest_concat]
    show k.board.reset.bank = _
    simp [Happening.selects]
  ram hbanks place hplace := by
    rw [Console.latest_concat]
    exact h.ram hbanks place hplace

end Shows

/-- A cartridge shows its image when it is loaded. -/
theorem shows_of_load {strictness : Strictness} {image : Array Byte} {k₀ : Cartridge}
    (hload : (load strictness image).conclude.result = .ok k₀) : Shows k₀ [] k₀ := by
  obtain ⟨hfaults, rfl⟩ := eq_ofImage_of_load hload
  refine ⟨sound_ofImage hfaults, Keeps.refl _, ?_, ?_⟩
  · intro _
    rw [bank_ofImage, shownBank]
    simp [latest]
  · intro hbanks place hplace
    have hchr : (ofImage strictness image).chr = .replicate chrBankSize 0 := if_pos hbanks
    rw [hchr, Array.getElem?_replicate, if_pos hplace]
    rfl

/-- Graphics ROM is the part of the image that follows program ROM. -/
theorem getElem?_image_of_load {strictness : Strictness} {image : Array Byte} {k₀ : Cartridge}
    (hload : (load strictness image).conclude.result = .ok k₀) (hbanks : 0 < k₀.header.chrBanks) {offset : Nat}
    (hoffset : offset < k₀.chr.size) : image[k₀.header.chrStart + offset]? = k₀.chr[offset]? := by
  obtain ⟨-, rfl⟩ := eq_ofImage_of_load hload
  have hchr : (ofImage strictness image).chr = image.extract (ofImage strictness image).header.chrStart
      ((ofImage strictness image).header.chrStart + (ofImage strictness image).header.chrRomSize) :=
    if_neg (Nat.ne_of_gt hbanks)
  rw [hchr, Array.size_extract] at hoffset
  rw [hchr, Array.getElem?_extract, if_pos hoffset]

/-- With graphics ROM, a place of the selected bank holds the byte of the image. -/
theorem Shows.shown_rom {strictness : Strictness} {image : Array Byte} {k₀ k : Cartridge} {past : List Happening}
    (h : Shows k₀ past k) (hload : (load strictness image).conclude.result = .ok k₀) (hbanks : 0 < k₀.header.chrBanks)
    {place : Nat} (hplace : place < chrBankSize) :
    image[k₀.header.chrStart + (shownBank k₀.header past * chrBankSize + place)]? =
      some ((k.chr[k.board.bank * chrBankSize + place]?).getD 0) := by
  have hchr := h.keeps.chr hbanks
  have hlt := h.sound.place_lt hplace
  have hbyte := getElem?_image_of_load hload hbanks (hchr ▸ hlt)
  rw [← h.bank hbanks, hbyte, ← hchr, Array.getElem?_eq_getElem hlt]
  rfl

/-- Without, the one bank is selected, and a place holds the byte written last. -/
theorem Shows.shown_ram {k₀ k : Cartridge} {past : List Happening} (h : Shows k₀ past k)
    (hbanks : k₀.header.chrBanks = 0) {place : Nat} (hplace : place < chrBankSize) :
    (k.chr[k.board.bank * chrBankSize + place]?).getD 0 = latest (Happening.draws place) past := by
  have hbank : k.board.bank = 0 := by
    have hlt := h.sound.bank
    rw [h.keeps.header, hbanks] at hlt
    omega
  rw [hbank, Nat.zero_mul, Nat.zero_add, h.ram hbanks place hplace]
  rfl

end Cartridge

/-! ## Runs -/

namespace Console

theorem readGraphics_eq {δ : Type} {c : Console δ} {k : Cartridge} (hslot : c.memory.cartridge = some k) (addr : Addr) :
    c.readGraphics addr = if addr.toNat % 0x4000 < chrBankSize then
      (k.chr[k.board.bank * chrBankSize + addr.toNat % 0x4000]?).getD 0 else 0 := by
  unfold readGraphics
  rw [hslot, Option.bind_some, Cartridge.readGraphics, Board.chrReadOffset_eq, Layout.chrOffset_graphicsAddr]
  by_cases hplace : addr.toNat % 0x4000 < chrBankSize
  · rw [if_pos hplace, if_pos hplace]
    rfl
  · rw [if_neg hplace, if_neg hplace]
    rfl

theorem writeGraphics_fst {δ : Type} {c : Console δ} {k : Cartridge} (hslot : c.memory.cartridge = some k) (hk : k.Sound)
    (addr : Addr) (value : Byte) :
    (c.writeGraphics addr value).1 = decide (k.header.chrBanks = 0 ∧ addr.toNat % 0x4000 < chrBankSize) := by
  unfold writeGraphics
  rw [hslot]
  show (k.writeGraphics (graphicsAddr addr) value).1 = _
  rw [hk.writeGraphics_eq]
  split <;> simp_all

section

variable {δ : Type} [Device δ]

/-- **Each happening keeps what the cartridge in the slot shows**, whatever the device is. -/
theorem chronicled_shows (k₀ : Cartridge) :
    Chronicled (δ := δ) fun past m => ∃ k, m.cartridge = some k ∧ k₀.Shows past k where
  read := by
    rintro past m mode addr ⟨k, hslot, h⟩
    obtain ⟨device, openBus, hread⟩ := m.read_keeps mode addr
    rw [hread]
    exact ⟨k, hslot, h.pass rfl fun _ => rfl⟩
  write := by
    rintro past m addr value ⟨k, hslot, h⟩
    refine ⟨(k.write addr value).2, ?_, h.write addr value⟩
    rw [MemoryMap.write_eq, hslot]
    rfl
  graphicsWrite := by
    rintro past m addr value ⟨k, hslot, h⟩
    refine ⟨(k.writeGraphics (graphicsAddr addr) value).2, ?_, h.writeGraphics addr value⟩
    rw [hslot]
    rfl
  restart := by
    rintro past m ⟨k, hslot, h⟩
    refine ⟨k.reset, ?_, h.reset⟩
    rw [MemoryMap.restart, hslot]
    rfl
  tick h := h

/-- **The graphics side shows what the image and the history say.** A cartridge was loaded from an image and put in a
console, and the console has been used since, with the cartridge in its slot. An address of the graphics side has
fourteen lines; from `$2000` on it gives 0. With graphics ROM, no write is taken, and a read gives the byte of the image
in the bank that was selected last. Without, a write below `$2000` is taken, and a read gives what was written last under
one of the place's names, or 0. -/
theorem graphics_recalled {strictness : Strictness} {image : Array Byte} {k₀ : Cartridge}
    (hload : (Cartridge.load strictness image).conclude.result = .ok k₀) (c : Console δ)
    (hslot : c.memory.cartridge = some k₀) (commands : List Command)
    (hcommands : ∀ command ∈ commands, command.keepsSlot = true) (addr : Addr) :
    let now := (c.obeyAll commands).2
    let past := c.history commands
    let place := addr.toNat % 0x4000
    (0x2000 ≤ place → now.readGraphics addr = 0) ∧
    (0 < k₀.header.chrBanks →
      (∀ value, (now.writeGraphics addr value).1 = false) ∧
      (place < 0x2000 → image[k₀.header.chrStart + (shownBank k₀.header past * 0x2000 + place)]? =
        some (now.readGraphics addr))) ∧
    (k₀.header.chrBanks = 0 →
      (∀ value, (now.writeGraphics addr value).1 = true ↔ place < 0x2000) ∧
      (place < 0x2000 → now.readGraphics addr = latest (Happening.draws place) past)) := by
  intro now past place
  obtain ⟨k, hnow, hshows⟩ : ∃ k, now.memory.cartridge = some k ∧ k₀.Shows past k :=
    (chronicled_shows k₀).obeyAll hcommands ⟨k₀, hslot, Cartridge.shows_of_load hload⟩
  have hread := readGraphics_eq hnow addr
  have hwrite := writeGraphics_fst hnow hshows.sound addr
  rw [hshows.keeps.header] at hwrite
  refine ⟨?_, ?_, ?_⟩
  · intro hout
    rw [hread, if_neg (Nat.not_lt.mpr hout)]
  · intro hbanks
    constructor
    · intro value
      rw [hwrite]
      exact decide_eq_false fun hboth => Nat.ne_of_gt hbanks hboth.1
    · intro hin
      rw [hread, if_pos hin]
      exact hshows.shown_rom hload hbanks hin
  · intro hbanks
    constructor
    · intro value
      rw [hwrite, decide_eq_true_iff]
      exact ⟨fun hboth => hboth.2, fun hin => ⟨hbanks, hin⟩⟩
    · intro hin
      rw [hread, if_pos hin]
      exact hshows.shown_ram hbanks hin

end

theorem graphics_recalled_sample :
    let commands : List Command := [.call (.write 0x8000 0x03), .call (.writeGraphics 0x0123 0x77)]
    let now := (sample.obeyAll commands).2
    shownBank sampleHeader (sample.history commands) = 1 ∧ now.readGraphics 0x4123 = 0x55 ∧
      now.readGraphics 0x6123 = 0 ∧ (now.writeGraphics 0x0123 0x77).1 = false := by
  intro commands now
  have hbank : shownBank sampleHeader (sample.history commands) = 1 := by decide
  have hcommands : ∀ command ∈ commands, command.keepsSlot = true := by decide
  have hslot : sample.memory.cartridge = some (.ofImage .strict sampleImage) := rfl
  have hbanks : 0 < (Cartridge.ofImage .strict sampleImage).header.chrBanks := by
    rw [Cartridge.header_sampleImage]
    decide
  obtain ⟨-, hrom, -⟩ := graphics_recalled load_sampleImage sample hslot commands hcommands 0x4123
  obtain ⟨hout, -, -⟩ := graphics_recalled load_sampleImage sample hslot commands hcommands 0x6123
  obtain ⟨-, hrom', -⟩ := graphics_recalled load_sampleImage sample hslot commands hcommands 0x0123
  have hbyte := (hrom hbanks).2 (by decide)
  rw [Cartridge.header_sampleImage, hbank] at hbyte
  have himage : sampleImage[sampleHeader.chrStart + (1 * 0x2000 + (0x4123 : Addr).toNat % 0x4000)]? = some 0x55 := by
    have hplace : sampleHeader.chrStart + (1 * 0x2000 + (0x4123 : Addr).toNat % 0x4000) = 16 + 0x4000 + 0x2123 := by
      decide
    rw [hplace]
    simp [sampleImage]
  exact ⟨hbank, Option.some.inj (hbyte.symm.trans himage), hout (by decide), (hrom' hbanks).1 0x77⟩

end Console

end Nes
