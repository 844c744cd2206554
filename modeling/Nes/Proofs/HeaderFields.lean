import Nes.Proofs.Leniency

/-!
# Fields of a header

What a header is to say is laid out in its bytes by adding the fields up, each with the weight of its lowest bit. This is
done here for the newer format (`Header.Newer`) and for the older one (`Header.Older`); bits that mean nothing may hold
anything. A reader takes the bytes apart and finds in them what was laid out (`Header.fields_recovered`).

* Most fields are halves of a byte, and are found there (`Byte.toNat_ofHalves`, `Byte.getLsbD_ofHalves`).
* Bytes 6 and 7 are laid out alike in both formats (`Header.Features`), and tell which format it is
  (`Header.Shared.of_bytes`).
* Program RAM is there if and only if it has a size, whatever the bytes are (`Header.prgRamPresent_iff`).
-/

namespace Nes

/-! ## Halves of a byte -/

namespace Byte

/-- The byte with the given halves. -/
def ofHalves (low high : Nat) : Byte := .ofNat 8 (low + 16 * high)

variable {low high : Nat}

theorem toNat_ofHalves (hlow : low < 16) (hhigh : high < 16) :
    (ofHalves low high).lowNibble.toNat = low ∧ (ofHalves low high).highNibble.toNat = high := by
  rw [toNat_lowNibble, toNat_highNibble, ofHalves, BitVec.toNat_ofNat]
  omega

theorem getLsbD_ofHalves (hlow : low < 16) {i : Nat} (hi : i < 4) : (ofHalves low high).getLsbD i = low.testBit i := by
  have hsum : low + 16 * high = 2 ^ 4 * high + low := Nat.add_comm _ _
  rw [ofHalves, BitVec.getLsbD_ofNat, hsum, Nat.testBit_two_pow_mul_add high hlow, if_pos hi]
  simp only [Bool.and_eq_right_iff_imp, decide_eq_true_eq]
  omega

end Byte

namespace Header

/-! ## Bytes 6 and 7 -/

/-- The flags that both formats have. -/
structure Features where
  vertical : Bool
  battery : Bool
  trainer : Bool
  fourScreen : Bool
  vsSystem : Bool
  playChoice : Bool

namespace Features

/-- The low half of byte 6. -/
def board (f : Features) : Nat :=
  f.vertical.toNat + 2 * f.battery.toNat + 4 * f.trainer.toNat + 8 * f.fourScreen.toNat

/-- The low half of byte 7, with the two bits that mark the format. -/
def console (f : Features) (mark : Fin 4) : Nat := f.vsSystem.toNat + 2 * f.playChoice.toNat + 4 * mark

def mirroring (f : Features) : Mirroring :=
  if f.fourScreen then .fourScreen else if f.vertical then .vertical else .horizontal

theorem board_lt (f : Features) : f.board < 16 := by
  have := f.vertical.toNat_le
  have := f.battery.toNat_le
  have := f.trainer.toNat_le
  have := f.fourScreen.toNat_le
  unfold board
  omega

theorem console_lt (f : Features) (mark : Fin 4) : f.console mark < 16 := by
  have := f.vsSystem.toNat_le
  have := f.playChoice.toNat_le
  unfold console
  omega

theorem testBit_board (f : Features) : f.board.testBit 0 = f.vertical ∧ f.board.testBit 1 = f.battery ∧
    f.board.testBit 2 = f.trainer ∧ f.board.testBit 3 = f.fourScreen := by
  have hall : ∀ v b t s : Bool, let n := v.toNat + 2 * b.toNat + 4 * t.toNat + 8 * s.toNat
      n.testBit 0 = v ∧ n.testBit 1 = b ∧ n.testBit 2 = t ∧ n.testBit 3 = s := by decide
  exact hall f.vertical f.battery f.trainer f.fourScreen

theorem testBit_console (f : Features) (mark : Fin 4) :
    (f.console mark).testBit 0 = f.vsSystem ∧ (f.console mark).testBit 1 = f.playChoice := by
  have hall : ∀ (vs pc : Bool) (mark : Fin 4), let n := vs.toNat + 2 * pc.toNat + 4 * mark
      n.testBit 0 = vs ∧ n.testBit 1 = pc := by decide
  exact hall f.vsSystem f.playChoice mark

end Features

/-- The two bits of byte 7 that mark the newer format. -/
theorem marked_iff : ∀ low high : Fin 16, Byte.ofHalves low high &&& 0x0C = 0x08 ↔ low.val / 4 = 2 := by
  decide +kernel

/-- What bytes 6 and 7 say in either format. -/
structure Shared (h : Header) (f : Features) (mark : Fin 4) (mapper : Nat) : Prop where
  format : h.format = if mark = 2 then .nes20 else .ines
  fourScreen : h.fourScreen = f.fourScreen
  mirroring : h.mirroring = f.mirroring
  battery : h.battery = f.battery
  trainer : h.trainer = f.trainer
  vsSystem : h.vsSystem = f.vsSystem
  playChoice : h.playChoice = f.playChoice
  mapperLow : h.bytes[6].highNibble.toNat = mapper % 16
  mapperHigh : h.mapperHigh.toNat = mapper / 16 % 16

theorem Shared.of_bytes {h : Header} {f : Features} {mark : Fin 4} {mapper : Nat}
    (h6 : h.bytes[6] = .ofHalves f.board (mapper % 16))
    (h7 : h.bytes[7] = .ofHalves (f.console mark) (mapper / 16 % 16)) : Shared h f mark mapper := by
  have hlow : mapper % 16 < 16 := Nat.mod_lt _ (by decide)
  have hhigh : mapper / 16 % 16 < 16 := Nat.mod_lt _ (by decide)
  obtain ⟨hvertical, hbattery, htrainer, hscreen⟩ := f.testBit_board
  obtain ⟨hvs, hpc⟩ := f.testBit_console mark
  have hboard {i : Nat} (hi : i < 4) : h.bytes[6].getLsbD i = f.board.testBit i := by
    rw [h6, Byte.getLsbD_ofHalves f.board_lt hi]
  have hconsole {i : Nat} (hi : i < 4) : h.bytes[7].getLsbD i = (f.console mark).testBit i := by
    rw [h7, Byte.getLsbD_ofHalves (f.console_lt mark) hi]
  have hfour : h.fourScreen = f.fourScreen := (hboard (by decide)).trans hscreen
  refine ⟨?_, hfour, ?_, (hboard (by decide)).trans hbattery, (hboard (by decide)).trans htrainer,
    (hconsole (by decide)).trans hvs, (hconsole (by decide)).trans hpc, ?_, ?_⟩
  · have hmark : f.console mark / 4 = 2 ↔ mark = 2 := by
      have := f.vsSystem.toNat_le
      have := f.playChoice.toNat_le
      unfold Features.console
      omega
    have hmarked := (marked_iff ⟨f.console mark, f.console_lt mark⟩ ⟨mapper / 16 % 16, hhigh⟩).trans hmark
    rw [Header.format, h7]
    simp only [hmarked]
  · rw [Header.mirroring, hfour, hboard (by decide), hvertical]
    rfl
  · rw [h6, (Byte.toNat_ofHalves f.board_lt hlow).2]
  · rw [Header.mapperHigh, h7, (Byte.toNat_ofHalves (f.console_lt mark) hhigh).2]

/-! ## The newer format -/

/-- What a header of the newer format says. -/
structure Newer where
  features : Features
  prgBanks : Fin 0xF00
  chrBanks : Fin 0xF00
  mapper : Fin 0x1000
  submapper : Fin 16
  /-- Program RAM is 64 bytes doubled this many times; 0 stands for none. -/
  ramShift : Fin 16
  /-- Bits 4 to 7 of byte 10. -/
  spare : Fin 16
  /-- Bytes 11 to 15. -/
  tail : Fin 5 → Byte

namespace Newer

variable (n : Newer)

/-- How it is laid out. -/
def header : Header := ⟨#v[0x4E, 0x45, 0x53, 0x1A, .ofNat 8 (n.prgBanks.val % 256), .ofNat 8 (n.chrBanks.val % 256),
  .ofHalves n.features.board (n.mapper.val % 16), .ofHalves (n.features.console 2) (n.mapper.val / 16 % 16),
  .ofHalves (n.mapper.val / 256) n.submapper.val, .ofHalves (n.prgBanks.val / 256) (n.chrBanks.val / 256),
  .ofHalves n.ramShift.val n.spare.val, n.tail 0, n.tail 1, n.tail 2, n.tail 3, n.tail 4]⟩

/-- What is to be read off it. Byte 12 has the TV system. -/
def properties : Properties where
  format := .nes20
  prgBanks := n.prgBanks
  chrBanks := n.chrBanks
  prgRomSize := n.prgBanks * 0x4000
  chrRomSize := n.chrBanks * 0x2000
  prgRamPresent := n.ramShift.val != 0
  prgRamSize := if n.ramShift.val = 0 then 0 else 64 <<< n.ramShift.val
  mapper := n.mapper
  submapper := n.submapper
  fourScreen := n.features.fourScreen
  mirroring := n.features.mirroring
  battery := n.features.battery
  trainer := n.features.trainer
  vsSystem := n.features.vsSystem
  playChoice := n.features.playChoice
  tvSystem := if n.tail 1 &&& 0x03 = 1 then .pal else .ntsc
  tvCompatibility := if n.tail 1 &&& 0x03 = 0 then .ntsc else if n.tail 1 &&& 0x03 = 2 then .pal else .dual
  busConflicts := false

theorem shared : Shared n.header n.features 2 n.mapper := .of_bytes rfl rfl

theorem format_header : n.header.format = .nes20 := n.shared.format

/-- Byte 9 has the high bits of the bank counts. -/
theorem bankBits : n.header.bytes[9].lowNibble.toNat = n.prgBanks.val / 256 ∧
    n.header.bytes[9].highNibble.toNat = n.chrBanks.val / 256 :=
  Byte.toNat_ofHalves (by omega) (by omega)

/-- Byte 8 has the highest mapper bits and the submapper. -/
theorem mapperBits : n.header.bytes[8].lowNibble.toNat = n.mapper.val / 256 ∧
    n.header.bytes[8].highNibble.toNat = n.submapper.val :=
  Byte.toNat_ofHalves (by omega) n.submapper.isLt

theorem ramBits : n.header.bytes[10].lowNibble.toNat = n.ramShift.val :=
  (Byte.toNat_ofHalves n.ramShift.isLt n.spare.isLt).1

theorem verdict_header (strictness : Strictness) : n.header.verdict strictness = .ok n.header := by
  have hsignature : n.header.signature = magic := rfl
  -- bank counts below `$F00` are not in the notation for huge sizes
  have hsize : n.header.hasHugeSize = false := by
    obtain ⟨hprg, hchr⟩ := n.bankBits
    have hhuge : BitVec.toNat (0xF : BitVec 4) = 15 := rfl
    rw [hasHugeSize, Bool.or_eq_false_iff, beq_eq_false_iff_ne, beq_eq_false_iff_ne, ne_eq, ne_eq, ← BitVec.toNat_inj,
      ← BitVec.toNat_inj, hprg, hchr, hhuge]
    omega
  rw [verdict, hsignature, n.format_header, hsize]
  rfl

theorem properties_header : n.header.properties = n.properties := by
  have hformat := n.format_header
  have hshared := n.shared
  have hprg : n.header.prgBanks = n.prgBanks := by
    have hlow : n.header.bytes[4].toNat = n.prgBanks.val % 256 % 256 := BitVec.toNat_ofNat _ _
    rw [Header.prgBanks, hformat]
    simp only [Byte.toNat_extended, n.bankBits.1, hlow]
    omega
  have hchr : n.header.chrBanks = n.chrBanks := by
    have hlow : n.header.bytes[5].toNat = n.chrBanks.val % 256 % 256 := BitVec.toNat_ofNat _ _
    rw [Header.chrBanks, hformat]
    simp only [Byte.toNat_extended, n.bankBits.2, hlow]
    omega
  have hmapper : n.header.mapper = n.mapper := by
    rw [Header.mapper, hformat]
    simp only [toNat_nibbles, n.mapperBits.1, hshared.mapperHigh, hshared.mapperLow]
    omega
  have hsubmapper : n.header.submapper = n.submapper := by
    rw [Header.submapper, hformat]
    exact n.mapperBits.2
  have hpresent : n.header.prgRamPresent = (n.ramShift.val != 0) := by
    rw [Header.prgRamPresent, hformat, Bool.eq_iff_iff, bne_iff_ne, bne_iff_ne, ne_eq, ne_eq, ← BitVec.toNat_inj, n.ramBits]
    rfl
  have hram : n.header.prgRamSize = if n.ramShift.val = 0 then 0 else 64 <<< n.ramShift.val := by
    rw [Header.prgRamSize, hformat]
    simp only [hpresent, bne_iff_ne, n.ramBits, ite_not]
  have htv : n.header.tvSystem = if n.tail 1 &&& 0x03 = 1 then .pal else .ntsc := by
    have htail : n.header.bytes[12] = n.tail 1 := rfl
    rw [Header.tvSystem, hformat]
    simp only [htail, beq_iff_eq]
  have htvs : n.header.tvCompatibility =
      if n.tail 1 &&& 0x03 = 0 then .ntsc else if n.tail 1 &&& 0x03 = 2 then .pal else .dual := by
    rw [Header.tvCompatibility, hformat]
    rfl
  have hbus : n.header.busConflicts = false := by rw [Header.busConflicts, hformat]
  simp only [Header.properties, Newer.properties, prgRomSize, chrRomSize, hformat, hprg, hchr, hmapper, hsubmapper,
    hpresent, hram, hshared.fourScreen, hshared.mirroring, hshared.battery, hshared.trainer, hshared.vsSystem,
    hshared.playChoice, htv, htvs, hbus]

end Newer

/-! ## The older format -/

/-- What a header of the older format says. -/
structure Older where
  features : Features
  prgBanks : Fin 256
  chrBanks : Fin 256
  mapper : Fin 256
  /-- Program RAM in units of 8 KiB; 0 stands for one. -/
  ramUnits : Fin 256
  ramAbsent : Bool
  pal : Bool
  tvs : Fin 4
  busConflicts : Bool
  /-- Bits 2 and 3 of byte 7, which do not mark the newer format. -/
  mark : { mark : Fin 4 // mark ≠ 2 }
  /-- Bits 1 to 7 of byte 9. -/
  spareNine : Fin 128
  /-- Bits 2 and 3, and bits 6 and 7, of byte 10. -/
  spareTen : Fin 4 × Fin 4

namespace Older

variable (o : Older)

/-- How it is laid out. The reserved bytes are zero. -/
def header : Header := ⟨#v[0x4E, 0x45, 0x53, 0x1A, .ofNat 8 o.prgBanks, .ofNat 8 o.chrBanks,
  .ofHalves o.features.board (o.mapper.val % 16), .ofHalves (o.features.console o.mark) (o.mapper.val / 16 % 16),
  .ofNat 8 o.ramUnits, .ofNat 8 (o.pal.toNat + 2 * o.spareNine.val),
  .ofHalves (o.tvs.val + 4 * o.spareTen.1.val) (o.ramAbsent.toNat + 2 * o.busConflicts.toNat + 4 * o.spareTen.2.val),
  0, 0, 0, 0, 0]⟩

/-- What is to be read off it. -/
def properties : Properties where
  format := .ines
  prgBanks := o.prgBanks
  chrBanks := o.chrBanks
  prgRomSize := o.prgBanks * 0x4000
  chrRomSize := o.chrBanks * 0x2000
  prgRamPresent := !o.ramAbsent
  prgRamSize := if o.ramAbsent then 0 else max o.ramUnits.val 1 * 0x2000
  mapper := o.mapper
  submapper := 0
  fourScreen := o.features.fourScreen
  mirroring := o.features.mirroring
  battery := o.features.battery
  trainer := o.features.trainer
  vsSystem := o.features.vsSystem
  playChoice := o.features.playChoice
  tvSystem := if o.pal then .pal else .ntsc
  tvCompatibility := if o.tvs = 0 then .ntsc else if o.tvs = 2 then .pal else .dual
  busConflicts := o.busConflicts

theorem shared : Shared o.header o.features o.mark o.mapper := .of_bytes rfl rfl

theorem format_header : o.header.format = .ines := o.shared.format.trans (if_neg o.mark.property)

/-- Byte 10 has the TV systems in its lowest two bits, and two flags. -/
theorem byteTen : o.header.bytes[10] &&& 0x03 = BitVec.ofNat 8 o.tvs.val ∧ o.header.bytes[10].getLsbD 4 = o.ramAbsent ∧
    o.header.bytes[10].getLsbD 5 = o.busConflicts := by
  have hall : ∀ (tvs low high : Fin 4) (absent conflicts : Bool),
      let b := Byte.ofHalves (tvs + 4 * low) (absent.toNat + 2 * conflicts.toNat + 4 * high)
      b &&& 0x03 = BitVec.ofNat 8 tvs.val ∧ b.getLsbD 4 = absent ∧ b.getLsbD 5 = conflicts := by
    decide +kernel
  exact hall o.tvs o.spareTen.1 o.spareTen.2 o.ramAbsent o.busConflicts

theorem verdict_header (strictness : Strictness) : o.header.verdict strictness = .ok o.header := by
  have hsignature : o.header.signature = magic := rfl
  have hclean : o.header.dirtyOffset? = none := rfl
  rw [verdict, hsignature, o.format_header]
  simp only [ne_eq, not_true_eq_false, if_false, paddingVerdict, hclean]

theorem properties_header : o.header.properties = o.properties := by
  have hformat := o.format_header
  have hshared := o.shared
  obtain ⟨htvs, habsent, hconflicts⟩ := o.byteTen
  have hbyte (n : Fin 256) : (BitVec.ofNat 8 n.val).toNat = n := by
    rw [BitVec.toNat_ofNat]
    omega
  have hprg : o.header.prgBanks = o.prgBanks := by
    rw [Header.prgBanks, hformat]
    exact hbyte o.prgBanks
  have hchr : o.header.chrBanks = o.chrBanks := by
    rw [Header.chrBanks, hformat]
    exact hbyte o.chrBanks
  have hmapper : o.header.mapper = o.mapper := by
    have hnone : BitVec.toNat (0 : BitVec 4) = 0 := rfl
    rw [Header.mapper, hformat]
    simp only [toNat_nibbles, hnone, hshared.mapperHigh, hshared.mapperLow]
    omega
  have hsubmapper : o.header.submapper = 0 := by rw [Header.submapper, hformat]
  have hpresent : o.header.prgRamPresent = !o.ramAbsent := by rw [Header.prgRamPresent, hformat, habsent]
  have hram : o.header.prgRamSize = if o.ramAbsent then 0 else max o.ramUnits.val 1 * 0x2000 := by
    have hunits : o.header.bytes[8].toNat = o.ramUnits := hbyte o.ramUnits
    rw [Header.prgRamSize, hformat]
    simp only [hpresent, hunits]
    cases o.ramAbsent <;> rfl
  have htv : o.header.tvSystem = if o.pal then .pal else .ntsc := by
    have hpal : o.header.bytes[9].getLsbD 0 = o.pal := by
      have hall : ∀ (pal : Bool) (spare : Fin 128), (BitVec.ofNat 8 (pal.toNat + 2 * spare.val)).getLsbD 0 = pal := by
        decide +kernel
      exact hall o.pal o.spareNine
    rw [Header.tvSystem, hformat, hpal]
  have htvs' : o.header.tvCompatibility = if o.tvs = 0 then .ntsc else if o.tvs = 2 then .pal else .dual := by
    have hall : ∀ tvs : Fin 4, (BitVec.ofNat 8 tvs.val = 0 ↔ tvs = 0) ∧ (BitVec.ofNat 8 tvs.val = 2 ↔ tvs = 2) := by
      decide
    rw [Header.tvCompatibility, hformat]
    simp only [htvs, (hall o.tvs).1, (hall o.tvs).2]
  have hbus : o.header.busConflicts = o.busConflicts := by rw [Header.busConflicts, hformat, hconflicts]
  simp only [Header.properties, Older.properties, prgRomSize, chrRomSize, hformat, hprg, hchr, hmapper, hsubmapper,
    hpresent, hram, hshared.fourScreen, hshared.mirroring, hshared.battery, hshared.trainer, hshared.vsSystem,
    hshared.playChoice, htv, htvs', hbus]

end Older

/-! ## Round trip -/

/-- Program RAM has a size if and only if it is there. -/
theorem prgRamPresent_iff (h : Header) : h.prgRamPresent = true ↔ 0 < h.prgRamSize := by
  unfold prgRamSize
  cases h.prgRamPresent with
  | false => cases h.format <;> exact iff_of_false Bool.false_ne_true (Nat.lt_irrefl 0)
  | true =>
    apply iff_of_true rfl
    cases h.format with
    | ines => exact Nat.mul_pos (Nat.lt_of_lt_of_le Nat.one_pos (Nat.le_max_right _ 1)) (by decide)
    | nes20 =>
      simp only [if_true, Nat.shiftLeft_eq]
      exact Nat.mul_pos (by decide) (Nat.two_pow_pos _)

/-- **The fields of a header are recovered.** Lay out any fields in either format. Every reader accepts the header, whatever
follows it, and reads off it what was laid out. Whatever the bytes of a header are, it says that there is program RAM if
and only if its size is not 0. -/
theorem fields_recovered :
    (∀ (n : Newer) (strictness : Strictness) (rest : Array Byte),
      (load strictness (n.header.bytes.toArray ++ rest)).conclude.result = .ok n.header ∧
        n.header.properties = n.properties) ∧
    (∀ (o : Older) (strictness : Strictness) (rest : Array Byte),
      (load strictness (o.header.bytes.toArray ++ rest)).conclude.result = .ok o.header ∧
        o.header.properties = o.properties) ∧
    ∀ h : Header, h.properties.prgRamPresent = true ↔ 0 < h.properties.prgRamSize := by
  refine ⟨fun n strictness rest => ⟨?_, n.properties_header⟩, fun o strictness rest => ⟨?_, o.properties_header⟩,
    prgRamPresent_iff⟩
  · rw [(yields_load_append strictness n.header rest).result_conclude, n.verdict_header]
  · rw [(yields_load_append strictness o.header rest).result_conclude, o.verdict_header]

end Header

end Nes
