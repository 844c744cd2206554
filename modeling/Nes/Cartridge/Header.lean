import Nes.Word
import Nes.Cartridge.Catalogue
import Nes.Text.Decimal

/-!
# Headers

A cartridge image begins with sixteen bytes that describe it. There are two formats, told apart by two bits of byte 7;
the newer one widens the sizes and the mapper number. A header keeps the bytes, and every property is read off them.

| byte | older format | newer format |
|---|---|---|
| 0 to 3 | `NES` and `$1A` | the same |
| 4, 5 | program ROM in 16 KiB banks, graphics ROM in 8 KiB banks | their low eight bits |
| 6 | bit 0 mirroring, 1 battery, 2 trainer, 3 four screens, 4 to 7 mapper bits 0 to 3 | the same |
| 7 | bit 0 Vs. system, 1 PlayChoice-10, 2 and 3 format, 4 to 7 mapper bits 4 to 7 | the same |
| 8 | program RAM in 8 KiB units | mapper bits 8 to 11, submapper |
| 9 | bit 0 TV system | bits 8 to 11 of the two bank counts |
| 10 | bits 0 and 1 TV systems, 4 no program RAM, 5 bus conflicts | program RAM as a shift |
| 12 | zero | bits 0 and 1 TV system |
-/

namespace Nes

/-- The two layouts of a header. -/
inductive HeaderFormat
  | ines
  | nes20
  deriving DecidableEq

/-- How the picture memory is wired. -/
inductive Mirroring
  | horizontal
  | vertical
  | fourScreen
  deriving DecidableEq

inductive TvSystem
  | ntsc
  | pal
  deriving DecidableEq

/-- The systems that a cartridge runs on. -/
inductive TvCompatibility
  | ntsc
  | pal
  | dual
  deriving DecidableEq

/-- The shown name of a mirroring. -/
def Mirroring.name : Mirroring → String
  | .horizontal => "Horizontal"
  | .vertical => "Vertical"
  | .fourScreen => "FourScreen"

/-- The number of bytes in a header. -/
abbrev headerSize : Nat := 16

/-- The number of bytes in a trainer. -/
abbrev trainerSize : Nat := 512

/-- The number of bytes in a bank of program ROM. -/
abbrev prgBankSize : Nat := 0x4000

/-- The number of bytes in a bank of graphics storage. -/
abbrev chrBankSize : Nat := 0x2000

/-- The first sixteen bytes of an image. -/
structure Header where
  bytes : Vector Byte headerSize
  deriving DecidableEq

namespace Header

/-! ## Format and sizes -/

def format (h : Header) : HeaderFormat := if h.bytes[7] &&& 0x0C = 0x08 then .nes20 else .ines

/-- Program ROM in banks. -/
def prgBanks (h : Header) : Nat :=
  match h.format with
  | .ines => h.bytes[4].toNat
  | .nes20 => (h.bytes[9].lowNibble ++ h.bytes[4]).toNat

/-- Graphics ROM in banks; with none, the cartridge has a bank of graphics RAM. -/
def chrBanks (h : Header) : Nat :=
  match h.format with
  | .ines => h.bytes[5].toNat
  | .nes20 => (h.bytes[9].highNibble ++ h.bytes[5]).toNat

def prgRomSize (h : Header) : Nat := h.prgBanks * prgBankSize

def chrRomSize (h : Header) : Nat := h.chrBanks * chrBankSize

/-- Whether there is program RAM. -/
def prgRamPresent (h : Header) : Bool :=
  match h.format with
  | .ines => !h.bytes[10].getLsbD 4
  | .nes20 => h.bytes[10].lowNibble != 0

/-- Whether a bank count is in the newer format's notation for huge sizes. -/
def hasHugeSize (h : Header) : Bool := h.bytes[9].lowNibble == 0xF || h.bytes[9].highNibble == 0xF

/-- Program RAM in bytes. The older format counts units of 8 KiB and means one by none. -/
def prgRamSize (h : Header) : Nat :=
  match h.format with
  | .ines => if h.prgRamPresent then max h.bytes[8].toNat 1 * 0x2000 else 0
  | .nes20 => if h.prgRamPresent then 64 <<< h.bytes[10].lowNibble.toNat else 0

/-! ## The board -/

/-- The mapper bits of byte 7. -/
def mapperHigh (h : Header) : BitVec 4 := h.bytes[7].highNibble

/-- The header without the mapper bits of byte 7. -/
def dropMapperHigh (h : Header) : Header := ⟨h.bytes.set 7 (h.bytes[7] &&& 0x0F)⟩

/-- The mapper number, whose bits are spread over three bytes. -/
def mapper (h : Header) : Nat :=
  let high : BitVec 4 := match h.format with
    | .ines => 0
    | .nes20 => h.bytes[8].lowNibble
  (high ++ h.mapperHigh ++ h.bytes[6].highNibble).toNat

/-- The variant of the mapper, 0 in the older format. -/
def submapper (h : Header) : Nat :=
  match h.format with
  | .ines => 0
  | .nes20 => h.bytes[8].highNibble.toNat

def fourScreen (h : Header) : Bool := h.bytes[6].getLsbD 3

def mirroring (h : Header) : Mirroring :=
  if h.fourScreen then .fourScreen else if h.bytes[6].getLsbD 0 then .vertical else .horizontal

def battery (h : Header) : Bool := h.bytes[6].getLsbD 1

/-- Whether 512 bytes stand between the header and program ROM. -/
def trainer (h : Header) : Bool := h.bytes[6].getLsbD 2

def vsSystem (h : Header) : Bool := h.bytes[7].getLsbD 0

def playChoice (h : Header) : Bool := h.bytes[7].getLsbD 1

def tvSystem (h : Header) : TvSystem :=
  let pal := match h.format with
    | .ines => h.bytes[9].getLsbD 0
    | .nes20 => h.bytes[12] &&& 0x03 == 0x01
  if pal then .pal else .ntsc

def tvCompatibility (h : Header) : TvCompatibility :=
  let bits := match h.format with
    | .ines => h.bytes[10] &&& 0x03
    | .nes20 => h.bytes[12] &&& 0x03
  if bits = 0 then .ntsc else if bits = 2 then .pal else .dual

/-- Whether a write to ROM meets the byte that ROM drives. -/
def busConflicts (h : Header) : Bool :=
  match h.format with
  | .ines => h.bytes[10].getLsbD 5
  | .nes20 => false

/-! ## Where the parts of the image begin -/

def prgStart (h : Header) : Nat := headerSize + if h.trainer then trainerSize else 0

def chrStart (h : Header) : Nat := h.prgStart + h.prgRomSize

/-- The number of bytes that the header describes, itself included. -/
def imageSize (h : Header) : Nat := h.chrStart + h.chrRomSize

/-- Bank counts have twelve bits at most. -/
theorem banks_lt (h : Header) : h.prgBanks < 0x1000 ∧ h.chrBanks < 0x1000 := by
  unfold prgBanks chrBanks
  cases h.format with
  | ines => exact ⟨Nat.lt_trans (BitVec.isLt _) (by decide), Nat.lt_trans (BitVec.isLt _) (by decide)⟩
  | nes20 => exact ⟨BitVec.isLt _, BitVec.isLt _⟩

/-- A header describes less than 128 MiB. -/
theorem imageSize_lt (h : Header) : h.imageSize < 0x8000000 := by
  obtain ⟨hprg, hchr⟩ := h.banks_lt
  have hstart : h.prgStart ≤ 528 := by
    unfold prgStart
    split <;> decide
  simp only [imageSize, chrStart, prgRomSize, chrRomSize, prgBankSize, chrBankSize]
  omega

/-! ## Text -/

/-- A header in one line. -/
def text (h : Header) : String :=
  let format := match h.format with
    | .ines => "iNES"
    | .nes20 => "NES 2.0"
  let chr := if h.chrBanks = 0 then "8 KiB RAM" else decimal (h.chrRomSize / 1024) ++ " KiB"
  format ++ " mapper " ++ decimal h.mapper ++ " (" ++ boardName h.mapper ++ "), PRG " ++ decimal (h.prgRomSize / 1024) ++
    " KiB, CHR " ++ chr ++ ", " ++ h.mirroring.name ++ " mirroring" ++ (if h.battery then ", battery" else "") ++
    (if h.trainer then ", trainer" else "")

end Header

end Nes
