import Nes.Cartridge.Basic
import Nes.Notice

/-!
# Loading

An image is a header, a trainer if the header says so, program ROM, graphics ROM, and whatever follows. Loading checks
the header, finds the board and takes the parts in order; either a whole cartridge comes of it or an error does.

The older format reserves the last five bytes of a header. Strict loading refuses an image that uses them. Lenient
loading accepts it; if one of the last four is in use, a tool once wrote its name over the end of the header, so the
mapper bits of byte 7 are dropped.
-/

namespace Nes

/-- What to do about reserved header bytes that are in use. -/
inductive Strictness
  | strict
  | lenient
  deriving DecidableEq

/-- A step of loading: it may stop with an error, and reports notices. -/
abbrev Loading := ExceptT LoadError (StateM (Array Notice))

/-- What came of loading. -/
structure Report (α : Type) where
  result : Except LoadError α
  notices : Array Notice

namespace Loading

variable {α : Type}

/-- Reports a notice. -/
def report (n : Notice) : Loading Unit := modify (·.push n)

/-- Goes through with loading. -/
def conclude (l : Loading α) : Report α :=
  let (result, notices) := (ExceptT.run l).run #[]
  ⟨result, notices⟩

end Loading

/-! ## Headers -/

namespace Header

theorem size_extract (image : Array Byte) (h : headerSize ≤ image.size) :
    (image.extract 0 headerSize).size = headerSize := by
  rw [Array.size_extract]
  omega

/-- The header of an image that is long enough to have one. -/
def ofImage? (image : Array Byte) : Option Header :=
  if h : headerSize ≤ image.size then some ⟨⟨image.extract 0 headerSize, size_extract image h⟩⟩ else none

/-- The bytes every image begins with: `NES` and `$1A`. -/
def magic : Vector Byte 4 := #v[0x4E, 0x45, 0x53, 0x1A]

/-- The first four bytes. -/
def signature (h : Header) : Vector Byte 4 := #v[h.bytes[0], h.bytes[1], h.bytes[2], h.bytes[3]]

/-- The first reserved byte of the older format that is in use. -/
def dirtyOffset? (h : Header) : Option (Fin headerSize) := [11, 12, 13, 14, 15].find? fun i => h.bytes[i] != 0

/-- Whether one of the last four bytes is in use. -/
def isOverwritten (h : Header) : Bool := [12, 13, 14, 15].any fun (i : Fin headerSize) => h.bytes[i] != 0

/-- Checks the reserved bytes of the older format. -/
def checkPadding (h : Header) (strictness : Strictness) : Loading Header :=
  match h.dirtyOffset?, strictness with
  | none, _ => return h
  | some offset, .strict => throw (.dirtyPadding offset h.bytes[offset])
  | some offset, .lenient =>
    if h.isOverwritten then do
      Loading.report (.mapperIgnored h.mapperHigh)
      return h.dropMapperHigh
    else do
      Loading.report (.paddingIgnored offset)
      return h

/-- Checks the bank counts of the newer format. -/
def checkSizes (h : Header) : Loading Header :=
  if h.format = .nes20 ∧ h.hasHugeSize then throw .sizeOverflow else return h

/-- Reads and checks the header of an image. The format is looked at twice: the second time it is that of the header as
the first check has left it. -/
def load (strictness : Strictness) (image : Array Byte) : Loading Header :=
  match ofImage? image with
  | none => throw .tooShort
  | some h =>
    if h.signature ≠ magic then throw (.badMagic h.signature)
    else do
      let h ← if h.format = .ines then h.checkPadding strictness else pure h
      h.checkSizes

end Header

/-! ## Cartridges -/

/-- Takes a part out of an image. Where the part ends is a sum that needs no check of its own: the parts that a header
announces all end below 128 MiB (`Header.imageSize_lt`), and a sum of sizes that far down fits in every machine word. -/
def takePart (image : Array Byte) (part : ImagePart) (start size : Nat) : Loading (Array Byte) :=
  if start + size ≤ image.size then return image.extract start (start + size)
  else throw (.truncated part size (image.size - start))

namespace Cartridge

/-- Passes over the trainer, if there is one. -/
def skipTrainer (h : Header) (image : Array Byte) : Loading Unit := do
  if h.trainer then
    let _ ← takePart image .trainer headerSize trainerSize
    Loading.report .trainerSkipped

/-- Takes graphics ROM, or makes a bank of graphics RAM, and says whether it is RAM. -/
def takeGraphics (h : Header) (image : Array Byte) : Loading (Array Byte × Bool) :=
  if h.chrBanks = 0 then
    return (.replicate chrBankSize 0, true)
  else do
    let chr ← takePart image .chrRom h.chrStart h.chrRomSize
    return (chr, false)

/-- Builds a cartridge from an image. -/
def load (strictness : Strictness) (image : Array Byte) : Loading Cartridge := do
  let header ← Header.load strictness image
  let board ← Board.ofHeader header
  Loading.report (.headerAccepted header)
  skipTrainer header image
  let prgRom ← takePart image .prgRom header.prgStart header.prgRomSize
  let (chr, chrIsRam) ← takeGraphics header image
  if header.imageSize < image.size then
    Loading.report (.trailingIgnored (image.size - header.imageSize))
  return { header, board, prgRom, prgRam := .replicate header.prgRamSize 0, chr, chrIsRam }

/-- Builds a cartridge from what came of reading a file. -/
def loadFile (strictness : Strictness) : Except ReadFailure (Array Byte) → Loading Cartridge
  | .ok image => load strictness image
  | .error failure => throw (.unreadable failure)

end Cartridge

end Nes
