import Nes.Cartridge.Catalogue
import Nes.Text.Decimal
import Nes.Text.Hex

/-!
# Why an image is refused

The causes for which no cartridge comes of an image, and their texts.
-/

namespace Nes

/-- The parts of an image after its header. -/
inductive ImagePart
  | trainer
  | prgRom
  | chrRom
  deriving DecidableEq

def ImagePart.name : ImagePart → String
  | .trainer => "trainer"
  | .prgRom => "PRG ROM"
  | .chrRom => "CHR ROM"

/-- Why a file could not be read: the system's words and number for it. -/
structure ReadFailure where
  reason : String
  code : Nat
  deriving DecidableEq

namespace ReadFailure

def notFound : ReadFailure := ⟨"No such file or directory", 2⟩

def notDirectory : ReadFailure := ⟨"Not a directory", 20⟩

def isDirectory : ReadFailure := ⟨"Is a directory", 21⟩

def nameTooLong : ReadFailure := ⟨"File name too long", 36⟩

/-- The failures that have a name of their own, and others that reading a file can meet. -/
def known : List ReadFailure :=
  [notFound, notDirectory, isDirectory, nameTooLong, ⟨"Operation not permitted", 1⟩, ⟨"Input/output error", 5⟩,
    ⟨"No such device or address", 6⟩, ⟨"Cannot allocate memory", 12⟩, ⟨"Permission denied", 13⟩,
    ⟨"Too many open files in system", 23⟩, ⟨"Too many open files", 24⟩, ⟨"Too many levels of symbolic links", 40⟩]

/-- The failure with a number; `reason` stands for the words of one that is not known. -/
def ofCode (code : Nat) (reason : String) : ReadFailure := (known.find? (·.code == code)).getD ⟨reason, code⟩

def message (f : ReadFailure) : String := f.reason ++ " (os error " ++ decimal f.code ++ ")"

end ReadFailure

/-- Why there is no cartridge. -/
inductive LoadError
  /-- There are fewer than sixteen bytes. -/
  | tooShort
  /-- The first four bytes are not the signature. -/
  | badMagic (found : Vector Byte 4)
  /-- A reserved byte of the older format is in use. -/
  | dirtyPadding (offset : Nat) (value : Byte)
  /-- A bank count is in a notation that is not supported. -/
  | sizeOverflow
  /-- There is no such board. -/
  | unsupportedMapper (mapper : Nat)
  /-- A part is longer than what is left of the image. -/
  | truncated (part : ImagePart) (expected available : Nat)
  /-- There is no image. -/
  | unreadable (failure : ReadFailure)
  deriving DecidableEq

/-- What is said of an error. -/
def LoadError.message : LoadError → String
  | .tooShort => "image is shorter than the 16-byte header"
  | .badMagic found =>
    "bad magic [" ++ ", ".intercalate (found.toList.map Byte.hex) ++ "], expected \"NES\\x1A\""
  | .dirtyPadding offset value =>
    "reserved header byte " ++ decimal offset ++ " is 0x" ++ value.hex ++ ", expected zero"
  | .sizeOverflow => "declared ROM size is not representable"
  | .unsupportedMapper mapper => "unsupported mapper " ++ decimal mapper ++ " (" ++ boardName mapper ++ ")"
  | .truncated part expected available =>
    "truncated " ++ part.name ++ ": expected " ++ decimal expected ++ " bytes, " ++ decimal available ++ " available"
  | .unreadable failure => "failed to read image: " ++ failure.message

end Nes
