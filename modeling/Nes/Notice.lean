import Nes.Cartridge.Header
import Nes.Processor.Journal

/-!
# Notices

What the machine reports while it works, for whoever keeps a log. A notice never changes what happens.
-/

namespace Nes

/-- How much a notice matters. -/
inductive Severity
  | warning
  | debug
  | trace
  deriving DecidableEq

/-- Something worth reporting. -/
inductive Notice
  /-- Reserved bytes of the older format are in use, so the mapper's high bits are not believed. -/
  | mapperIgnored (nibble : BitVec 4)
  /-- One reserved byte is in use and is passed over. -/
  | paddingIgnored (offset : Nat)
  /-- The header describes a cartridge that can be built. -/
  | headerAccepted (header : Header)
  | trainerSkipped
  /-- Bytes follow that the header does not describe. -/
  | trailingIgnored (count : Nat)
  | inserting (header : Header)
  | executed (entry : JournalEntry)

namespace Notice

def severity : Notice → Severity
  | .mapperIgnored _ | .paddingIgnored _ => .warning
  | .headerAccepted _ | .trainerSkipped | .trailingIgnored _ | .inserting _ => .debug
  | .executed _ => .trace

def message : Notice → String
  | .mapperIgnored nibble =>
    "garbage in reserved header bytes, ignoring mapper high nibble 0x" ++ String.singleton (hexDigit nibble)
  | .paddingIgnored offset => "reserved header byte " ++ decimal offset ++ " is non-zero, accepting"
  | .headerAccepted header => "cartridge header: " ++ header.text
  | .trainerSkipped => "skipped " ++ decimal trainerSize ++ "-byte trainer"
  | .trailingIgnored count => "ignoring " ++ decimal count ++ " trailing bytes"
  | .inserting header => "inserting cartridge: " ++ header.text
  | .executed entry => entry.text

end Notice

end Nes
