import Nes.CommandLine.Run

/-!
# The program

Reads the image from the file system, prints what the call prints, and ends with its code.
-/

namespace Nes.CommandLine

/-- The system's number for a failure, which may come negated. -/
def failureCode (code : UInt32) : Nat := if code.toNat < 0x80000000 then code.toNat else UInt32.size - code.toNat

/-- What the system said when a file could not be read. -/
def readFailure : IO.Error → ReadFailure
  | .noFileOrDirectory _ code reason | .interrupted _ code reason | .alreadyExists _ code reason
  | .invalidArgument _ code reason | .permissionDenied _ code reason | .resourceExhausted _ code reason
  | .inappropriateType _ code reason | .noSuchThing _ code reason | .otherError code reason
  | .resourceBusy code reason | .resourceVanished code reason | .unsupportedOperation code reason
  | .hardwareFault code reason | .unsatisfiedConstraints code reason | .illegalOperation code reason
  | .protocolError code reason | .timeExpired code reason => .ofCode (failureCode code) reason
  | .unexpectedEof => ⟨"unexpected end of file", 0⟩
  | .userError reason => ⟨reason, 0⟩

/-- The bytes of a file, or why there are none. -/
def readImage (path : String) : IO (Except ReadFailure (Array Byte)) := do
  try
    let data ← IO.FS.readBinFile path
    return .ok (data.data.map (·.toBitVec))
  catch e =>
    return .error (readFailure e)

end Nes.CommandLine

open Nes.CommandLine in
/-- Carries out a call. -/
def main (arguments : List String) : IO UInt32 := do
  let outcome ← run readImage arguments
  for line in outcome.output do
    IO.println line
  IO.eprint outcome.errors
  return UInt32.ofNat outcome.code
