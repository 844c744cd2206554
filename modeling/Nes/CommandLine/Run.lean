import Nes.CommandLine.Arguments
import Nes.Console.Basic
import Nes.Cartridge.Loading
import Nes.Memory.Flat
import Nes.Text.Lines

/-!
# Runs from the command line

A call runs a demonstration or a cartridge and prints what came of it: the instructions if they are traced, the
registers, and a listing.
-/

namespace Nes.CommandLine

/-- What a call prints, and the code it ends with. -/
structure Outcome where
  code : Nat := 0
  /-- The lines that are printed. -/
  output : List String := []
  /-- The text that goes to the error stream, with its ends of line. -/
  errors : String := ""

/-- The lines that go to the error stream. What was typed may hold ends of line itself. -/
def Outcome.errorLines (o : Outcome) : List String := lines o.errors

/-! ## What is printed -/

/-- The registers and the clock in one line. -/
def registersText (p : Processor) : String :=
  let r := p.registers
  "A:" ++ r.a.hex ++ " X:" ++ r.x.hex ++ " Y:" ++ r.y.hex ++ " SP:" ++ r.sp.hex ++ " PC:" ++ r.pc.hex ++ " P:" ++
    Flag.text r.status ++ " cycles:" ++ decimal p.clockCount

/-- The recorded instructions, a line each. -/
def journalLines (p : Processor) : List String := (p.journal.getD #[]).toList.map (·.text)

/-- A listing, a line each. -/
def listingLines (l : Listing) : List String := l.lines.toList.map (·.text)

/-- A processor that records if the options ask for it. -/
def Options.processor (o : Options) : Processor := if o.trace then .recording else {}

/-! ## The demonstration -/

/-- Multiplies ten by three by repeated addition and stores the product at `$0002`. -/
def demoProgram : List Byte :=
  [0xA2, 0x0A, -- LDX #10
    0x8E, 0x00, 0x00, -- STX $0000
    0xA2, 0x03, -- LDX #3
    0x8E, 0x01, 0x00, -- STX $0001
    0xAC, 0x00, 0x00, -- LDY $0000
    0xA9, 0x00, -- LDA #0
    0x18, -- CLC
    0x6D, 0x01, 0x00, -- ADC $0001, the start of the loop
    0x88, -- DEY
    0xD0, 0xFA, -- BNE back
    0x8D, 0x02, 0x00, -- STA $0002
    0xEA, 0xEA, 0xEA] -- NOP

def demoStart : Addr := 0x8000

/-- The first address behind the store of the product. -/
def demoEnd : Addr := 0x8019

/-- The memory that the demonstration starts from. -/
def demoMemory : FlatMemory :=
  (FlatMemory.zero.load demoStart demoProgram).load resetVector [demoStart.low, demoStart.high]

/-- Carries out at most a number of instructions, up to the end of the demonstration. -/
def stepDemo (p : Processor) (m : FlatMemory) : Nat → Processor × FlatMemory
  | 0 => (p, m)
  | n + 1 =>
    if demoEnd ≤ p.registers.pc then (p, m)
    else
      let ((_, p), m) := p.step.run m
      stepDemo p m n

/-- Runs the demonstration. -/
def runDemo (o : Options) : List String :=
  let (p, m) := o.processor.reset.run demoMemory
  let (p, m) := stepDemo p m o.instructions
  let (first, last) := o.range.getD (demoStart, demoStart + BitVec.ofNat 16 (demoProgram.length - 1))
  let (listing, m) := (Listing.ofRange first last).run m
  journalLines p ++ [registersText p, "$0002 = " ++ decimal (m.peek 0x0002).toNat] ++ listingLines listing

/-! ## Cartridges -/

/-- Runs a cartridge in a console with a register block. -/
def runCartridge (o : Options) (cartridge : Cartridge) : List String :=
  let console : Console RegisterBlock := { Console.ofDevice {} with processor := o.processor }
  let console := ((console.insert cartridge).2.reset).run o.instructions
  let listing := match o.range with
    | some (first, last) => listingLines (console.list first last).1
    | none => []
  [cartridge.header.text] ++ journalLines console.processor ++
    [registersText console.processor, "master clock: " ++ decimal console.clock] ++ listing

/-- Runs the image that was read from a file. -/
def runImage (o : Options) (path : String) (contents : Except ReadFailure (Array Byte)) : Outcome :=
  let strictness := if o.lenient then Strictness.lenient else .strict
  match (Cartridge.loadFile strictness contents).conclude.result with
  | .ok cartridge => { output := runCartridge o cartridge }
  | .error e => { code := 1, errors := path ++ ": " ++ e.message ++ "\n" }

/-! ## Calls -/

def versionText : String := "nescore 0.1.0"

def helpText : List String :=
  ["Run a 6502 program or iNES cartridge",
    "",
    "Usage: nescore [OPTIONS] [ROM]",
    "",
    "Arguments:",
    "  [ROM]  iNES image to load. Without one, a built-in multiply demo runs on a flat 64 KiB bus",
    "",
    "Options:",
    "  -n, --instructions <INSTRUCTIONS>  Instructions to execute after reset [default: 64]",
    "  -t, --trace                        Print one line per executed instruction",
    "      --disasm <START> <END>         Disassemble START..=END (hex) after running",
    "      --lenient                      Accept garbage in the reserved header bytes",
    "  -h, --help                         Print help",
    "  -V, --version                      Print version"]

/-- What is printed for a call that cannot be carried out. -/
def refuse (e : UsageError) : Outcome :=
  { code := 2, errors := e.message ++ "\n\nFor more information, try '--help'.\n" }

/-- Carries out a call; `readFile` reads the image if one is named. -/
def run {m : Type → Type} [Monad m] (readFile : String → m (Except ReadFailure (Array Byte)))
    (arguments : List String) : m Outcome :=
  match parse arguments with
  | .error e => return refuse e
  | .ok .help => return { output := helpText }
  | .ok .version => return { output := [versionText] }
  | .ok (.run o) =>
    match o.image with
    | none => return { output := runDemo o }
    | some path => do
      let contents ← readFile path
      return runImage o path contents

end Nes.CommandLine
