import Nes.CommandLine.Address
import Nes.Text.Decimal
import Nes.Text.Plain
import Nes.Text.Quoted

/-!
# Arguments

What the command line asks for. Options have a long name, some a letter as well; letters may share a dash, and a value
may be attached to its option. Values that follow an option are collected and checked when the next option or the image
is met, or at the end. `--` ends the options.

* `parse` reads the arguments of a call.
-/

namespace Nes.CommandLine

/-- How to run. -/
structure Options where
  /-- The file with the cartridge's image; without one a demonstration runs. -/
  image : Option String := none
  /-- The number of instructions to carry out after the reset. -/
  instructions : Nat := 64
  /-- Whether to show each instruction. -/
  trace : Bool := false
  /-- The range to list afterwards. -/
  range : Option (Addr × Addr) := none
  /-- Whether reserved header bytes may be in use. -/
  lenient : Bool := false

/-- What a call asks for. -/
inductive Request
  | run (options : Options)
  | help
  | version

/-! ## Errors -/

/-- The options that take values. -/
inductive ValueOption
  | instructions
  | range
  deriving DecidableEq

/-- The number of values an option takes. -/
def ValueOption.arity : ValueOption → Nat
  | .instructions => 1
  | .range => 2

/-- An option with its values, as usage shows it. -/
def ValueOption.usage : ValueOption → String
  | .instructions => "--instructions <INSTRUCTIONS>"
  | .range => "--disasm <START> <END>"

/-- Why a call cannot be carried out. -/
inductive UsageError
  | badCount (value : String) (cause : NumeralError)
  | badAddress (value : String) (cause : NumeralError)
  | missingValue (usage : String)
  | wrongArity (option : ValueOption) (given : Nat)
  | repeated (usage : String)
  | unexpectedValue (value usage : String)
  | unexpectedArgument (argument : String)

namespace UsageError

/-- A rejected value and why. -/
def rejection (value : String) (option : ValueOption) (cause : String) : String :=
  "error: invalid value '" ++ plain value ++ "' for '" ++ option.usage ++ "': " ++ cause

/-- What is said of an error. What was typed is shown without control sequences, so that a message cannot steer the
terminal it is shown on. -/
def message : UsageError → String
  | .badCount value cause => rejection value .instructions cause.message
  | .badAddress value cause =>
    rejection value .range ("invalid address " ++ Quoted.encode value ++ ": " ++ cause.message)
  | .missingValue usage => "error: a value is required for '" ++ usage ++ "' but none was supplied"
  | .wrongArity option given =>
    "error: " ++ decimal option.arity ++ " values required by '" ++ option.usage ++ "'; only " ++ decimal given ++
      " was provided"
  | .repeated usage => "error: the argument '" ++ usage ++ "' cannot be used multiple times"
  | .unexpectedValue value usage =>
    "error: unexpected value '" ++ plain value ++ "' for '" ++ usage ++ "' found; no more were expected"
  | .unexpectedArgument argument => "error: unexpected argument '" ++ plain argument ++ "' found"

end UsageError

/-! ## Reading arguments one after the other -/

/-- Values that are not checked yet. -/
inductive Pending
  | values (option : ValueOption) (given : List String)
  | image (path : String)

/-- What the arguments so far have asked for. -/
structure Progress where
  pending : Option Pending := none
  /-- Whether an image was named. -/
  imageGiven : Bool := false
  image : Option String := none
  instructions : Option Nat := none
  /-- The addresses of all ranges, in order. -/
  addresses : List Addr := []
  trace : Bool := false
  lenient : Bool := false

/-- How far reading has come: there may be more, or the rest does not matter. -/
inductive Reading
  | more (progress : Progress)
  | stop (request : Request)

/-- The flags: options without a value. -/
inductive Switch
  | trace
  | lenient
  | help
  | version

/-- An option by its long name. -/
inductive OptionName
  | value (option : ValueOption)
  | switch (switch : Switch)

def OptionName.ofLong? : String → Option OptionName
  | "instructions" => some (.value .instructions)
  | "disasm" => some (.value .range)
  | "trace" => some (.switch .trace)
  | "lenient" => some (.switch .lenient)
  | "help" => some (.switch .help)
  | "version" => some (.switch .version)
  | _ => none

def OptionName.ofLetter? : Char → Option OptionName
  | 'n' => some (.value .instructions)
  | 't' => some (.switch .trace)
  | 'h' => some (.switch .help)
  | 'V' => some (.switch .version)
  | _ => none

namespace Progress

/-- Takes in the values of an option. The number of values is checked before the values are. -/
def store (p : Progress) : ValueOption → List String → Except UsageError Progress
  | option, [] => .error (.missingValue option.usage)
  | .instructions, [value] =>
    if p.instructions.isSome then .error (.repeated ValueOption.instructions.usage)
    else match Numeral.read 10 UInt64.size value.toList with
      | .ok n => .ok { p with instructions := some n }
      | .error cause => .error (.badCount value cause)
  | .range, [first, last] =>
    match readAddress first, readAddress last with
    | .ok a, .ok b => .ok { p with addresses := p.addresses ++ [a, b] }
    | .error cause, _ => .error (.badAddress first cause)
    | .ok _, .error cause => .error (.badAddress last cause)
  | option, given => .error (.wrongArity option given.length)

/-- Checks and takes in what is pending. -/
def settle (p : Progress) : Except UsageError Progress :=
  match p.pending with
  | none => .ok p
  | some (.values option given) => { p with pending := none }.store option given
  | some (.image path) =>
    if path.isEmpty then .error (.missingValue "[ROM]") else .ok { p with pending := none, image := some path }

/-- Takes an option and the value attached to it, if there is one. -/
def takeValue (p : Progress) (option : ValueOption) (attached : Option String) : Except UsageError Progress := do
  let p ← p.settle
  match attached with
  | some value => p.store option [value]
  | none => return { p with pending := some (.values option []) }

/-- Takes a flag. -/
def takeSwitch (p : Progress) (s : Switch) : Except UsageError Reading := do
  let p ← p.settle
  match s with
  | .help => return .stop .help
  | .version => return .stop .version
  | .trace => if p.trace then .error (.repeated "--trace") else return .more { p with trace := true }
  | .lenient => if p.lenient then .error (.repeated "--lenient") else return .more { p with lenient := true }

/-- Takes an option by its long name. -/
def takeLong (p : Progress) (name : String) (attached : Option String) : Except UsageError Reading :=
  match OptionName.ofLong? name, attached with
  | none, _ => .error (.unexpectedArgument ("--" ++ name))
  | some (.value option), attached => .more <$> p.takeValue option attached
  | some (.switch s), none => p.takeSwitch s
  | some (.switch _), some value => .error (.unexpectedValue value ("--" ++ name))

/-- Takes the letters behind a dash. What follows a letter that takes a value is that value, after an equals sign if
there is one. -/
def takeLetters (p : Progress) : List Char → Except UsageError Reading
  | [] => .ok (.more p)
  | c :: rest =>
    match OptionName.ofLetter? c with
    | none => .error (.unexpectedArgument (String.ofList ['-', c]))
    | some (.value option) =>
      let attached := match rest with
        | [] => none
        | '=' :: value => some (String.ofList value)
        | value => some (String.ofList value)
      .more <$> p.takeValue option attached
    | some (.switch s) => do
      match ← p.takeSwitch s with
      | .stop request => return .stop request
      | .more p => p.takeLetters rest

/-- Takes the name of the image. -/
def takeImage (p : Progress) (path : String) : Except UsageError Progress :=
  if p.imageGiven then .error (.unexpectedArgument path)
  else do
    let p ← p.settle
    return { p with pending := some (.image path), imageGiven := true }

/-- Takes an argument that is no option: a value that is still due, or the name of the image. -/
def takePlain (p : Progress) (argument : String) : Except UsageError Progress :=
  match p.pending with
  | some (.values option given) =>
    if given.length < option.arity then .ok { p with pending := some (.values option (given ++ [argument])) }
    else p.takeImage argument
  | _ => p.takeImage argument

/-- Takes the arguments after `--`. -/
def takeImages (p : Progress) : List String → Except UsageError Progress
  | [] => .ok p
  | path :: rest => do
    let p ← p.takeImage path
    p.takeImages rest

/-- The text before the first equals sign, and the text behind it. -/
def splitAttached (cs : List Char) : String × Option String :=
  let name := cs.takeWhile (· ≠ '=')
  (String.ofList name, (cs.drop (name.length + 1) |> String.ofList |> some).filter fun _ => name.length < cs.length)

/-- Takes one argument before `--`. -/
def take (p : Progress) (argument : String) : Except UsageError Reading :=
  match argument.toList with
  | '-' :: '-' :: long =>
    let (name, attached) := splitAttached long
    p.takeLong name attached
  | '-' :: c :: letters => p.takeLetters (c :: letters)
  | _ => .more <$> p.takePlain argument

/-- What was asked for, once all arguments are read. -/
def options (p : Progress) : Options where
  image := p.image
  instructions := p.instructions.getD 64
  trace := p.trace
  range := match p.addresses with
    | first :: last :: _ => some (first, last)
    | _ => none
  lenient := p.lenient

/-- Takes all arguments. -/
def takeAll (p : Progress) : List String → Except UsageError Request
  | [] => do
    let p ← p.settle
    return .run p.options
  | "--" :: rest => do
    let p ← p.takeImages rest
    let p ← p.settle
    return .run p.options
  | argument :: rest => do
    match ← p.take argument with
    | .stop request => return request
    | .more p => p.takeAll rest

end Progress

/-- Reads the arguments of a call. -/
def parse (arguments : List String) : Except UsageError Request := Progress.takeAll {} arguments

end Nes.CommandLine
