/-!
# Plain text

What is left of a text when the control sequences of a terminal are taken out of it. A sequence begins with an escape
character; the character after it says of which kind the sequence is, and so where it ends. Controls outside a sequence
are taken out as well, except those that are white space.

A white-space control is carried out even inside a sequence. It breaks into the sequence: the text behind it is shown,
up to the next control, and only then is the sequence read on.

* `plain` takes the control sequences out of a text.
-/

namespace Nes

/-- Where in a control sequence a reader is. -/
inductive Control
  /-- In none. -/
  | ground
  /-- Behind the escape character. -/
  | escape
  /-- Behind the intermediate characters of an escape sequence. -/
  | escapeIntermediate
  /-- Behind `ESC [`. -/
  | sequence
  /-- Behind `ESC ]`: a command to the operating system. -/
  | command
  /-- Behind `ESC P`: a device control string begins. -/
  | deviceEntry
  /-- In the parameters of a device control string. -/
  | deviceParameter
  /-- In the intermediate characters of a device control string. -/
  | deviceIntermediate
  /-- In the text of a device control string, a message or an application command. -/
  | string
  deriving DecidableEq

/-- The controls that are white space. -/
def isBlankControl (c : Char) : Bool := c == '\t' || c == '\n' || c == '\x0c' || c == '\r'

/-- Whether a character stands for itself outside a sequence. -/
def isPlain (c : Char) : Bool := (' ' ≤ c && c ≠ '\x7f') || isBlankControl c

/-- The terminator of a string is a single byte, which is met inside encoded characters too. -/
def holdsTerminator (c : Char) : Bool := (String.utf8EncodeChar c).contains 0x9C

namespace Control

/-- Whether white-space controls are carried out. Strings and commands swallow them. -/
def obeysControls : Control → Bool
  | ground | escape | escapeIntermediate | sequence => true
  | command | deviceEntry | deviceParameter | deviceIntermediate | string => false

/-- Whether a character is left in the text. -/
def keeps (s : Control) (c : Char) : Bool :=
  match s with
  | ground => isPlain c
  | s => s.obeysControls && isBlankControl c

/-- Behind the escape character and one more. -/
def afterEscape (c : Char) : Control :=
  if ' ' ≤ c ∧ c ≤ '/' then escapeIntermediate
  else match c with
    | '[' => sequence
    | ']' => command
    | 'P' => deviceEntry
    | 'X' | '^' | '_' => string
    | c => if '0' ≤ c ∧ c ≤ '~' then ground else escape

/-- Behind a character in front of the text of a device control string. -/
def afterDevice (s : Control) (c : Char) : Control :=
  if ' ' ≤ c ∧ c ≤ '/' then deviceIntermediate
  else if '0' ≤ c ∧ c ≤ ';' then if s = deviceIntermediate then string else deviceParameter
  else if '<' ≤ c ∧ c ≤ '?' then if s = deviceEntry then deviceParameter else string
  else if '@' ≤ c ∧ c ≤ '~' then string
  else s

/-- Behind one more character. Cancelling ends every sequence, and an escape character begins a new one. -/
def next (s : Control) (c : Char) : Control :=
  match c with
  | '\x18' | '\x1a' => ground
  | '\x1b' => escape
  | c =>
    match s with
    | ground => ground
    | escape => afterEscape c
    | escapeIntermediate => if '0' ≤ c ∧ c ≤ '~' then ground else s
    | sequence => if '@' ≤ c ∧ c ≤ '~' then ground else s
    | command => if c = '\x07' then ground else s
    | deviceEntry | deviceParameter | deviceIntermediate => s.afterDevice c
    | string => if holdsTerminator c then ground else s

/-- Behind a character that is left in the text. One outside ASCII ends the sequence that white space has broken into. -/
def resume (s : Control) (c : Char) : Control := if c.toNat < 0x80 then s else ground

end Control

/-- What is left of a text from a point on; `shown` tells whether the character before it was left in the text. -/
def plainFrom (s : Control) (shown : Bool) : List Char → List Char
  | [] => []
  | c :: rest =>
    if if shown then isPlain c else s.keeps c then c :: plainFrom (s.resume c) true rest
    else plainFrom (s.next c) false rest

/-- A text without control sequences. -/
def plain (s : String) : String := String.ofList (plainFrom .ground false s.toList)

end Nes
