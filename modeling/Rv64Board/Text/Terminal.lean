/-!
# What a terminal shows

A text can hold control characters, and sequences of characters that steer a terminal. `shown` is
what is left of it without them. A sequence starts with the escape character; the next character
tells how it goes on and where it ends.
-/

namespace Rv64Board.Text

/-- Where in a text with control sequences a character stands. -/
inductive TerminalState
  /-- Outside of control sequences. -/
  | plain
  /-- After an escape character. -/
  | escape
  /-- In an escape sequence with intermediate characters; it ends with the first other one. -/
  | intermediate
  /-- In a sequence with parameters, which ends with a letter or a similar character. -/
  | parameters
  /-- In a string that a bell or an escape character ends. -/
  | command
  /-- At the start of a string for a device. -/
  | device
  /-- In the parameters of a string for a device. -/
  | deviceParameters
  /-- In the intermediate characters that follow them. -/
  | deviceIntermediate
  /-- In a string that an escape character or the string terminator ends. -/
  | string
  deriving DecidableEq, Inhabited

namespace TerminalState

/-- The character code lies in a range. -/
def codeIn (low high : Nat) (c : Char) : Bool :=
  low ≤ c.toNat && c.toNat ≤ high

/-- A control character that moves the cursor like a blank does. -/
def isBlankControl (c : Char) : Bool :=
  c = '\t' || c = '\n' || c = '\x0C' || c = '\r'

/-- The place after the character that follows an escape character. -/
def afterEscape (c : Char) : TerminalState :=
  if codeIn 0x20 0x2F c then .intermediate
  else if c = '[' then .parameters
  else if c = ']' then .command
  else if c = 'P' then .device
  else if c = 'X' || c = '^' || c = '_' then .string
  else if codeIn 0x30 0x7E c then .plain
  else .escape

/-- The place after a character in front of the string for a device. -/
def afterDevice (state : TerminalState) (c : Char) : TerminalState :=
  if codeIn 0x40 0x7E c then .string
  else if codeIn 0x20 0x2F c then .deviceIntermediate
  else if codeIn 0x30 0x3F c then
    match state with
    | .deviceIntermediate => .string
    | .deviceParameters => if codeIn 0x3C 0x3F c then .string else .deviceParameters
    | _ => .deviceParameters
  else state

/-- The byte that terminates a string is among the bytes of a character. -/
def holdsTerminator (c : Char) : Bool :=
  (String.utf8EncodeChar c).contains 0x9C

/-- The place after a character in a control sequence. The escape character starts a new sequence,
and two characters cancel any sequence. One that has no meaning in a sequence is left out of it. -/
def next (state : TerminalState) (c : Char) : TerminalState :=
  if c = '\x1B' then .escape
  else if c = '\x18' || c = '\x1A' then .plain
  else
    match state with
    | .plain => .plain
    | .escape => afterEscape c
    | .intermediate => if codeIn 0x30 0x7E c then .plain else .intermediate
    | .parameters => if codeIn 0x40 0x7E c then .plain else .parameters
    | .command => if c = '\x07' then .plain else .command
    | .device | .deviceParameters | .deviceIntermediate => afterDevice state c
    | .string => if holdsTerminator c then .plain else .string

/-- A character shows, from a place in the text. Controls that act like blanks show in the middle of
a sequence too, unless it is a string. -/
def isShown (state : TerminalState) (c : Char) : Bool :=
  match state with
  | .plain => isBlankControl c || (0x20 ≤ c.toNat && c.toNat ≠ 0x7F)
  | .escape | .intermediate | .parameters => isBlankControl c
  | .command | .device | .deviceParameters | .deviceIntermediate | .string => false

end TerminalState

/-- What shows of the rest of a text from a place on. A character that shows ends the sequence that
it stands in. -/
def shownFrom (state : TerminalState) : List Char → List Char
  | [] => []
  | c :: cs =>
    if state.isShown c then c :: shownFrom .plain cs else shownFrom (state.next c) cs

/-- What a terminal shows of a text. -/
def shown (s : String) : String :=
  String.ofList (shownFrom .plain s.toList)

end Rv64Board.Text
