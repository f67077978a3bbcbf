/-
  ChainQuery.Text.Control — text without what a terminal would act on.

  An escape character begins a sequence. A bracket after it begins a control, which
  ends at a letter or a like sign; some letters begin a string, which runs to the next
  escape character, or to the bell if it is a command to the system; any other
  character ends the sequence, after signs that may stand between. A string for a
  device has a head of parameters and signs. The characters that cancel end every
  sequence, and an escape character begins a new one. Nothing of a sequence is shown,
  but a blank inside one that is no string is, and ends it. Outside sequences the
  control characters that are no blanks are left out.

  A terminal reads bytes: a character beyond ASCII goes by unseen inside a sequence,
  but the byte that terminates strings, `0x9c`, ends one also as a part of it.
-/

namespace ChainQuery.Text

/-- What has begun before a character. -/
inductive Sequence where
  | outside
  | escape
  /-- An escape character and signs after it. -/
  | signs
  | control
  /-- A string that the bell ends. -/
  | command
  | string
  /-- A string for a device, none of whose characters has come. -/
  | device
  | deviceParameters
  | deviceSigns
  deriving DecidableEq, Repr

/-- The blanks that are control characters. -/
def isControlBlank (c : Char) : Bool := c = '\t' || c = '\n' || c = '\x0c' || c = '\r'

/-- Whether a byte of `c` terminates strings. -/
def isTerminating (c : Char) : Bool := (String.utf8EncodeChar c).contains 0x9c

/-- What the head of a string for a device goes on as after the printable `c`. -/
def Sequence.deviceNext (s : Sequence) (c : Char) : Sequence :=
  if '@' ≤ c then .string
  else if c < '0' then .deviceSigns
  else if s = .deviceSigns || c = ':' then .string
  else if '<' ≤ c && s = .deviceParameters then .string
  else .deviceParameters

/-- What has begun after `c`, or nothing if `c` is shown. -/
def Sequence.next? (s : Sequence) (c : Char) : Option Sequence :=
  if c = '\x18' || c = '\x1a' then some .outside
  else if c = '\x1b' then some .escape
  else if 0x80 ≤ c.toNat then
    match s with
    | .outside => none
    | .string => some (if isTerminating c then .outside else .string)
    | s => some s
  else
    match s with
    | .command => some (if c = '\x07' then .outside else .command)
    | .string => some .string
    | .outside => if isControlBlank c || (' ' ≤ c && c ≠ '\x7f') then none else some .outside
    | .device | .deviceParameters | .deviceSigns =>
      some (if c < ' ' || c = '\x7f' then s else s.deviceNext c)
    | s =>
      if isControlBlank c then none
      else if c < ' ' || c = '\x7f' then some s
      else
        match s with
        | .control => some (if c < '@' then .control else .outside)
        | .escape =>
          some (if c < '0' then .signs
            else if c = '[' then .control
            else if c = ']' then .command
            else if c = 'P' then .device
            else if c = 'X' || c = '^' || c = '_' then .string
            else .outside)
        | _ => some (if c < '0' then .signs else .outside)

/-- What is shown of the text after the beginning `s` of a sequence. -/
def Sequence.shown (s : Sequence) : List Char → List Char
  | [] => []
  | c :: cs =>
    match s.next? c with
    | some s => s.shown cs
    | none => c :: outside.shown cs

/-- What a terminal would show of a text. -/
def shown (cs : List Char) : List Char := Sequence.outside.shown cs

/-! ## Lines -/

/-- The text up to the first line end, which may be two characters. -/
def firstLine : List Char → List Char
  | [] => []
  | '\n' :: _ => []
  | '\r' :: '\n' :: _ => []
  | c :: cs => c :: firstLine cs

end ChainQuery.Text
