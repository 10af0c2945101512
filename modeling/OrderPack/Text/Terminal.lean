import OrderPack.Text.Utf8

/-! Characters that steer a terminal instead of being shown by it. Besides single
control characters these are sequences: an escape character, and what follows it
up to the end of the sequence, be it visible or not. A text that quotes foreign
words drops them, so that no word can write over the text or colour it.

Sequences are of several kinds, told by the character after the escape. A new
escape ends any of them and begins another, and a cancelled one ends at once. -/
namespace OrderPack.Text

/-- Where the reading of a text stands with respect to sequences. -/
inductive Steering where
  /-- Outside of all sequences. -/
  | outside
  /-- After an escape character. -/
  | escape
  /-- In a sequence of few characters, past the first of them. -/
  | short
  /-- In a control sequence, which ends with a letter. -/
  | control
  /-- In a command to the system, which ends with a bell. -/
  | command
  /-- In the head of a string for the device, before its parameters. -/
  | head
  /-- In the parameters of such a string. -/
  | parameters
  /-- Past the parameters of such a string. -/
  | marks
  /-- In a string that is never shown. -/
  | string
  deriving DecidableEq

namespace Steering

/-- The control characters that are white space, and as such are kept. -/
def isSpacing (c : Char) : Bool := c == '\t' || c == '\n' || c == '\x0c' || c == '\r'

/-- A string ends with the control character of that meaning, which is told by
its byte, and so also ends with a character that has this byte among its own. -/
def endsString (c : Char) : Bool := (String.utf8EncodeChar c).contains 0x9c

/-- What a character after an escape begins, or ends. -/
def afterEscape (c : Char) : Steering :=
  if ' ' ≤ c ∧ c ≤ '/' then .short
  else if c = '[' then .control
  else if c = ']' then .command
  else if c = 'P' then .head
  else if c = 'X' ∨ c = '^' ∨ c = '_' then .string
  else if '0' ≤ c ∧ c ≤ '~' then .outside
  else .escape

/-- Where the reading stands after a character that is dropped. -/
def after (steering : Steering) (c : Char) : Steering :=
  if c = '\x18' ∨ c = '\x1a' then .outside
  else if c = '\x1b' then .escape
  else
    match steering with
    | .outside => .outside
    | .escape => afterEscape c
    | .short => if '0' ≤ c ∧ c ≤ '~' then .outside else .short
    | .control => if '@' ≤ c ∧ c ≤ '~' then .outside else .control
    | .command => if c = '\x07' then .outside else .command
    | .head =>
      if ' ' ≤ c ∧ c ≤ '/' then .marks
      else if '0' ≤ c ∧ c ≤ '?' then .parameters
      else if '@' ≤ c ∧ c ≤ '~' then .string
      else .head
    | .parameters =>
      if ' ' ≤ c ∧ c ≤ '/' then .marks
      else if '<' ≤ c ∧ c ≤ '~' then .string
      else .parameters
    | .marks => if '0' ≤ c ∧ c ≤ '~' then .string else .marks
    | .string => if endsString c then .outside else .string

/-- Whether a character is kept. White space inside a short sequence or a control
sequence is kept, and breaks the sequence off. -/
def keeps (steering : Steering) (c : Char) : Bool :=
  match steering with
  | .outside => isSpacing c || (' ' ≤ c && c != '\x7f')
  | .escape | .short | .control => isSpacing c
  | .command | .head | .parameters | .marks | .string => false

end Steering

/-- The characters of a text that steer nothing, from where the reading stands. -/
def dropSteering (steering : Steering) : List Char → List Char
  | [] => []
  | c :: rest =>
    if steering.keeps c then c :: dropSteering .outside rest
    else dropSteering (steering.after c) rest

/-- A text without the characters that steer a terminal. -/
def unsteered (text : String) : String := String.ofList (dropSteering .outside text.toList)

end OrderPack.Text
