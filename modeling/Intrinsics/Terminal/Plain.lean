import Intrinsics.Text.Utf8

namespace Intrinsics.Terminal

-- Device strings have a head of parameters and marks; their data is read as the other strings are.
inductive Mode where
  | text
  | escape
  | marked
  | control
  | device
  | deviceParameters
  | deviceMarks
  | string
  | command
  deriving DecidableEq

def within (low high c : Char) : Bool := low.toNat ≤ c.toNat && c.toNat ≤ high.toNat

-- The byte that ends a string also does so inside a longer character.
def endsString (c : Char) : Bool := (Utf8.encode [c]).contains 0x9C

def Mode.next (mode : Mode) (c : Char) : Mode :=
  if c = '\x1b' then .escape
  else if c = '\x18' || c = '\x1a' then .text
  else
    match mode with
    | .text => .text
    | .escape =>
      if within ' ' '/' c then .marked
      else if c = '[' then .control
      else if c = ']' then .command
      else if c = 'P' then .device
      else if c = 'X' || c = '^' || c = '_' then .string
      else if within '0' '~' c then .text
      else .escape
    | .marked => if within '0' '~' c then .text else .marked
    | .control => if within '@' '~' c then .text else .control
    | .device =>
      if within ' ' '/' c then .deviceMarks
      else if within '0' '?' c then .deviceParameters
      else if within '@' '~' c then .string
      else .device
    | .deviceParameters =>
      if within ' ' '/' c then .deviceMarks
      else if within '<' '~' c then .string
      else .deviceParameters
    | .deviceMarks => if within '0' '~' c then .string else .deviceMarks
    | .string => if endsString c then .text else .string
    | .command => if c = '\x07' then .text else .command

def isMove (c : Char) : Bool := c = '\t' || c = '\n' || c = '\x0c' || c = '\r'

def isAscii (c : Char) : Bool := c.toNat < 0x80

def isSeen (c : Char) : Bool := within ' ' '~' c || isMove c || !isAscii c

def Mode.carries : Mode → Bool
  | .escape | .marked | .control => true
  | _ => false

-- A move inside a sequence holds the sequence up: the text behind it is seen, until a control
-- that is not seen resumes the sequence or a character beyond ASCII gives it up.
def seenFrom : (held : Bool) → Mode → Text → Text
  | _, _, [] => []
  | held, mode, c :: rest =>
    if mode = .text || held then
      if isSeen c then c :: seenFrom held (if isAscii c then mode else .text) rest
      else seenFrom false (mode.next c) rest
    else if isMove c && mode.carries then c :: seenFrom true mode rest
    else seenFrom false (mode.next c) rest

def plain (text : Text) : Text := seenFrom false .text text

end Intrinsics.Terminal
