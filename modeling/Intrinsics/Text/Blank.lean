import Intrinsics.Text.Basic

namespace Intrinsics.Text

-- The white space of running text: the controls from tab to carriage return, the space,
-- next line, and the spaces and separators of the general punctuation blocks.
-- Zero-width characters and the byte order mark are not blank.
def isBlank (c : Char) : Bool :=
  let n := c.toNat
  (0x9 ≤ n && n ≤ 0xD) || n == 0x20 || n == 0x85 || n == 0xA0 || n == 0x1680 ||
    (0x2000 ≤ n && n ≤ 0x200A) || n == 0x2028 || n == 0x2029 || n == 0x202F || n == 0x205F ||
    n == 0x3000

def skipBlanks (text : Text) : Text := text.dropWhile isBlank

def passBlanks? : Text → Option Text
  | [] => none
  | c :: text => if isBlank c then some (skipBlanks text) else none

def trim (text : Text) : Text :=
  ((skipBlanks text).reverse.dropWhile isBlank).reverse

theorem skipBlanks_suffix (text : Text) : skipBlanks text <:+ text :=
  List.dropWhile_suffix _

theorem passBlanks?_behind {text rest : Text} (read : passBlanks? text = some rest) : Behind rest text := by
  cases text with
  | nil => cases read
  | cons c text =>
    simp only [passBlanks?] at read
    split at read
    · cases read
      exact .of_suffix (skipBlanks_suffix text) (.cons c text)
    · cases read

end Intrinsics.Text
