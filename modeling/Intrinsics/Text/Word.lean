import Intrinsics.Text.Basic
import Intrinsics.Text.WordRanges

namespace Intrinsics.Text

def isNameStart (c : Char) : Bool := c.isAlpha || c == '_' || c == '$'

def isNamePart (c : Char) : Bool := c.isAlphanum || c == '_' || c == '$'

def isQualifiedPart (c : Char) : Bool := isNamePart c || c == '.'

-- What may not follow a reserved word. Unlike names this class has no dollar sign
-- and reaches beyond ASCII.
def isWordPart (c : Char) : Bool :=
  c.isAlphanum || c == '_' || wordRanges.any fun (first, last) => first ≤ c.toNat && c.toNat ≤ last

end Intrinsics.Text
