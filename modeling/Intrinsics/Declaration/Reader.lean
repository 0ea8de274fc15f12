import Intrinsics.Declaration.Basic
import Intrinsics.Text.Blank

namespace Intrinsics
open Text

-- Declarations at the start of a text. Each form reads its words, blanks and names from
-- left to right and never has a choice to take back: names are maximal runs, and what may
-- follow a run begins with a character outside of it.

def spaced? (word text : Text) : Option Text := do
  let rest ← after? word text
  passBlanks? rest

def skipSpaced (word text : Text) : Text := (spaced? word text).getD text

def isImportedPart (c : Char) : Bool := isNamePart c || c == '*'

def importing? (text : Text) : Option (QualifiedName × Text) := do
  let text ← after? "import".toList text
  let text := skipBlanks text
  match splitLast '.' (text.takeWhile isQualifiedPart) with
  | some (c :: package, _) =>
    let (name, text) ← run? isImportedPart (text.drop (package.length + 2))
    let text ← after? ";".toList (skipBlanks text)
    return (⟨c :: package, name⟩, text)
  | _ => none

-- The mark of a dynamic class is set off by one character only, a blank or a plus sign.
def dynamicMark? (text : Text) : Option (Unit × Text) := do
  match ← after? "dynamic".toList text with
  | [] => none
  | c :: rest => if isBlank c || c == '+' then some ((), rest) else none

def baseName? (name? : Text → Option (QualifiedName × Text)) (text : Text) :
    Option (QualifiedName × Text) := do
  let text ← passBlanks? text
  let text ← spaced? "extends".toList text
  name? text

-- A comma needs a name in front of it that no other comma follows.
def interfaceList (commaAllowed : Bool) : Text → Text × Text
  | [] => ([], [])
  | c :: text =>
    if isQualifiedPart c then
      let (list, rest) := interfaceList true text
      (c :: list, rest)
    else if isBlank c then
      let (list, rest) := interfaceList commaAllowed text
      (c :: list, rest)
    else if c == ',' && commaAllowed then
      let (list, rest) := interfaceList false text
      (c :: list, rest)
    else ([], c :: text)

def interfaces? (text : Text) : Option (Text × Text) := do
  let text ← passBlanks? text
  let text ← spaced? "implements".toList text
  match interfaceList false text with
  | ([], _) => none
  | (c :: list, rest) => some (trim (c :: list), rest)

-- The opening brace belongs to the header.
def classHeader? (text : Text) : Option (ClassHeader × Text) := do
  let (dynamic, text) := optional dynamicMark? (skipSpaced "intrinsic".toList text)
  let text ← spaced? "class".toList text
  let (name, text) ← QualifiedName.whole? text
  let (base, text) := optional (baseName? QualifiedName.whole?) text
  let (interfaces, text) := optional interfaces? text
  let text ← after? "\x7b".toList (skipBlanks text)
  return (⟨dynamic.isSome, name, base, interfaces⟩, text)

-- The header of an interface ends with its last name, so its body is a block of its own.
def interfaceHeader? (text : Text) : Option (InterfaceHeader × Text) := do
  let text ← spaced? "interface".toList (skipSpaced "intrinsic".toList text)
  let (name, text) ← QualifiedName.leading? text
  let (base, text) := optional (baseName? QualifiedName.leading?) text
  return (⟨name, base⟩, text)

def attributeWords : List Text := ["public", "private", "static"].map String.toList

def attribute? (text : Text) : Option (Text × Text) :=
  attributeWords.findSome? fun word => (spaced? word text).map (word, ·)

def attributes (text : Text) : List Text × Text :=
  let (first, text) := optional attribute? text
  let (second, text) := optional attribute? text
  (first.toList ++ second.toList, text)

def typeMark? (name? : Text → Option (QualifiedName × Text)) (text : Text) :
    Option (QualifiedName × Text) := do
  let text ← after? ":".toList (skipBlanks text)
  name? (skipBlanks text)

def signature? (access : Access) (text : Text) : Option (Signature × Text) := do
  let (name, text) ← run? isNamePart text
  let text ← after? "(".toList (skipBlanks text)
  let params := text.takeWhile (· != ')')
  let text ← after? ")".toList (text.dropWhile (· != ')'))
  let (result, text) := optional (typeMark? QualifiedName.leading?) text
  return (⟨access, name, params, result⟩, skipBlanks text)

def method? (text : Text) : Option (Signature × Text) := do
  let (words, text) := attributes (skipBlanks text)
  let text ← spaced? "function".toList text
  signature? (Access.ofAttributes words) text

def accessor? (text : Text) : Option (Declaration × Text) := do
  let (words, text) := attributes text
  let text ← spaced? "function".toList text
  match spaced? "get".toList text with
  | some text => (signature? (Access.ofAttributes words) text).map fun (s, rest) => (.getter s, rest)
  | none => do
    let text ← spaced? "set".toList text
    (signature? (Access.ofAttributes words) text).map fun (s, rest) => (.setter s, rest)

-- The value holds no newline, but the blanks behind the equals sign may.
def propertyEnd? (text : Text) : Option Text :=
  match after? ";".toList text with
  | some rest => some rest
  | none => do
    let text ← after? "=".toList (skipBlanks text)
    after? ";".toList ((skipBlanks text).dropWhile fun c => c != ';' && c != '\n')

def property? (text : Text) : Option (Property × Text) := do
  let (words, text) := attributes text
  let text ← spaced? "var".toList text
  let (name, text) ← run? isNamePart text
  let (type, text) := optional (typeMark? QualifiedName.whole?) text
  let rest ← propertyEnd? text
  return (⟨Access.ofAttributes words, name, type⟩, rest)

inductive Form where
  | importing | classHeader | interfaceHeader | method | accessor | property
  deriving DecidableEq

namespace Form

def order : List Form := [.importing, .classHeader, .interfaceHeader, .method, .accessor, .property]

def name : Form → String
  | .importing => "import"
  | .classHeader => "class"
  | .interfaceHeader => "interface"
  | .method => "method"
  | .accessor => "accessor"
  | .property => "property"

def ofName? (name : String) : Option Form := order.find? (·.name == name)

def read? : Form → Text → Option (Declaration × Text)
  | .importing, text => (importing? text).map fun (target, rest) => (.importing target, rest)
  | .classHeader, text => (classHeader? text).map fun (header, rest) => (.classHeader header, rest)
  | .interfaceHeader, text =>
    (interfaceHeader? text).map fun (header, rest) => (.interfaceHeader header, rest)
  | .method, text => (method? text).map fun (signature, rest) => (.method signature, rest)
  | .accessor, text => accessor? text
  | .property, text => (property? text).map fun (var, rest) => (.property var, rest)

end Form

def Declaration.readAmong? (forms : List Form) (text : Text) : Option (Declaration × Text) :=
  forms.findSome? (·.read? text)

def Declaration.read? : Text → Option (Declaration × Text) := Declaration.readAmong? Form.order

end Intrinsics
