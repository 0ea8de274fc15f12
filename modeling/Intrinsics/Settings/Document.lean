import Intrinsics.Settings.Basic

namespace Intrinsics
open Text

-- Settings documents: one `key = value` on a line, in the TOML notation. Only the keys of
-- settings are known and each has one type of value, so tables, dotted keys, arrays, dates
-- and floating point numbers have no place in a document.
namespace Document

inductive Value where
  | text (value : Text)
  | flag (value : Bool)
  | number (value : Int)
  deriving DecidableEq

def isSpace (c : Char) : Bool := c == ' ' || c == '\t'

def skipSpaces (text : Text) : Text := text.dropWhile isSpace

def newline? : Text → Option Text
  | '\n' :: rest => some rest
  | '\r' :: '\n' :: rest => some rest
  | _ => none

def isPlain (c : Char) : Bool := c == '\t' || (0x20 ≤ c.toNat && c.toNat != 0x7F)

def lineEnd? (text : Text) : Option Text :=
  let behind := match skipSpaces text with
    | '#' :: rest => rest.dropWhile isPlain
    | rest => rest
  match behind with
  | [] => some []
  | rest => newline? rest

def hexDigit? (c : Char) : Option Nat :=
  if c.isDigit then some (c.toNat - '0'.toNat)
  else if 'a' ≤ c && c ≤ 'f' then some (c.toNat - 'a'.toNat + 10)
  else if 'A' ≤ c && c ≤ 'F' then some (c.toNat - 'A'.toNat + 10)
  else none

def digitsIn? (base : Nat) (text : Text) : Option Nat := do
  let parts := text.splitOn '_'
  guard (parts.all (!·.isEmpty))
  let digits ← parts.flatten.mapM hexDigit?
  guard (digits.all (· < base))
  return digits.foldl (fun n d => n * base + d) 0

-- Integers have 64 bits with the sign.
def integerLimit : Int := 9223372036854775808

def integer? (text : Text) : Option Int := do
  let n : Int ← match text with
    | '0' :: 'x' :: digits => (digitsIn? 16 digits).map Int.ofNat
    | '0' :: 'o' :: digits => (digitsIn? 8 digits).map Int.ofNat
    | '0' :: 'b' :: digits => (digitsIn? 2 digits).map Int.ofNat
    | '+' :: digits => (decimal? digits).map Int.ofNat
    | '-' :: digits => (decimal? digits).map fun n => -Int.ofNat n
    | digits => (decimal? digits).map Int.ofNat
  guard (-integerLimit ≤ n ∧ n < integerLimit)
  return n
where
  decimal? (digits : Text) : Option Nat := do
    guard (digits.head? ≠ some '0' ∨ digits = ['0'])
    digitsIn? 10 digits

def codePoint? (width : Nat) (text : Text) : Option (Char × Text) := do
  let digits ← (text.take width).mapM hexDigit?
  guard (digits.length = width)
  let n := digits.foldl (fun n d => n * 16 + d) 0
  guard n.isValidChar
  return (Char.ofNat n, text.drop width)

def escape? : Text → Option (Char × Text)
  | 'b' :: rest => some ('\x08', rest)
  | 't' :: rest => some ('\t', rest)
  | 'n' :: rest => some ('\n', rest)
  | 'f' :: rest => some ('\x0C', rest)
  | 'r' :: rest => some ('\r', rest)
  | '"' :: rest => some ('"', rest)
  | '\\' :: rest => some ('\\', rest)
  | 'u' :: rest => codePoint? 4 rest
  | 'U' :: rest => codePoint? 8 rest
  | _ => none

def lineBreak? (text : Text) : Option Text := do
  let rest ← newline? (skipSpaces text)
  return skip rest
where
  skip : Text → Text
    | '\r' :: '\n' :: rest => skip rest
    | c :: rest => if isSpace c || c == '\n' then skip rest else c :: rest
    | [] => []

-- Quotes inside a string over several lines: up to two stand for themselves. Three close
-- it, and up to two more before them still belong to it.
inductive Quotes where
  | inside (count : Nat)
  | closing (count : Nat)

def quotes? (count : Nat) : Option Quotes :=
  if count < 3 then some (.inside count) else if count ≤ 5 then some (.closing (count - 3)) else none

-- Every turn takes a character, so the length of the text bounds the turns.
def bodyWithin (quote : Char) (escapes : Bool) : Nat → Text → Option (Text × Text)
  | 0, _ => none
  | _, [] => none
  | turns + 1, c :: rest =>
    if c = quote then some ([], rest)
    else if c = '\\' && escapes then do
      let (d, rest) ← escape? rest
      let (body, rest) ← bodyWithin quote escapes turns rest
      return (d :: body, rest)
    else do
      guard (isPlain c)
      let (body, rest) ← bodyWithin quote escapes turns rest
      return (c :: body, rest)

def longBodyWithin (quote : Char) (escapes : Bool) : Nat → Text → Option (Text × Text)
  | 0, _ => none
  | _, [] => none
  | turns + 1, c :: rest =>
    if c = quote then do
      let run := (c :: rest).takeWhile (· == quote)
      let rest := (c :: rest).dropWhile (· == quote)
      match ← quotes? run.length with
      | .closing count => return (List.replicate count quote, rest)
      | .inside count =>
        let (body, rest) ← longBodyWithin quote escapes turns rest
        return (List.replicate count quote ++ body, rest)
    else if c = '\\' && escapes then
      match lineBreak? rest with
      | some rest => longBodyWithin quote escapes turns rest
      | none => do
        let (d, rest) ← escape? rest
        let (body, rest) ← longBodyWithin quote escapes turns rest
        return (d :: body, rest)
    else
      match newline? (c :: rest) with
      | some rest => do
        let (body, rest) ← longBodyWithin quote escapes turns rest
        return ('\n' :: body, rest)
      | none => do
        guard (isPlain c)
        let (body, rest) ← longBodyWithin quote escapes turns rest
        return (c :: body, rest)

def string? (quote : Char) (escapes : Bool) (text : Text) : Option (Text × Text) :=
  bodyWithin quote escapes text.length text

def longString? (quote : Char) (escapes : Bool) (text : Text) : Option (Text × Text) :=
  longBodyWithin quote escapes text.length ((newline? text).getD text)

def isWordPart (c : Char) : Bool := c.isAlphanum || c == '_' || c == '-'

def key? (text : Text) : Option (Text × Text) :=
  match text with
  | '"' :: rest => string? '"' true rest
  | '\'' :: rest => string? '\'' false rest
  | _ => run? isWordPart text

def value? (text : Text) : Option (Value × Text) :=
  match text with
  | '"' :: '"' :: '"' :: rest => (longString? '"' true rest).map fun (t, rest) => (.text t, rest)
  | '\'' :: '\'' :: '\'' :: rest => (longString? '\'' false rest).map fun (t, rest) => (.text t, rest)
  | '"' :: rest => (string? '"' true rest).map fun (t, rest) => (.text t, rest)
  | '\'' :: rest => (string? '\'' false rest).map fun (t, rest) => (.text t, rest)
  | _ => do
    let (word, rest) ← run? (fun c => isWordPart c || c == '+') text
    if word = "true".toList then return (.flag true, rest)
    if word = "false".toList then return (.flag false, rest)
    let n ← integer? word
    return (.number n, rest)

def entry? (text : Text) : Option ((Text × Value) × Text) := do
  let (key, rest) ← key? text
  let rest ← after? "=".toList (skipSpaces rest)
  let (value, rest) ← value? (skipSpaces rest)
  return ((key, value), rest)

def entriesWithin : Nat → Text → Option (List (Text × Value))
  | _, [] => some []
  | 0, _ => none
  | lines + 1, text =>
    match lineEnd? text with
    | some rest => entriesWithin lines rest
    | none => do
      let (entry, rest) ← entry? (skipSpaces text)
      let rest ← lineEnd? rest
      let later ← entriesWithin lines rest
      return entry :: later

def entries? (text : Text) : Option (List (Text × Value)) :=
  let text := (after? ['\uFEFF'] text).getD text
  entriesWithin text.length text

def settingOf? (key : Text) : Option Setting :=
  Setting.all.find? fun setting => (setting.name.map fun c => if c = '-' then '_' else c) == key

def assign (settings : Settings) (entry : Text × Value) : Option Settings := do
  let setting ← settingOf? entry.1
  match setting, entry.2 with
  | .output, .text path => some { settings with output := path }
  | .recursive, .flag b => some { settings with recursive := b }
  | .publicOnly, .flag b => some { settings with publicOnly := b }
  | .silent, .flag b => some { settings with silent := b }
  | .verbose, .flag b => some { settings with verbose := b }
  | .jobs, .number n => if 0 ≤ n then some { settings with jobs := n.toNat } else none
  | _, _ => none

end Document

def Settings.ofDocument? (text : Text) : Option Settings := do
  let entries ← Document.entries? text
  guard (entries.map Prod.fst).Nodup
  entries.foldlM Document.assign {}

end Intrinsics
