import Intrinsics.Path
import Intrinsics.Text.Blank

namespace Intrinsics
open Text

-- Zero jobs leave the number of workers to the machine.
structure Settings where
  output : Path := "asi".toList
  recursive : Bool := false
  publicOnly : Bool := false
  silent : Bool := false
  verbose : Bool := false
  jobs : Nat := 0
  deriving DecidableEq

inductive Setting where
  | output | recursive | publicOnly | silent | verbose | jobs
  deriving DecidableEq

namespace Setting

def all : List Setting := [.output, .recursive, .publicOnly, .silent, .verbose, .jobs]

def name : Setting → Text
  | .output => "output".toList
  | .recursive => "recursive".toList
  | .publicOnly => "public-only".toList
  | .silent => "silent".toList
  | .verbose => "verbose".toList
  | .jobs => "jobs".toList

def ofName? (name : Text) : Option Setting := all.find? (·.name == name)

def environmentName : Setting → Text
  | .output => "ASIGEN_OUTPUT".toList
  | .recursive => "ASIGEN_RECURSIVE".toList
  | .publicOnly => "ASIGEN_PUBLIC_ONLY".toList
  | .silent => "ASIGEN_SILENT".toList
  | .verbose => "ASIGEN_VERBOSE".toList
  | .jobs => "ASIGEN_JOBS".toList

end Setting

def variableMark : Text := "ASIGEN_".toList

def variableWords : List Text :=
  ["OUTPUT", "RECURSIVE", "PUBLIC_ONLY", "SILENT", "VERBOSE", "JOBS"].map String.toList

def nameOfVariable? (name : Text) : Option Text := do
  let word ← after? variableMark name
  if variableWords.contains word then some (word.map fun c => if c = '_' then '-' else c.toLower)
  else none

inductive SettingFault where
  | notFlag (setting : Setting) (value : Text)
  | notNumber (setting : Setting) (value : Text)
  | unknown (name : Text)
  deriving DecidableEq

def SettingFault.message : SettingFault → Text
  | .notFlag setting value =>
    setting.name ++ " must be true or false, got '".toList ++ value ++ "'".toList
  | .notNumber setting value => setting.name ++ " must be a number, got '".toList ++ value ++ "'".toList
  | .unknown name => "unknown key '".toList ++ name ++ "'".toList

def flag? (value : Text) : Option Bool :=
  let word := (trim value).map Char.toLower
  if (["1", "true", "yes", "on"].map String.toList).contains word then some true
  else if (["0", "false", "no", "off", ""].map String.toList).contains word then some false
  else none

def digits? (digits : Text) : Option Nat :=
  if !digits.isEmpty && digits.all Char.isDigit then
    some (digits.foldl (fun n c => n * 10 + (c.toNat - '0'.toNat)) 0)
  else none

-- The least number that 64 bits cannot hold.
def countLimit : Nat := 18446744073709551616

def count? (value : Text) : Option Nat :=
  match digits? ((after? "+".toList value).getD value) with
  | some n => if n < countLimit then some n else none
  | none => none

namespace Settings

def set (setting : Setting) (value : Text) (settings : Settings) : Except SettingFault Settings :=
  let flag : Except SettingFault Bool :=
    match flag? value with
    | some b => .ok b
    | none => .error (.notFlag setting value)
  match setting with
  | .output => .ok { settings with output := value }
  | .recursive => flag.map fun b => { settings with recursive := b }
  | .publicOnly => flag.map fun b => { settings with publicOnly := b }
  | .silent => flag.map fun b => { settings with silent := b }
  | .verbose => flag.map fun b => { settings with verbose := b }
  | .jobs =>
    match count? (trim value) with
    | some n => .ok { settings with jobs := n }
    | none => .error (.notNumber setting value)

def setNamed (name value : Text) (settings : Settings) : Except SettingFault Settings :=
  match Setting.ofName? name with
  | some setting => settings.set setting value
  | none => .error (.unknown name)

def attempt (name value : Text) (settings : Settings) : Settings × Option SettingFault :=
  match settings.setNamed name value with
  | .ok changed => (changed, none)
  | .error fault => (settings, some fault)

-- A refused value ends the merge, and what was set before it stays.
def merge : List (Text × Text) → Settings → Settings × Option SettingFault
  | [], settings => (settings, none)
  | (given, value) :: rest, settings =>
    match nameOfVariable? given with
    | none => merge rest settings
    | some name =>
      match settings.attempt name value with
      | (changed, none) => merge rest changed
      | (kept, some fault) => (kept, some fault)

end Settings
end Intrinsics
