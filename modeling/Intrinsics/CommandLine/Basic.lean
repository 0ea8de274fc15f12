import Intrinsics.Settings.Basic

namespace Intrinsics
open Text

structure Arguments where
  paths : List Path := []
  output : Option Path := none
  recursive : Bool := false
  publicOnly : Bool := false
  silent : Bool := false
  verbose : Bool := false
  jobs : Option Nat := none
  config : Option Path := none
  deriving DecidableEq

-- Given arguments win over the settings, and silence over talk, whoever asked for it.
def Arguments.apply (arguments : Arguments) (settings : Settings) : Settings :=
  let silent := settings.silent || arguments.silent
  { output := arguments.output.getD settings.output
    recursive := settings.recursive || arguments.recursive
    publicOnly := settings.publicOnly || arguments.publicOnly
    silent := silent
    verbose := (settings.verbose || arguments.verbose) && !silent
    jobs := arguments.jobs.getD settings.jobs }

namespace CommandLine

inductive Switch where
  | recursive | publicOnly | silent | verbose | help | version
  deriving DecidableEq

inductive Field where
  | output | jobs | config
  deriving DecidableEq

inductive Choice where
  | switch (switch : Switch)
  | field (field : Field)
  deriving DecidableEq

def ofLong? (name : Text) : Option Choice :=
  [("output".toList, Choice.field .output), ("recursive".toList, .switch .recursive),
   ("public".toList, .switch .publicOnly), ("silent".toList, .switch .silent),
   ("verbose".toList, .switch .verbose), ("jobs".toList, .field .jobs),
   ("config".toList, .field .config), ("help".toList, .switch .help),
   ("version".toList, .switch .version)].lookup name

def ofShort? (letter : Char) : Option Choice :=
  [('o', Choice.field .output), ('r', .switch .recursive), ('s', .switch .silent),
   ('v', .switch .verbose), ('j', .field .jobs), ('h', .switch .help),
   ('V', .switch .version)].lookup letter

inductive Stop where
  | help
  | version
  | unknown (word : Text)
  | unexpectedValue (switch : Switch)
  | missingValue (field : Field)
  | emptyPath
  | badNumber (value : Text)
  | repeated (choice : Choice)
  | conflict
  deriving DecidableEq

-- Words whose meaning is known but whose values are not checked yet. They are checked when
-- the next option is recognised, so an unknown option is reported before a bad value.
inductive Pending where
  | nothing
  | paths (values : List Text)
  | field (field : Field) (value : Option Text)
  deriving DecidableEq

structure Reading where
  arguments : Arguments := {}
  given : List Choice := []
  pending : Pending := .nothing

namespace Reading

def mark (choice : Choice) (reading : Reading) : Except Stop Reading :=
  if reading.given.contains choice then .error (.repeated choice)
  else .ok { reading with given := choice :: reading.given }

def path? (value : Text) : Except Stop Path :=
  if value.isEmpty then .error .emptyPath else .ok value

def assign (field : Field) (value : Text) (reading : Reading) : Except Stop Reading := do
  let reading ← reading.mark (.field field)
  let arguments := reading.arguments
  match field with
  | .output => return { reading with arguments := { arguments with output := some (← path? value) } }
  | .config => return { reading with arguments := { arguments with config := some (← path? value) } }
  | .jobs =>
    match count? value with
    | some n => return { reading with arguments := { arguments with jobs := some n } }
    | none => throw (.badNumber value)

def settle (reading : Reading) : Except Stop Reading := do
  let settled := { reading with pending := .nothing }
  match reading.pending with
  | .nothing => return settled
  | .paths values =>
    let paths ← values.mapM path?
    let arguments := reading.arguments
    return { settled with arguments := { arguments with paths := arguments.paths ++ paths } }
  | .field field none => throw (.missingValue field)
  | .field field (some value) => settled.assign field value

def turnOn (switch : Switch) (reading : Reading) : Except Stop Reading := do
  let reading ← reading.settle
  match switch with
  | .help => throw .help
  | .version => throw .version
  | .recursive =>
    let reading ← reading.mark (.switch switch)
    return { reading with arguments := { reading.arguments with recursive := true } }
  | .publicOnly =>
    let reading ← reading.mark (.switch switch)
    return { reading with arguments := { reading.arguments with publicOnly := true } }
  | .silent =>
    let reading ← reading.mark (.switch switch)
    return { reading with arguments := { reading.arguments with silent := true } }
  | .verbose =>
    let reading ← reading.mark (.switch switch)
    return { reading with arguments := { reading.arguments with verbose := true } }

def fill (field : Field) (attached : Option Text) (reading : Reading) : Except Stop Reading := do
  let reading ← reading.settle
  match attached with
  | some value => reading.assign field value
  | none => return { reading with pending := .field field none }

def addPath (word : Text) (reading : Reading) : Except Stop Reading := do
  match reading.pending with
  | .paths values => return { reading with pending := .paths (values ++ [word]) }
  | _ =>
    let reading ← reading.settle
    return { reading with pending := .paths [word] }

def addWord (word : Text) (reading : Reading) : Except Stop Reading :=
  match reading.pending with
  | .field field none => .ok { reading with pending := .field field (some word) }
  | _ => reading.addPath word

def addLong (body : Text) (reading : Reading) : Except Stop Reading :=
  let name := body.takeWhile (· != '=')
  let attached := after? "=".toList (body.dropWhile (· != '='))
  match ofLong? name with
  | none => .error (.unknown name)
  | some (.field field) => reading.fill field attached
  | some (.switch switch) =>
    match attached with
    | some _ => .error (.unexpectedValue switch)
    | none => reading.turnOn switch

def addShort : Text → Reading → Except Stop Reading
  | [], reading => .ok reading
  | letter :: rest, reading =>
    match ofShort? letter with
    | none => .error (.unknown [letter])
    | some (.switch switch) => do addShort rest (← reading.turnOn switch)
    | some (.field field) =>
      reading.fill field (if rest.isEmpty then none else some ((after? "=".toList rest).getD rest))

def addAll : List Text → Reading → Except Stop Reading
  | [], reading => reading.settle
  | word :: words, reading =>
    match word with
    | ['-', '-'] => do (← words.foldlM (fun reading word => reading.addPath word) reading).settle
    | '-' :: '-' :: body => do addAll words (← reading.addLong body)
    | '-' :: letter :: letters => do addAll words (← reading.addShort (letter :: letters))
    | _ => do addAll words (← reading.addWord word)

end Reading

def configVariable : Text := "ASIGEN_CONFIG".toList

def parse (config : Option Text) (words : List Text) : Except Stop Arguments := do
  let reading ← Reading.addAll words {}
  let arguments := reading.arguments
  let arguments ← match arguments.config, config with
    | none, some value => do pure { arguments with config := some (← Reading.path? value) }
    | _, _ => pure arguments
  if arguments.silent && arguments.verbose then throw .conflict
  return arguments

def version : Text := "0.1.0".toList

end CommandLine
end Intrinsics
