import Intrinsics.CommandLine.Basic
import Intrinsics.Terminal.Plain
import Intrinsics.Terminal.Style

namespace Intrinsics.CommandLine
open Terminal

def column : Nat := 23

def indent (width : Nat) : Text := List.replicate width ' '

def hang (description : Text) : Text :=
  description.flatMap fun c => if c = '\n' then '\n' :: indent column else [c]

def optionLine (letter : Option Char) (name value : String) (description : Text) : Text :=
  let short := match letter with
    | some letter => bold ['-', letter] ++ ", ".toList
    | none => indent 4
  indent 2 ++ short ++ bold ("--" ++ name).toList ++ value.toList ++
    indent (column - (8 + name.length + value.length)) ++ hang description ++ "\n".toList

def configDescription (config : Option Text) : Text :=
  "Read settings from this file instead of ./asigen.toml [env: ".toList ++ configVariable ++
    "=".toList ++ config.getD [] ++ "]".toList

def optionLines (config : Option Text) : List Text :=
  [optionLine (some 'o') "output" " <DIR>" "Output stubs under the specified directory".toList,
   optionLine (some 'r') "recursive" "" "Recursively search directories for class files".toList,
   optionLine none "public" "" "Only include public definitions".toList,
   optionLine (some 's') "silent" "" "Suppress all console output except errors".toList,
   optionLine (some 'v') "verbose" "" "Show verbose output".toList,
   optionLine (some 'j') "jobs" " <N>" "Number of worker threads (default: one per CPU)".toList,
   optionLine none "config" " <FILE>" (configDescription config),
   optionLine (some 'h') "help" "" "Print help".toList,
   optionLine (some 'V') "version" "" "Print version".toList]

def styledHelp (config : Option Text) : Text :=
  "ActionScript 2.0 intrinsic class generator\n\n".toList ++
  heading "Usage:".toList ++ " ".toList ++ bold "asigen".toList ++ " [OPTIONS] [PATHS]...\n\n".toList ++
  heading "Arguments:".toList ++ "\n".toList ++
  "  [PATHS]...  Source files (*.as) or directories to search\n\n".toList ++
  heading "Options:".toList ++ "\n".toList ++
  (optionLines config).flatten

-- Without colours no control sequence is shown, whoever wrote it.
def help (colours : Bool) (config : Option Text) : Text :=
  if colours then styledHelp config else plain (styledHelp config)

end Intrinsics.CommandLine
