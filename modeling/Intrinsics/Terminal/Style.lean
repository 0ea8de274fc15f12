import Intrinsics.Text.Basic

namespace Intrinsics.Terminal

def code (n : String) : Text := '\x1b' :: '[' :: n.toList ++ ['m']

def bold (text : Text) : Text := code "1" ++ text ++ code "0"

def dim (text : Text) : Text := code "2" ++ text ++ code "0"

def heading (text : Text) : Text := code "1" ++ code "4" ++ text ++ code "0"

def signal (colour word : String) : Text :=
  code "1" ++ code colour ++ word.toList ++ code "39" ++ code "0"

def refusal : Text := "NO_COLOR".toList

def demand : Text := "CLICOLOR_FORCE".toList

def isSet (name : Text) (environment : List (Text × Text)) : Bool :=
  match environment.lookup name with
  | some (_ :: _) => true
  | _ => false

-- Empty variables say nothing, and who refuses colours wins over who demands them.
def wantsColours (environment : List (Text × Text)) : Bool :=
  isSet demand environment && !isSet refusal environment

end Intrinsics.Terminal
