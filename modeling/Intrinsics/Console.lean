import Intrinsics.CommandLine.Help
import Intrinsics.Generation

namespace Intrinsics
open Terminal

namespace Console

def banner : Text :=
  signal "96" "asigen" ++ " ".toList ++ dim ('v' :: CommandLine.version) ++
    " - ActionScript 2.0 intrinsic class generator\n\n".toList

def progress (message : Text) : Text := dim message ++ "\n".toList

def warning (message : Text) : Text := signal "33" "Warning" ++ ": ".toList ++ message ++ "\n".toList

def error (message : Text) : Text := signal "31" "Error" ++ ": ".toList ++ message ++ "\n".toList

def decimal (n : Nat) : Text := Nat.toDigits 10 n

def seconds (milliseconds : Nat) : Text :=
  let places := decimal (milliseconds % 1000)
  decimal (milliseconds / 1000) ++ '.' :: (List.replicate (3 - places.length) '0' ++ places)

def summary (report : Report) (elapsed : Text) : Text :=
  signal "32" "Processed" ++ " ".toList ++ decimal report.written.length ++ " stubs, ".toList ++
    decimal report.skipped ++ " skipped, ".toList ++ decimal report.failed ++ " failed in ".toList ++
    elapsed ++ " seconds\n".toList

def output (settings : Settings) : Notice → Text
  | .parsing source => if settings.verbose then progress (Notice.parsing source).message else []
  | .untyped source => if settings.silent then [] else warning (Notice.untyped source).message
  | .failed _ => []

def errors : Notice → Text
  | .failed failure => error failure.message
  | _ => []

-- Where the settings could not be loaded, the reason of the file system is said twice:
-- once with the failure and once as its cause.
def loadFailure (failure : Failure) : Text :=
  error ("failed to load configuration: ".toList ++ failure.message ++
    match failure with
    | .io _ fault => ": ".toList ++ fault.message
    | _ => [])

def misuse : CommandLine.Stop → Text
  | .help | .version => []
  | .unknown word => error ("unexpected argument '".toList ++ word ++ "'".toList)
  | .unexpectedValue _ => error "unexpected value for an option that takes none".toList
  | .missingValue _ => error "an option lacks its value".toList
  | .emptyPath => error "a path is empty".toList
  | .badNumber value => error ("invalid number '".toList ++ value ++ "'".toList)
  | .repeated _ => error "an option is used more than once".toList
  | .conflict => error "--silent and --verbose exclude each other".toList

end Console
end Intrinsics
