import Intrinsics.Console
import Intrinsics.Settings.Load

namespace Intrinsics

structure Invocation where
  words : List Text
  environment : List (Text × Text) := []

inductive Session where
  | helped (colours : Bool) (config : Option Text)
  | versioned
  | misused (stop : CommandLine.Stop)
  | unsettled (failure : Failure)
  | finished (settings : Settings) (run : Generation)

namespace Session

-- Without paths there is nothing to do but to help, before any settings are looked for.
def run (invocation : Invocation) (disk : Disk) : Session :=
  let config := invocation.environment.lookup CommandLine.configVariable
  let helped := helped (Terminal.wantsColours invocation.environment) config
  match CommandLine.parse config invocation.words with
  | .error .help => helped
  | .error .version => .versioned
  | .error stop => .misused stop
  | .ok arguments =>
    if arguments.paths.isEmpty then helped
    else
      match Settings.load arguments.config invocation.environment disk with
      | .error failure => .unsettled failure
      | .ok loaded =>
        let settings := arguments.apply loaded
        .finished settings (generatePaths settings arguments.paths disk)

def disk (before : Disk) : Session → Disk
  | .finished _ run => run.disk
  | _ => before

end Session

structure Transcript where
  code : Nat
  output : Text := []
  errors : Text := []
  deriving DecidableEq

-- The code is 2 for misuse and 1 where something failed.
def Session.transcript (elapsed : Text) : Session → Transcript
  | .helped colours config => { code := 0, output := CommandLine.help colours config }
  | .versioned => { code := 0, output := "asigen ".toList ++ CommandLine.version ++ "\n".toList }
  | .misused stop => { code := 2, errors := Console.misuse stop }
  | .unsettled failure => { code := 1, errors := Console.loadFailure failure }
  | .finished settings run =>
    { code := if run.report.hasFailures then 1 else 0
      output := (if settings.verbose then Console.banner else []) ++
        run.notices.flatMap (Console.output settings) ++
        (if settings.verbose then Console.summary run.report elapsed else [])
      errors := run.notices.flatMap Console.errors }

end Intrinsics
