import Intrinsics.Disk.Sources
import Intrinsics.Failure
import Intrinsics.Stub.Emitter
import Intrinsics.Text.Utf8

namespace Intrinsics

inductive Notice where
  | parsing (source : Path)
  | untyped (source : Path)
  | failed (failure : Failure)
  deriving DecidableEq

def Notice.message : Notice → Text
  | .parsing source => "Parsing '".toList ++ source ++ "'".toList
  | .untyped source => "No class or interface definition found in '".toList ++ source ++ "'".toList
  | .failed failure => failure.message

structure Report where
  written : List Path := []
  skipped : Nat := 0
  failed : Nat := 0
  deriving DecidableEq

def Report.hasFailures (report : Report) : Bool := 0 < report.failed

structure Generation where
  disk : Disk
  notices : List Notice := []
  report : Report := {}

def stubPath (output : Path) (typeName : Text) : Path :=
  ((typeName.splitOn '.').foldl Path.push output).withExtension "as".toList

-- Bytes that are no text do not keep a source from being read.
def renderSource (publicOnly : Bool) (disk : Disk) (source : Path) : Except Failure Stub :=
  match disk.read source with
  | .ok bytes => .ok (Stub.render publicOnly (Utf8.decodeLossy bytes))
  | .error fault => .error (.io source fault)

def writeStub (path : Path) (text : Text) (disk : Disk) : Disk × Option Failure :=
  let parent := path.parent?.getD []
  match disk.makeDirectories parent with
  | (disk, some fault) => (disk, some (.io parent fault))
  | (disk, none) =>
    match disk.write path (Utf8.encode text) with
    | .ok written => (written, none)
    | .error fault => (disk, some (.io path fault))

namespace Generation

def fail (failure : Failure) (run : Generation) : Generation :=
  { run with
    notices := run.notices ++ [.failed failure]
    report := { run.report with failed := run.report.failed + 1 } }

def file (output source : Path) (rendered : Except Failure Stub) (run : Generation) : Generation :=
  match rendered with
  | .error failure => run.fail failure
  | .ok stub =>
    match stub.typeName with
    | none =>
      { run with
        notices := run.notices ++ [.untyped source]
        report := { run.report with skipped := run.report.skipped + 1 } }
    | some typeName =>
      let path := stubPath output typeName.text
      match writeStub path stub.text run.disk with
      | (disk, some failure) => { run with disk := disk }.fail failure
      | (disk, none) =>
        { run with
          disk := disk
          report := { run.report with written := run.report.written ++ [path] } }

end Generation

-- All sources are read before the first stub is written, so no stub of a run changes what
-- another is made from. Of two stubs for one type the later one stays.
def generateSources (settings : Settings) (sources : List Path) (disk : Disk) : Generation :=
  let rendered := sources.map fun source => (source, renderSource settings.publicOnly disk source)
  rendered.foldl (fun run (source, stub) => run.file settings.output source stub)
    { disk := disk, notices := sources.map .parsing }

def generatePaths (settings : Settings) (paths : List Path) (disk : Disk) : Generation :=
  generateSources settings (disk.sources settings.recursive paths) disk

def generate (settings : Settings) (paths : List Path) (disk : Disk) : Except Failure Generation :=
  if paths.isEmpty then .error .noPaths else .ok (generatePaths settings paths disk)

end Intrinsics
