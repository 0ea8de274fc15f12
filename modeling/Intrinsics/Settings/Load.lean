import Intrinsics.Failure
import Intrinsics.Settings.Document
import Intrinsics.Text.Utf8

namespace Intrinsics

def defaultDocument : Path := "asigen.toml".toList

namespace Settings

def read (path : Path) (disk : Disk) : Except Failure Settings :=
  match disk.read path with
  | .error fault => .error (.io path fault)
  | .ok bytes =>
    match Utf8.decode? bytes with
    | none => .error (.io path .notText)
    | some text =>
      match ofDocument? text with
      | none => .error .malformedDocument
      | some settings => .ok settings

-- A document that is asked for must be there; the default one is read if it is.
def load (path : Option Path) (environment : List (Text × Text)) (disk : Disk) :
    Except Failure Settings := do
  let settings ← match path with
    | some path => read path disk
    | none => if (disk.entry? defaultDocument).isSome then read defaultDocument disk else .ok {}
  match settings.merge environment with
  | (settings, none) => return settings
  | (_, some fault) => throw (.setting fault)

end Settings
end Intrinsics
