import Intrinsics.Disk.Basic

namespace Intrinsics
open Text

def Path.isSource (path : Path) : Bool :=
  match path.extension? with
  | some extension => extension.map Char.toLower == "as".toList
  | none => false

-- The order of names by their bytes, which is the order of their code points.
def notAfter : Text → Text → Bool
  | [], _ => true
  | _ :: _, [] => false
  | c :: left, d :: right => if c = d then notAfter left right else decide (c.toNat < d.toNat)

namespace Disk

def children (disk : Disk) (directory : Location) : List (Text × Entry) :=
  disk.entries.filterMap fun (location, entry) =>
    match location.getLast? with
    | some name => if location = directory ++ [name] then some (name, entry) else none
    | none => none

def sorted (names : List Text) : List Text := names.mergeSort notAfter

def filesIn (disk : Disk) (directory : Location) : List Text :=
  sorted ((disk.children directory).filterMap fun (name, entry) =>
    if entry = .directory then none else some name)

def directoriesIn (disk : Disk) (directory : Location) : List Text :=
  sorted ((disk.children directory).filterMap fun (name, entry) =>
    if entry = .directory then some name else none)

def sourcesBelow (disk : Disk) : Nat → Location → Path → List Path
  | 0, _, _ => []
  | depth + 1, directory, path =>
    ((disk.filesIn directory).map path.push).filter Path.isSource ++
      (disk.directoriesIn directory).flatMap fun name =>
        disk.sourcesBelow depth (directory ++ [name]) (path.push name)

-- No location lies deeper than this.
def height (disk : Disk) : Nat := (disk.entries.map (·.1.length)).foldl max 0

def sourcesAt (disk : Disk) (recursive : Bool) (path : Path) : List Path :=
  match disk.locate path with
  | .error _ => []
  | .ok location =>
    match disk.at? location with
    | some .directory => disk.sourcesBelow (if recursive then disk.height else 1) location path
    | some (.file _) => if path.isSource then [path] else []
    | none => []

def sources (disk : Disk) (recursive : Bool) (paths : List Path) : List Path :=
  paths.flatMap (disk.sourcesAt recursive)

end Disk
end Intrinsics
