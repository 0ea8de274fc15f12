import Intrinsics.Path

namespace Intrinsics
open Text

inductive Fault where
  | notFound | exists | notDirectory | isDirectory | nameTooLong | zeroByte | notText
  deriving DecidableEq

def Fault.message : Fault → Text
  | .notFound => "No such file or directory (os error 2)".toList
  | .exists => "File exists (os error 17)".toList
  | .notDirectory => "Not a directory (os error 20)".toList
  | .isDirectory => "Is a directory (os error 21)".toList
  | .nameTooLong => "File name too long (os error 36)".toList
  | .zeroByte => "file name contained an unexpected NUL byte".toList
  | .notText => "stream did not contain valid UTF-8".toList

-- The names on the way from the root, outermost first. Many paths lead to one location.
abbrev Location := List Text

inductive Entry where
  | file (bytes : List UInt8)
  | directory
  deriving DecidableEq

-- The root is there without an entry.
structure Disk where
  entries : List (Location × Entry) := []
  workingDirectory : Location := []

namespace Disk

def at? (disk : Disk) (location : Location) : Option Entry :=
  if location = [] then some .directory else disk.entries.lookup location

def put (location : Location) (entry : Entry) (disk : Disk) : Disk :=
  { disk with entries := (location, entry) :: disk.entries.filter (·.1 != location) }

theorem lookup_other {location other : Location} (entries : List (Location × Entry))
    (different : other ≠ location) :
    (entries.filter (·.1 != location)).lookup other = entries.lookup other := by
  induction entries with
  | nil => rfl
  | cons first entries ih =>
    obtain ⟨place, held⟩ := first
    by_cases same : place = location
    · subst same
      have passed : (other == place) = false := by simp [different]
      rw [List.filter_cons_of_neg (by simp), List.lookup_cons, passed]
      exact ih
    · rw [List.filter_cons_of_pos (by simp [same]), List.lookup_cons, List.lookup_cons, ih]

theorem at?_put {location : Location} (inner : location ≠ []) (entry : Entry) (disk : Disk)
    (other : Location) :
    (disk.put location entry).at? other = if other = location then some entry else disk.at? other := by
  by_cases same : other = location
  · subst same
    simp [Disk.at?, put, inner]
  · have different : (other == location) = false := by simp [same]
    simp [Disk.at?, put, same, List.lookup_cons, different, lookup_other _ same]

def maxName : Nat := 255

def maxPath : Nat := 4096

def check (path : Path) : Except Fault Unit :=
  if path.contains '\x00' then .error .zeroByte
  else if path.isEmpty then .error .notFound
  else if maxPath ≤ byteLength path then .error .nameTooLong
  else .ok ()

def enter (disk : Disk) (here : Location) (name : Text) : Except Fault Location :=
  if disk.at? here ≠ some .directory then .error .notDirectory
  else if name = ['.'] then .ok here
  else if name = ['.', '.'] then .ok here.dropLast
  else if maxName < byteLength name then .error .nameTooLong
  else if (disk.at? (here ++ [name])).isNone then .error .notFound
  else .ok (here ++ [name])

def follow (disk : Disk) : Location → List Text → Except Fault Location
  | here, [] => .ok here
  | here, name :: names => do disk.follow (← disk.enter here name) names

def origin (disk : Disk) (path : Path) : Location :=
  if path.isAbsolute then [] else disk.workingDirectory

-- A separator at the end asks for a directory.
def locate (disk : Disk) (path : Path) : Except Fault Location := do
  check path
  let names := if path.getLast? = some '/' then path.segments ++ [['.']] else path.segments
  disk.follow (disk.origin path) names

def entry? (disk : Disk) (path : Path) : Option Entry :=
  match disk.locate path with
  | .ok location => disk.at? location
  | .error _ => none

def isDirectory (disk : Disk) (path : Path) : Bool := disk.entry? path == some .directory

def read (disk : Disk) (path : Path) : Except Fault (List UInt8) := do
  match disk.at? (← disk.locate path) with
  | some (.file bytes) => return bytes
  | some .directory => throw .isDirectory
  | none => throw .notFound

-- None for a path that ends in the root, in `here` or in `up`.
def place (disk : Disk) (path : Path) : Except Fault (Option (Location × Text)) := do
  check path
  let names := path.segments
  let here ← disk.follow (disk.origin path) names.dropLast
  if disk.at? here ≠ some .directory then throw .notDirectory
  match names.getLast? with
  | none => return none
  | some name =>
    if name = ['.'] ∨ name = ['.', '.'] then return none
    if maxName < byteLength name then throw .nameTooLong
    return some (here, name)

def makeDirectory (path : Path) (disk : Disk) : Except Fault Disk := do
  match ← disk.place path with
  | none => throw .exists
  | some (here, name) =>
    if (disk.at? (here ++ [name])).isSome then throw .exists
    return disk.put (here ++ [name]) .directory

-- Directories made before a failure stay.
def makeDirectories (path : Path) (disk : Disk) : Disk × Option Fault :=
  if path.isEmpty then (disk, none)
  else
    match disk.makeDirectory path with
    | .ok made => (made, none)
    | .error .notFound =>
      match _ : path.parent? with
      | none => (disk, some .notFound)
      | some parent =>
        match makeDirectories parent disk with
        | (above, some fault) => (above, some fault)
        | (above, none) =>
          match above.makeDirectory path with
          | .ok made => (made, none)
          | .error fault => if above.isDirectory path then (above, none) else (above, some fault)
    | .error fault => if disk.isDirectory path then (disk, none) else (disk, some fault)
termination_by path.length
decreasing_by exact Path.parent?_shorter ‹_›

def write (path : Path) (bytes : List UInt8) (disk : Disk) : Except Fault Disk := do
  match ← disk.place path with
  | none => throw .isDirectory
  | some (here, name) =>
    if path.getLast? = some '/' then throw .isDirectory
    if disk.at? (here ++ [name]) = some .directory then throw .isDirectory
    return disk.put (here ++ [name]) (.file bytes)

end Disk
end Intrinsics
