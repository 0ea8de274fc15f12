import Intrinsics.Session

namespace Intrinsics

-- The program: takes in what a call can see of the file system, runs the call, and stores
-- what it changed.

def Location.ofPath (here : Location) (path : Path) : Location :=
  path.segments.foldl (fun location name =>
    if name = ['.'] then location
    else if name = ['.', '.'] then location.dropLast
    else location ++ [name]) (if path.isAbsolute then [] else here)

def Location.name (location : Location) : String :=
  "/" ++ "/".intercalate (location.map String.ofList)

partial def loadTree (location : Location) : IO (List (Location × Entry)) := do
  let file := (← IO.currentDir) / location.name
  if ← file.isDir then
    let inner ← (← file.readDir).toList.mapM fun child => loadTree (location ++ [child.fileName.toList])
    return (location, .directory) :: inner.flatten
  else if ← file.pathExists then
    return [(location, .file (← IO.FS.readBinFile file).toList)]
  else
    return []

def loadPath (location : Location) : IO (List (Location × Entry)) := do
  let above := (List.range location.length).map location.take
  let known ← above.filterM fun ancestor => do
    let file := (← IO.currentDir) / Location.name ancestor
    file.isDir
  return known.map (·, .directory) ++ (← loadTree location)

def loadDisk (here : Location) (paths : List Path) : IO Disk := do
  let trees ← paths.mapM fun path => loadPath (Location.ofPath here path)
  let start := Disk.put here .directory { workingDirectory := here }
  return trees.flatten.foldl (fun disk (location, entry) => disk.put location entry) start

-- Directories are stored in the order of their depth, before the files in them.
def storeChanges (before after : Disk) : IO Unit := do
  let changed := after.entries.filter fun (location, entry) => before.at? location != some entry
  for (location, entry) in changed.mergeSort fun a b => decide (a.1.length ≤ b.1.length) do
    match entry with
    | .directory => IO.FS.createDirAll location.name
    | .file bytes => IO.FS.writeBinFile location.name ⟨bytes.toArray⟩

def readEnvironment : IO (List (Text × Text)) := do
  let names := CommandLine.configVariable :: Terminal.refusal :: Terminal.demand :: Setting.all.map Setting.environmentName
  names.filterMapM fun name => do
    return (← IO.getEnv (String.ofList name)).map fun value => (name, value.toList)

def readPaths (arguments : Arguments) : List Path :=
  arguments.paths ++ [arguments.config.getD defaultDocument]

def writtenPaths (arguments : Arguments) (environment : List (Text × Text)) (disk : Disk) : List Path :=
  match Settings.load arguments.config environment disk with
  | .ok settings => [(arguments.apply settings).output]
  | .error _ => []

def visibleDisk (here : Location) (invocation : Invocation) : IO Disk := do
  let config := invocation.environment.lookup CommandLine.configVariable
  match CommandLine.parse config invocation.words with
  | .error _ => return { workingDirectory := here }
  | .ok arguments =>
    let disk ← loadDisk here (readPaths arguments)
    loadDisk here (readPaths arguments ++ writtenPaths arguments invocation.environment disk)

end Intrinsics

open Intrinsics

def main (words : List String) : IO UInt32 := do
  let started ← IO.monoMsNow
  let here := Location.ofPath [] (← IO.currentDir).toString.toList
  let invocation : Invocation := ⟨words.map String.toList, ← readEnvironment⟩
  let disk ← visibleDisk here invocation
  let session := Session.run invocation disk
  storeChanges disk (session.disk disk)
  let transcript := session.transcript (Console.seconds ((← IO.monoMsNow) - started))
  IO.print (String.ofList transcript.output)
  IO.eprint (String.ofList transcript.errors)
  return transcript.code.toUInt32
