import Intrinsics.Proofs.Disk.Directories
import Intrinsics.Proofs.Generation.Outcomes
import Intrinsics.Proofs.Generation.StubPaths
import Mathlib.Data.List.Basic

namespace Intrinsics
open Text

-- Stubs of one run do not stand in each other's way. Below the output packages are directories
-- without a dot in their names and stubs are files with one, so what one stub needs as a directory
-- is never the file of another.

def sourceType? (settings : Settings) (disk : Disk) (source : Path) : Option QualifiedName :=
  match renderSource settings.publicOnly disk source with
  | .ok stub => stub.typeName
  | .error _ => none

-- The text that a source files under a path, and the one that stays there: the last.
def filedText? (settings : Settings) (disk : Disk) (path source : Path) : Option Text :=
  match renderSource settings.publicOnly disk source with
  | .ok ⟨some type, text⟩ => if stubPath settings.output type.text = path then some text else none
  | _ => none

def lastFiled? (settings : Settings) (disk : Disk) (sources : List Path) (path : Path) : Option Text :=
  (sources.filterMap (filedText? settings disk path)).getLast?

section Sources

variable {settings : Settings} {disk : Disk} {path source : Path} {bytes : List UInt8} {type : QualifiedName}
  {text : Text}

theorem sourceType?_read (read : disk.read source = .ok bytes) : sourceType? settings disk source =
      (Stub.render settings.publicOnly (Utf8.decodeLossy bytes)).typeName := by
  simp only [sourceType?, renderSource, read]

theorem filedText?_typed (read : disk.read source = .ok bytes)
    (rendered : Stub.render settings.publicOnly (Utf8.decodeLossy bytes) = ⟨some type, text⟩) :
    filedText? settings disk path source = if stubPath settings.output type.text = path then some text else none := by
  simp only [filedText?, renderSource, read, rendered]

theorem filedText?_untyped (untyped : sourceType? settings disk source = none) (path : Path) :
    filedText? settings disk path source = none := by
  unfold sourceType? at untyped
  unfold filedText?
  split
  · rename_i rendered
    rw [rendered] at untyped
    cases untyped
  · rfl

end Sources

-- An output of ordinary names that is not there yet or is an empty directory. What there is of the
-- way to it are directories, and nothing lies in a file or in what is not there.
structure Disk.ReadyFor (disk : Disk) (output : Path) : Prop where
  ordinary : ∀ name ∈ output.segments, OrdinaryName name
  start : disk.at? (disk.origin output) = some .directory
  nested : disk.Nested (disk.origin output)
  above : ∀ front, front <+: output.segments → front ≠ output.segments →
    ∀ bytes, disk.at? (disk.origin output ++ front) ≠ some (.file bytes)
  vacant : disk.at? (disk.origin output ++ output.segments) = none ∨
    (disk.at? (disk.origin output ++ output.segments) = some .directory ∧
      ∀ name, disk.at? (disk.origin output ++ (output.segments ++ [name])) = none)

structure StubTree (output : Path) (base : Location) (disk : Disk) : Prop where
  start : disk.origin output = base
  way : disk.Way base output.segments
  packages : ∀ below name, disk.at? (base ++ (output.segments ++ (below ++ [name]))) = some .directory → '.' ∉ name
  stubs : ∀ below name bytes,
    disk.at? (base ++ (output.segments ++ (below ++ [name]))) = some (.file bytes) → '.' ∈ name

namespace Disk.ReadyFor

variable {disk : Disk} {output : Path}

theorem nothing_below (ready : disk.ReadyFor output) (below : List Text) (name : Text) :
    disk.at? (disk.origin output ++ (output.segments ++ (below ++ [name]))) = none := by
  by_contra held
  have present := Option.isSome_iff_ne_none.mpr held
  rw [← List.append_assoc output.segments, ← List.append_assoc] at present
  have around := ready.nested.above (ready.nested _ name (List.prefix_append _ _) present)
  have directory := around output.segments (List.prefix_append _ below)
  rcases ready.vacant with missing | ⟨_, empty⟩
  · rw [missing] at directory
    cases directory
  · cases below with
    | nil =>
      rw [List.append_nil, List.append_assoc, empty] at present
      cases present
    | cons next below =>
      have inner := around (output.segments ++ [next]) ⟨below, by simp⟩
      rw [empty] at inner
      cases inner

theorem stubTree (ready : disk.ReadyFor output) : StubTree output (disk.origin output) disk where
  start := rfl
  way := by
    refine ⟨ready.start, ready.nested, ?_⟩
    intro front begins bytes held
    by_cases whole : front = output.segments
    · rw [whole] at held
      rcases ready.vacant with missing | ⟨directory, _⟩
      · rw [missing] at held
        cases held
      · rw [directory] at held
        cases held
    · exact ready.above front begins whole bytes held
  packages below name held := by
    rw [ready.nothing_below] at held
    cases held
  stubs below name bytes held := by
    rw [ready.nothing_below] at held
    cases held

end Disk.ReadyFor

namespace StubTree

variable {output : Path} {base : Location} {disk after : Disk} {packages : List Text}

theorem way_below (tree : StubTree output base disk) (dotless : ∀ name ∈ packages, '.' ∉ name) :
    disk.Way base (output.segments ++ packages) := by
  refine ⟨tree.way.start, tree.way.nested, ?_⟩
  intro front begins bytes held
  rcases List.prefix_or_prefix_of_prefix begins (List.prefix_append output.segments packages) with outer | ⟨below, rfl⟩
  · exact tree.way.clear front outer bytes held
  · have inside := (List.prefix_append_right_inj output.segments).mp begins
    rcases List.eq_nil_or_concat below with rfl | ⟨ahead, name, rfl⟩
    · exact tree.way.clear _ (by simp) bytes held
    · rw [List.concat_eq_append] at held inside
      exact dotless name (inside.subset (by simp)) (tree.stubs ahead name bytes held)

theorem laidOut (tree : StubTree output base disk) (dotless : ∀ name ∈ packages, '.' ∉ name)
    (laid : Disk.LaidOut base (output.segments ++ packages) disk after) : StubTree output base after where
  start := (Disk.origin_eq laid.workingDirectory rfl).trans tree.start
  way := laid.way tree.way
  packages below name held := by
    rcases laid.at?_cases (base ++ (output.segments ++ (below ++ [name]))) with ⟨front, begins, along⟩ | same
    · rw [← List.append_cancel_left along] at begins
      have inside := (List.prefix_append_right_inj output.segments).mp begins
      exact dotless name (inside.subset (by simp))
    · rw [same] at held
      exact tree.packages below name held
  stubs below name bytes held := tree.stubs below name bytes (laid.files held)

theorem put (tree : StubTree output base disk) {name : Text} (dotted : '.' ∈ name)
    (directory : disk.at? (base ++ (output.segments ++ packages)) = some .directory) (bytes : List UInt8) :
    StubTree output base (disk.put (base ++ (output.segments ++ (packages ++ [name]))) (.file bytes)) := by
  have inner : base ++ (output.segments ++ (packages ++ [name])) ≠ [] := by simp
  have free : disk.at? (base ++ (output.segments ++ (packages ++ [name]))) ≠ some .directory :=
    fun held => tree.packages packages name held dotted
  have grown : disk.Grows (disk.put (base ++ (output.segments ++ (packages ++ [name]))) (.file bytes)) :=
    Disk.put_grows inner fun held => absurd held free
  refine ⟨tree.start, ⟨grown.directories base tree.way.start, ?_, ?_⟩, ?_, ?_⟩
  · intro location last below held
    apply grown.directories
    rw [Disk.at?_put inner] at held
    split at held
    · rename_i same
      rw [← List.append_assoc output.segments, ← List.append_assoc] at same
      rw [(List.append_inj' same rfl).1]
      exact directory
    · exact tree.way.nested location last below held
  · intro front begins content held
    have other : base ++ front ≠ base ++ (output.segments ++ (packages ++ [name])) := by
      intro same
      have shorter := begins.length_le
      rw [List.append_cancel_left same, List.length_append, List.length_append, List.length_singleton] at shorter
      omega
    rw [Disk.at?_put inner, if_neg other] at held
    exact tree.way.clear front begins content held
  · intro below last held
    rw [Disk.at?_put inner] at held
    split at held
    · cases held
    · exact tree.packages below last held
  · intro below last content held
    rw [Disk.at?_put inner] at held
    split at held
    · rename_i same
      have ends := (List.append_inj' (List.append_cancel_left (List.append_cancel_left same)) rfl).2
      rw [List.singleton_inj.mp ends]
      exact dotted
    · exact tree.stubs below last content held

end StubTree

section Step

variable {typeName last : Text} {ahead : List Text} {output : Path} {base : Location} {disk after : Disk}

theorem TypeWords.stubPath_ordinary (words : TypeWords typeName ahead last)
    (ordinary : ∀ name ∈ output.segments, OrdinaryName name) :
    ∀ name ∈ (stubPath output typeName).segments, OrdinaryName name := by
  intro name member
  rw [(words.stubPath_names output).1] at member
  rcases List.mem_append.mp member with outer | inner
  · exact ordinary name outer
  · obtain ⟨_, notHere, notUp, _⟩ := words.fileNames_ordinary name inner
    refine ⟨notHere, notUp, ?_⟩
    have zeroless : ∀ part ∈ ahead ++ [last], '\x00' ∉ part := by
      intro part held
      rw [← words.parts] at held
      exact free_of_spelt (words.spelt part held) (by decide)
    rcases List.mem_append.mp inner with package | file
    · exact zeroless name (List.mem_append_left _ (List.mem_filter.mp package).1)
    · rw [List.mem_singleton.mp file]
      simpa using zeroless last (by simp)

-- Stubs that lie at one place have one path.
theorem TypeWords.stubPath_located {other final : Text} {before : List Text} {location : Location}
    (words : TypeWords typeName ahead last) (others : TypeWords other before final)
    (ordinary : ∀ name ∈ output.segments, OrdinaryName name)
    (first : disk.locate (stubPath output typeName) = .ok location)
    (second : disk.locate (stubPath output other) = .ok location) :
    stubPath output typeName = stubPath output other := by
  have here := Disk.locate_ordinary (words.stubPath_ordinary ordinary) (words.stubPath_plain output) first
  have there := Disk.locate_ordinary (others.stubPath_ordinary ordinary) (others.stubPath_plain output) second
  have aligned : disk.origin (stubPath output typeName) = disk.origin (stubPath output other) :=
    Disk.origin_eq rfl ((words.stubPath_names output).2.trans (others.stubPath_names output).2.symm)
  rw [here, aligned] at there
  exact words.stubPath_eq others (List.append_cancel_left there)

theorem writeStub_made {path parent : Path} {text : Text} (lies : path.parent? = some parent)
    (made : (disk.makeDirectories parent).2 = none)
    (written : (disk.makeDirectories parent).1.write path (Utf8.encode text) = .ok after) :
    writeStub path text disk = (after, none) := by
  unfold writeStub
  rw [lies, Option.getD_some]
  dsimp only
  generalize disk.makeDirectories parent = result at made written ⊢
  obtain ⟨above, fault⟩ := result
  cases made
  dsimp only at written ⊢
  rw [written]

-- One stub finds its directories or makes them and is written, whatever was written before.
theorem StubTree.stores (tree : StubTree output base disk) (words : TypeWords typeName ahead last)
    (usable : (stubPath output typeName).Usable) (text : Text) :
    ∃ after, writeStub (stubPath output typeName) text disk = (after, none) ∧ StubTree output base after := by
  obtain ⟨names, absolute⟩ := words.stubPath_names output
  rw [fileNames, ← List.append_assoc] at names
  have dotless : ∀ name ∈ ahead.filter (!·.isEmpty), '.' ∉ name :=
    fun name member => words.dotless name (List.mem_append_left _ (List.mem_filter.mp member).1)
  have dotted : '.' ∈ last ++ ".as".toList := by simp
  cases lies : (stubPath output typeName).parent? with
  | none =>
    rw [Path.parent?_none usable.withoutHere lies] at names
    simp at names
  | some parent =>
    obtain ⟨above, aligned, _⟩ := Path.parent?_names usable.withoutHere lies
    rw [names, List.dropLast_concat] at above
    have origin : disk.origin parent = base := (Disk.origin_eq rfl (aligned.trans absolute)).trans tree.start
    have way := tree.way_below dotless
    rw [← above, ← origin] at way
    obtain ⟨made, laid⟩ := Disk.makeDirectories_way parent (usable.parent lies) way
    rw [origin, above] at laid
    have next := tree.laidOut dotless laid
    have start : (disk.makeDirectories parent).1.origin (stubPath output typeName) = base :=
      (Disk.origin_eq rfl absolute).trans next.start
    -- The packages stand now, and a directory has no dot in its name, so the file finds its place.
    have standing := laid.standing
    rw [← start] at standing
    have written := Disk.write_standing usable names standing (words.stubPath_plain output) (by
      rw [start, List.append_assoc]
      exact fun held => next.packages _ _ held dotted) (Utf8.encode text)
    rw [start, List.append_assoc] at written
    exact ⟨_, writeStub_made lies made written, next.put dotted (laid.standing _ (List.prefix_refl _)) _⟩

end Step

section Run

variable {settings : Settings} {start disk after : Disk} {base : Location}

-- Whatever type a source declares, its name is one that has a place below the output.
theorem StubTree.stores_source {source : Path} {bytes : List UInt8} {type : QualifiedName} {text : Text}
    (tree : StubTree settings.output base disk) (ordinary : ∀ name ∈ settings.output.segments, OrdinaryName name)
    (fits : ∀ type, sourceType? settings start source = some type → (stubPath settings.output type.text).Fits)
    (read : start.read source = .ok bytes)
    (rendered : Stub.render settings.publicOnly (Utf8.decodeLossy bytes) = ⟨some type, text⟩) :
    ∃ next, writeStub (stubPath settings.output type.text) text disk = (next, none) ∧
      StubTree settings.output base next := by
  have typed : sourceType? settings start source = some type := by rw [sourceType?_read read, rendered]
  obtain ⟨ahead, words⟩ := render_typeWords (congrArg Stub.typeName rendered)
  exact tree.stores words ⟨fits _ typed, words.stubPath_ordinary ordinary⟩ text

inductive Outcome.Filed (settings : Settings) (start : Disk) (source : Path) : Outcome → Prop where
  | untyped : sourceType? settings start source = none → Filed settings start source .untyped
  | written : start.read source = .ok bytes →
      Stub.render settings.publicOnly (Utf8.decodeLossy bytes) = ⟨some type, text⟩ →
      Filed settings start source (.written (stubPath settings.output type.text) text)

namespace Outcome.Filed

variable {source : Path} {outcome : Outcome}

theorem succeeded (filed : outcome.Filed settings start source) : outcome.isFailed = false := by
  cases filed <;> rfl

theorem path?_eq (filed : outcome.Filed settings start source) :
    outcome.path? = (sourceType? settings start source).map (stubPath settings.output ·.text) := by
  cases filed with
  | untyped unnamed =>
    rw [unnamed]
    rfl
  | written read rendered =>
    rw [sourceType?_read read, rendered]
    rfl

theorem storedAt?_eq {typeName last : Text} {ahead : List Text} {location : Location}
    (filed : outcome.Filed settings start source) (ordinary : ∀ name ∈ settings.output.segments, OrdinaryName name)
    (words : TypeWords typeName ahead last) (located : disk.locate (stubPath settings.output typeName) = .ok location)
    (reached : ∀ path text, outcome = .written path text → ∃ found, disk.locate path = .ok found) :
    outcome.storedAt? disk location = filedText? settings start (stubPath settings.output typeName) source := by
  cases filed with
  | untyped unnamed =>
    rw [filedText?_untyped unnamed]
    rfl
  | written read rendered =>
    obtain ⟨found, there⟩ := reached _ _ rfl
    obtain ⟨_, others⟩ := render_typeWords (congrArg Stub.typeName rendered)
    rw [filedText?_typed read rendered, Outcome.storedAt?, there]
    dsimp only
    refine if_congr ⟨?_, ?_⟩ rfl rfl
    · rintro rfl
      exact others.stubPath_located words ordinary there located
    · intro same
      rw [same, located] at there
      exact (Except.ok.inj there).symm

end Outcome.Filed

theorem Settles.unobstructed {source : Path} {outcome : Outcome}
    (settled : Settles settings start source disk outcome after) (tree : StubTree settings.output base disk)
    (ordinary : ∀ name ∈ settings.output.segments, OrdinaryName name)
    (readable : ∃ bytes, start.read source = .ok bytes)
    (fits : ∀ type, sourceType? settings start source = some type → (stubPath settings.output type.text).Fits) :
    StubTree settings.output base after ∧ outcome.Filed settings start source := by
  cases settled with
  | unread refused =>
    obtain ⟨bytes, read⟩ := readable
    rw [read] at refused
    cases refused
  | untyped read unnamed => exact ⟨tree, .untyped (by rw [sourceType?_read read, unnamed])⟩
  | unwritten read rendered failed =>
    obtain ⟨next, stored, _⟩ := tree.stores_source ordinary fits read rendered
    rw [stored] at failed
    cases failed
  | written read rendered stored =>
    obtain ⟨next, again, later⟩ := tree.stores_source ordinary fits read rendered
    rw [stored] at again
    cases again
    exact ⟨later, .written read rendered⟩

namespace SettlesAll

variable {items : List (Path × Outcome)}

theorem unobstructed (settled : SettlesAll settings start disk items after) (tree : StubTree settings.output base disk)
    (ordinary : ∀ name ∈ settings.output.segments, OrdinaryName name)
    (readable : ∀ item ∈ items, ∃ bytes, start.read item.1 = .ok bytes)
    (fits : ∀ item ∈ items, ∀ type, sourceType? settings start item.1 = some type →
      (stubPath settings.output type.text).Fits) :
    ∀ item ∈ items, item.2.Filed settings start item.1 := by
  induction settled with
  | nil => exact List.forall_mem_nil _
  | cons first later ih =>
    rw [List.forall_mem_cons] at readable fits ⊢
    obtain ⟨next, outcome⟩ := first.unobstructed tree ordinary readable.1 fits.1
    exact ⟨outcome, ih next readable.2 fits.2⟩

-- The stubs that a run puts at a place are those filed under the path that leads there.
theorem stored_filed (settled : SettlesAll settings start disk items after)
    (filed : ∀ item ∈ items, item.2.Filed settings start item.1)
    (ordinary : ∀ name ∈ settings.output.segments, OrdinaryName name) {typeName last : Text} {ahead : List Text}
    (words : TypeWords typeName ahead last) {location : Location}
    (located : after.locate (stubPath settings.output typeName) = .ok location) :
    (items.filterMap fun item => item.2.storedAt? after location) =
      (items.map Prod.fst).filterMap (filedText? settings start (stubPath settings.output typeName)) := by
  rw [List.filterMap_map]
  apply List.filterMap_congr
  rintro ⟨source, outcome⟩ member
  apply (filed _ member).storedAt?_eq ordinary words located
  rintro path text rfl
  exact settled.located member

-- A stub that was written can be read, and says what the last source filed under its path says.
theorem reads (settled : SettlesAll settings start disk items after)
    (filed : ∀ item ∈ items, item.2.Filed settings start item.1)
    (ordinary : ∀ name ∈ settings.output.segments, OrdinaryName name) {item : Path × Outcome} (member : item ∈ items)
    {type : QualifiedName} (typed : sourceType? settings start item.1 = some type) :
    ∃ text, lastFiled? settings start (items.map Prod.fst) (stubPath settings.output type.text) = some text ∧
      after.read (stubPath settings.output type.text) = .ok (Utf8.encode text) := by
  obtain ⟨source, outcome⟩ := item
  have own := filed _ member
  cases own with
  | untyped unnamed =>
    rw [unnamed] at typed
    cases typed
  | written read rendered =>
    rw [sourceType?_read read, rendered] at typed
    cases typed
    obtain ⟨_, words⟩ := render_typeWords (congrArg Stub.typeName rendered)
    obtain ⟨location, located⟩ := settled.located member
    -- The source itself files something here, so there is a last text.
    have held : source ∈ items.map Prod.fst := List.mem_map_of_mem member
    have among := List.mem_filterMap.mpr ⟨source, held, (filedText?_typed read rendered).trans (if_pos rfl)⟩
    have ends := List.getLast?_eq_some_getLast (List.ne_nil_of_mem among)
    refine ⟨_, ends, Disk.read_eq_ok.mpr ⟨location, located, ?_⟩⟩
    rw [settled.files location, settled.stored_filed filed ordinary words located, ends]
    rfl

end SettlesAll

end Run

-- Every source that has a type gets its stub written, in the order of the sources, and none fails.
-- Afterwards each of the stubs can be read, and holds what the last source filed there says.
theorem generateSources_unobstructed (settings : Settings) (sources : List Path) (disk : Disk)
    (ready : disk.ReadyFor settings.output)
    (readable : ∀ source ∈ sources, ∃ bytes, disk.read source = .ok bytes)
    (fits : ∀ source ∈ sources, ∀ type, sourceType? settings disk source = some type →
      (stubPath settings.output type.text).Fits) :
    (generateSources settings sources disk).report.failed = 0 ∧
      (generateSources settings sources disk).report.written =
        sources.filterMap (fun source => (sourceType? settings disk source).map (stubPath settings.output ·.text)) ∧
      (generateSources settings sources disk).report.written.length =
        sources.countP (fun source => (sourceType? settings disk source).isSome) ∧
      ∀ source ∈ sources, ∀ type, sourceType? settings disk source = some type →
        ∃ text, lastFiled? settings disk sources (stubPath settings.output type.text) = some text ∧
          (generateSources settings sources disk).disk.read (stubPath settings.output type.text) =
            .ok (Utf8.encode text) := by
  obtain ⟨items, final, settled, named, whole⟩ := Generation.file_all settings disk sources
    { disk := disk, notices := sources.map .parsing }
  have report : (generateSources settings sources disk).report = Report.including (items.map Prod.snd) {} :=
    congrArg Generation.report whole
  have left : (generateSources settings sources disk).disk = final := congrArg Generation.disk whole
  rw [← named, List.forall_mem_map] at readable fits
  have filed := settled.unobstructed ready.stubTree ready.ordinary readable fits
  have written : (generateSources settings sources disk).report.written =
      sources.filterMap fun source => (sourceType? settings disk source).map (stubPath settings.output ·.text) := by
    rw [report, ← named, List.filterMap_map]
    simp only [Report.including, List.nil_append, List.filterMap_map]
    exact List.filterMap_congr fun item member => (filed item member).path?_eq
  refine ⟨?_, written, ?_, ?_⟩
  · rw [report]
    simp only [Report.including, Nat.zero_add, List.countP_map]
    apply List.countP_eq_zero.mpr
    intro item member
    simp [(filed item member).succeeded]
  · rw [written, List.length_filterMap_eq_countP]
    simp only [Option.isSome_map]
  · rw [left, ← named, List.forall_mem_map]
    intro item member type typed
    exact settled.reads filed ready.ordinary member typed

-- Two sources with a `class A` and one with `class A.B`, to be filed below `out`.
def packageOfType : Disk where
  entries := [(["a.as".toList], .file (Utf8.encode "class A\x7b".toList)),
    (["b.as".toList], .file (Utf8.encode "class A.B\x7b".toList)),
    (["c.as".toList], .file (Utf8.encode "dynamic class A\x7b".toList))]

def packageSources : List Path := ["a.as".toList, "b.as".toList, "c.as".toList]

def intoOut : Settings where
  output := "out".toList

theorem packageOfType_ready : packageOfType.ReadyFor intoOut.output := by
  have names : intoOut.output.segments = ["out".toList] := by decide
  have shallow : ∀ first second below, packageOfType.at? (first :: second :: below) = none := by
    intro first second below
    simp [packageOfType, Disk.at?, List.lookup_cons]
  refine ⟨?_, rfl, ?_, ?_, .inl (by decide)⟩
  · rw [names, List.forall_mem_singleton]
    exact ⟨by decide, by decide, by decide⟩
  · intro location name _ held
    rcases location with _ | ⟨first, _ | ⟨second, below⟩⟩
    · rfl
    · simp [shallow] at held
    · simp [shallow] at held
  · intro front begins proper bytes held
    rw [names] at begins proper
    rcases List.prefix_concat_iff.mp (show front <+: [] ++ ["out".toList] from begins) with whole | shorter
    · exact proper whole
    · rw [List.prefix_nil.mp shorter] at held
      cases held

-- The package is made beside the file of the type that it shares its name with, and that file is
-- written twice and holds the later type.
theorem generateSources_unobstructed_package :
    packageOfType.ReadyFor intoOut.output ∧
      (generateSources intoOut packageSources packageOfType).report.failed = 0 ∧
      (generateSources intoOut packageSources packageOfType).report.written =
        ["out/A.as".toList, "out/A/B.as".toList, "out/A.as".toList] ∧
      (generateSources intoOut packageSources packageOfType).disk.read "out/A.as".toList =
        .ok (Utf8.encode "intrinsic dynamic class A \x7b\n\x7d\n".toList) ∧
      (generateSources intoOut packageSources packageOfType).disk.read "out/A/B.as".toList =
        .ok (Utf8.encode "intrinsic class A.B \x7b\n\x7d\n".toList) := by
  have one : sourceType? intoOut packageOfType "a.as".toList = some ⟨[], "A".toList⟩ := by decide +kernel
  have other : sourceType? intoOut packageOfType "b.as".toList = some ⟨"A".toList, "B".toList⟩ := by decide +kernel
  have again : sourceType? intoOut packageOfType "c.as".toList = some ⟨[], "A".toList⟩ := by decide +kernel
  have outer : stubPath intoOut.output (QualifiedName.text ⟨[], "A".toList⟩) = "out/A.as".toList := by decide +kernel
  have inner : stubPath intoOut.output (QualifiedName.text ⟨"A".toList, "B".toList⟩) = "out/A/B.as".toList := by
    decide +kernel
  have readable : ∀ source ∈ packageSources, ∃ bytes, packageOfType.read source = .ok bytes := by
    simp only [packageSources, List.forall_mem_cons]
    exact ⟨⟨_, rfl⟩, ⟨_, rfl⟩, ⟨_, rfl⟩, List.forall_mem_nil _⟩
  have fits : ∀ source ∈ packageSources, ∀ type,
      sourceType? intoOut packageOfType source = some type → (stubPath intoOut.output type.text).Fits := by
    simp only [packageSources, List.forall_mem_cons, one, other, again, Option.some.injEq, forall_eq', outer, inner]
    exact ⟨⟨by decide, by decide⟩, ⟨by decide, by decide⟩, ⟨by decide, by decide⟩, List.forall_mem_nil _⟩
  obtain ⟨failed, written, _, reads⟩ :=
    generateSources_unobstructed intoOut packageSources packageOfType packageOfType_ready readable fits
  have latest : lastFiled? intoOut packageOfType packageSources "out/A.as".toList =
      some "intrinsic dynamic class A \x7b\n\x7d\n".toList := by decide +kernel
  have single : lastFiled? intoOut packageOfType packageSources "out/A/B.as".toList =
      some "intrinsic class A.B \x7b\n\x7d\n".toList := by decide +kernel
  obtain ⟨_, last, held⟩ := reads "a.as".toList (by decide) _ one
  obtain ⟨_, sole, kept⟩ := reads "b.as".toList (by decide) _ other
  rw [outer] at last held
  rw [inner] at sole kept
  cases latest.symm.trans last
  cases single.symm.trans sole
  refine ⟨packageOfType_ready, failed, written.trans ?_, held, kept⟩
  simp only [packageSources, List.filterMap_cons, List.filterMap_nil, one, other, again, Option.map_some, outer, inner]

end Intrinsics
