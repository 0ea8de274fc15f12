import Intrinsics.Generation
import Intrinsics.Proofs.Disk.Growth

namespace Intrinsics

-- What becomes of each source in one run. All sources are read from the disk as it is at the
-- start; stubs go to the disk as the sources before have left it.

inductive Outcome where
  | written (path : Path) (text : Text)
  | untyped
  | failed (failure : Failure)

namespace Outcome

def path? : Outcome → Option Path
  | .written path _ => some path
  | _ => none

def isUntyped : Outcome → Bool
  | .untyped => true
  | _ => false

def isFailed : Outcome → Bool
  | .failed _ => true
  | _ => false

def notice? (source : Path) : Outcome → Option Notice
  | .written _ _ => none
  | .untyped => some (.untyped source)
  | .failed failure => some (.failed failure)

def storedAt? (disk : Disk) (location : Location) : Outcome → Option Text
  | .written path text =>
    match disk.locate path with
    | .ok found => if found = location then some text else none
    | .error _ => none
  | _ => none

end Outcome

def Report.including (outcomes : List Outcome) (report : Report) : Report where
  written := report.written ++ outcomes.filterMap Outcome.path?
  skipped := report.skipped + outcomes.countP Outcome.isUntyped
  failed := report.failed + outcomes.countP Outcome.isFailed

@[simp] theorem Report.including_written (path : Path) (text : Text) (report : Report) :
    report.including [.written path text] = { report with written := report.written ++ [path] } := rfl

@[simp] theorem Report.including_untyped (report : Report) :
    report.including [.untyped] = { report with skipped := report.skipped + 1 } := by
  simp [including, Outcome.path?, Outcome.isUntyped, Outcome.isFailed]

@[simp] theorem Report.including_failed (failure : Failure) (report : Report) :
    report.including [.failed failure] = { report with failed := report.failed + 1 } := by
  simp [including, Outcome.path?, Outcome.isUntyped, Outcome.isFailed]

theorem Report.including_cons (outcome : Outcome) (outcomes : List Outcome) (report : Report) :
    report.including (outcome :: outcomes) = (report.including [outcome]).including outcomes := by
  unfold including
  rw [← List.singleton_append, List.filterMap_append, List.countP_append, List.countP_append]
  simp only [List.append_assoc, Nat.add_assoc]

-- Each outcome puts its source into exactly one of the three counts.
theorem Report.including_total (outcomes : List Outcome) (report : Report) :
    (report.including outcomes).written.length + (report.including outcomes).skipped +
        (report.including outcomes).failed =
      report.written.length + report.skipped + report.failed + outcomes.length := by
  induction outcomes generalizing report with
  | nil => simp [including]
  | cons outcome outcomes ih =>
    rw [including_cons, ih, List.length_cons]
    cases outcome <;> simp <;> omega

-- One source: what it held at the start decides whether there is a stub and where it goes.
inductive Settles (settings : Settings) (start : Disk) (source : Path) : Disk → Outcome → Disk → Prop where
  | unread : start.read source = .error fault →
      Settles settings start source disk (.failed (.io source fault)) disk
  | untyped : start.read source = .ok bytes →
      (Stub.render settings.publicOnly (Utf8.decodeLossy bytes)).typeName = none →
      Settles settings start source disk .untyped disk
  | unwritten {failure : Failure} : start.read source = .ok bytes →
      Stub.render settings.publicOnly (Utf8.decodeLossy bytes) = ⟨some type, text⟩ →
      writeStub (stubPath settings.output type.text) text disk = (after, some failure) →
      Settles settings start source disk (.failed failure) after
  | written : start.read source = .ok bytes →
      Stub.render settings.publicOnly (Utf8.decodeLossy bytes) = ⟨some type, text⟩ →
      writeStub (stubPath settings.output type.text) text disk = (after, none) →
      Settles settings start source disk (.written (stubPath settings.output type.text) text) after

inductive SettlesAll (settings : Settings) (start : Disk) : Disk → List (Path × Outcome) → Disk → Prop where
  | nil : SettlesAll settings start disk [] disk
  | cons : Settles settings start source disk outcome next → SettlesAll settings start next items final →
      SettlesAll settings start disk ((source, outcome) :: items) final

theorem Generation.file_settles (settings : Settings) (start : Disk) (source : Path) (run : Generation) :
    ∃ outcome after, Settles settings start source run.disk outcome after ∧
      run.file settings.output source (renderSource settings.publicOnly start source) =
        ⟨after, run.notices ++ (outcome.notice? source).toList, run.report.including [outcome]⟩ := by
  cases read : start.read source with
  | error fault =>
    refine ⟨_, _, .unread read, ?_⟩
    simp [renderSource, read, file, fail, Outcome.notice?]
  | ok bytes =>
    cases rendered : Stub.render settings.publicOnly (Utf8.decodeLossy bytes) with
    | mk typeName text =>
      cases typeName with
      | none =>
        refine ⟨_, _, .untyped read (by rw [rendered]), ?_⟩
        simp [renderSource, read, rendered, file, Outcome.notice?]
      | some type =>
        cases stored : writeStub (stubPath settings.output type.text) text run.disk with
        | mk after failure =>
          cases failure with
          | none =>
            refine ⟨_, _, .written read rendered stored, ?_⟩
            simp [renderSource, read, rendered, file, stored, Outcome.notice?]
          | some failure =>
            refine ⟨_, _, .unwritten read rendered stored, ?_⟩
            simp [renderSource, read, rendered, file, stored, fail, Outcome.notice?]

theorem Generation.file_all (settings : Settings) (start : Disk) (sources : List Path) (run : Generation) :
    ∃ items final, SettlesAll settings start run.disk items final ∧ items.map Prod.fst = sources ∧
      (sources.map fun source => (source, renderSource settings.publicOnly start source)).foldl
          (fun run (source, stub) => run.file settings.output source stub) run =
        ⟨final, run.notices ++ items.filterMap (fun item => item.2.notice? item.1),
          run.report.including (items.map Prod.snd)⟩ := by
  induction sources generalizing run with
  | nil => exact ⟨[], run.disk, .nil, rfl, by simp [Report.including]⟩
  | cons source sources ih =>
    obtain ⟨outcome, after, settled, filed⟩ := file_settles settings start source run
    obtain ⟨items, final, later, named, whole⟩ := ih (run.file settings.output source
      (renderSource settings.publicOnly start source))
    rw [filed] at later whole
    refine ⟨(source, outcome) :: items, final, .cons settled later, by simp [named], ?_⟩
    simp only [List.map_cons, List.foldl_cons, filed, whole,
      Report.including_cons outcome (items.map Prod.snd)]
    cases noticed : outcome.notice? source <;> simp [noticed]

theorem writeStub_failed {path : Path} {text : Text} {disk after : Disk} {failure : Failure}
    (failed : writeStub path text disk = (after, some failure)) : disk.Spreads after := by
  have spread := disk.makeDirectories_spreads (path.parent?.getD [])
  unfold writeStub at failed
  dsimp only at failed
  split at failed
  · rename_i above fault made
    rw [made] at spread
    cases failed
    exact spread
  · rename_i above made
    rw [made] at spread
    split at failed
    · cases failed
    · cases failed
      exact spread

theorem writeStub_stores {path : Path} {text : Text} {disk after : Disk}
    (stored : writeStub path text disk = (after, none)) :
    disk.Grows after ∧ ∃ location, after.locate path = .ok location ∧
      ∀ other, after.fileAt? other =
        if other = location then some (Utf8.encode text) else disk.fileAt? other := by
  have spread := disk.makeDirectories_spreads (path.parent?.getD [])
  unfold writeStub at stored
  dsimp only at stored
  split at stored
  · cases stored
  · rename_i above made
    rw [made] at spread
    split at stored
    · rename_i final written
      cases stored
      obtain ⟨growth, location, located, files⟩ := Disk.write_stores written
      refine ⟨spread.toGrows.trans growth, location, located, ?_⟩
      intro other
      rw [files, spread.files]
    · cases stored

namespace Settles

variable {settings : Settings} {start disk after : Disk} {source : Path} {outcome : Outcome}

theorem grows (settled : Settles settings start source disk outcome after) : disk.Grows after := by
  cases settled with
  | unread => exact .refl disk
  | untyped => exact .refl disk
  | unwritten _ _ failed => exact (writeStub_failed failed).toGrows
  | written _ _ stored => exact (writeStub_stores stored).1

theorem located {path : Path} {text : Text} (settled : Settles settings start source disk (.written path text) after) :
    ∃ location, after.locate path = .ok location := by
  cases settled with
  | written _ _ stored =>
    obtain ⟨_, location, located, _⟩ := writeStub_stores stored
    exact ⟨location, located⟩

-- The path of a stub leads to the same place on every later disk of the run.
theorem files (settled : Settles settings start source disk outcome after) {later : Disk}
    (growth : after.Grows later) (location : Location) :
    after.fileAt? location =
      ((outcome.storedAt? later location).map Utf8.encode).or (disk.fileAt? location) := by
  cases settled with
  | unread => simp [Outcome.storedAt?]
  | untyped => simp [Outcome.storedAt?]
  | unwritten _ _ failed => simp [Outcome.storedAt?, (writeStub_failed failed).files]
  | written _ _ stored =>
    obtain ⟨_, found, located, files⟩ := writeStub_stores stored
    rw [files]
    by_cases same : location = found
    · simp [Outcome.storedAt?, Disk.locate_grows growth located, same]
    · simp [Outcome.storedAt?, Disk.locate_grows growth located, same, Ne.symm same]

end Settles

namespace SettlesAll

variable {settings : Settings} {start disk final : Disk} {items : List (Path × Outcome)}

theorem grows (settled : SettlesAll settings start disk items final) : disk.Grows final := by
  induction settled with
  | nil => exact .refl _
  | cons first _ ih => exact first.grows.trans ih

theorem located (settled : SettlesAll settings start disk items final) {source path : Path} {text : Text}
    (member : (source, .written path text) ∈ items) : ∃ location, final.locate path = .ok location := by
  induction settled with
  | nil => cases member
  | cons first later ih =>
    rcases List.mem_cons.mp member with same | behind
    · cases same
      obtain ⟨location, located⟩ := first.located
      exact ⟨location, Disk.locate_grows later.grows located⟩
    · exact ih behind

-- The last text put at a location stays there; elsewhere files are as they were.
theorem files (settled : SettlesAll settings start disk items final) (location : Location) :
    final.fileAt? location =
      ((items.filterMap fun item => item.2.storedAt? final location).getLast?.map Utf8.encode).or
        (disk.fileAt? location) := by
  induction settled with
  | nil => rfl
  | @cons source disk outcome next items final first later ih =>
    rw [ih, first.files later.grows location]
    cases stored : outcome.storedAt? final location with
    | none => simp [stored]
    | some text =>
      cases last : (items.filterMap fun item => item.2.storedAt? final location).getLast? <;>
        simp [stored, List.getLast?_cons, last]

-- What a stub says was read at the start, also where its source has been overwritten since.
theorem rendered (settled : SettlesAll settings start disk items final) {source path : Path} {text : Text}
    (member : (source, .written path text) ∈ items) :
    ∃ bytes type, start.read source = .ok bytes ∧
      Stub.render settings.publicOnly (Utf8.decodeLossy bytes) = ⟨some type, text⟩ ∧
      path = stubPath settings.output type.text := by
  induction settled with
  | nil => cases member
  | cons first _ ih =>
    rcases List.mem_cons.mp member with same | later
    · cases same
      cases first with
      | written read rendered _ => exact ⟨_, _, read, rendered, rfl⟩
    · exact ih later

-- A text is stored only where a written path leads.
theorem stored_none {location : Location}
    (elsewhere : ∀ path ∈ (items.map Prod.snd).filterMap Outcome.path?, final.locate path ≠ .ok location) :
    (items.filterMap fun item => item.2.storedAt? final location) = [] := by
  apply List.filterMap_eq_nil_iff.mpr
  intro item member
  cases shape : item.2 with
  | untyped => rfl
  | failed failure => rfl
  | written path text =>
    have written : path ∈ (items.map Prod.snd).filterMap Outcome.path? :=
      List.mem_filterMap.mpr ⟨.written path text, List.mem_map.mpr ⟨item, member, shape⟩, rfl⟩
    have other := elsewhere path written
    cases located : final.locate path with
    | error fault => simp [Outcome.storedAt?, located]
    | ok found =>
      rw [located] at other
      simpa [Outcome.storedAt?, located] using fun same : found = location => other (congrArg _ same)

end SettlesAll

-- One run accounts for every source. Each has one outcome, made from what it held at the
-- start; progress is told for all of them first, then one notice for each that gave no stub.
-- A location that stubs were put at holds the last of them, and every other file is as before.
structure Generation.Accounted (settings : Settings) (sources : List Path) (start : Disk)
    (items : List (Path × Outcome)) (run : Generation) : Prop where
  complete : items.map Prod.fst = sources
  settled : SettlesAll settings start start items run.disk
  notices : run.notices = sources.map .parsing ++ items.filterMap fun item => item.2.notice? item.1
  written : run.report.written = items.filterMap (·.2.path?)
  skipped : run.report.skipped = items.countP (·.2.isUntyped)
  failed : run.report.failed = items.countP (·.2.isFailed)
  total : run.report.written.length + run.report.skipped + run.report.failed = sources.length
  rendered : ∀ source path text, (source, .written path text) ∈ items →
    ∃ bytes type, start.read source = .ok bytes ∧
      Stub.render settings.publicOnly (Utf8.decodeLossy bytes) = ⟨some type, text⟩ ∧
      path = stubPath settings.output type.text
  located : ∀ source path text, (source, .written path text) ∈ items →
    ∃ location, run.disk.locate path = .ok location
  files : ∀ location, run.disk.fileAt? location =
    ((items.filterMap fun item => item.2.storedAt? run.disk location).getLast?.map Utf8.encode).or
      (start.fileAt? location)
  unchanged : ∀ location, (∀ path ∈ run.report.written, run.disk.locate path ≠ .ok location) →
    run.disk.fileAt? location = start.fileAt? location

theorem generateSources_accounted (settings : Settings) (sources : List Path) (disk : Disk) :
    ∃ items, (generateSources settings sources disk).Accounted settings sources disk items := by
  obtain ⟨items, final, settled, named, whole⟩ := Generation.file_all settings disk sources
    { disk := disk, notices := sources.map .parsing }
  have result : generateSources settings sources disk =
      ⟨final, sources.map .parsing ++ items.filterMap (fun item => item.2.notice? item.1),
        Report.including (items.map Prod.snd) {}⟩ := whole
  refine ⟨items, ?_⟩
  rw [result]
  constructor
  case complete => exact named
  case settled => exact settled
  case notices => rfl
  case written => simp [Report.including, List.filterMap_map, Function.comp_def]
  case skipped => simp [Report.including, List.countP_map, Function.comp_def]
  case failed => simp [Report.including, List.countP_map, Function.comp_def]
  case total => simp [Report.including_total, ← named]
  case rendered => exact fun _ _ _ => settled.rendered
  case located => exact fun _ _ _ => settled.located
  case files => exact settled.files
  case unchanged =>
    intro location elsewhere
    have none : (items.filterMap fun item => item.2.storedAt? final location) = [] :=
      SettlesAll.stored_none elsewhere
    rw [settled.files location, none]
    rfl

end Intrinsics
