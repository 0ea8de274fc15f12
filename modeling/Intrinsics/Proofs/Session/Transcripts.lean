import Intrinsics.Proofs.Generation.Outcomes
import Intrinsics.Proofs.Settings.Layers
import Intrinsics.Session

namespace Intrinsics
open Text

-- What a call shows, against what it does. The settings for the console reach the transcript and
-- nothing else, and the exit code says whether an error was shown.

def Settings.Effective (settings : Settings) : Prop :=
  ∃ (arguments : Arguments) (loaded : Settings), settings = arguments.apply loaded

def Notice.failure? : Notice → Option Failure
  | .failed failure => some failure
  | _ => none

-- Each failure is one error line, and nothing else is.
theorem Console.errors_eq (notices : List Notice) :
    notices.flatMap errors = (notices.filterMap Notice.failure?).flatMap fun failure => error failure.message := by
  induction notices with
  | nil => rfl
  | cons notice notices ih =>
    rw [List.flatMap_cons, ih]
    cases notice <;> rfl

theorem Console.error_ne_nil (message : Text) : error message ≠ [] := by
  unfold error Terminal.signal Terminal.code
  exact List.cons_ne_nil _ _

def isUntyped (publicOnly : Bool) (disk : Disk) (source : Path) : Bool :=
  match renderSource publicOnly disk source with
  | .ok stub => stub.typeName.isNone
  | .error _ => false

def Outcome.notices (items : List (Path × Outcome)) : List Notice :=
  items.filterMap fun item => item.2.notice? item.1

theorem Outcome.notices_cons (source : Path) (outcome : Outcome) (items : List (Path × Outcome)) :
    notices ((source, outcome) :: items) = (outcome.notice? source).toList ++ notices items := by
  unfold notices
  cases noticed : outcome.notice? source <;> simp [noticed]

section Outcomes

variable {settings : Settings} {start disk after final : Disk} {source : Path} {outcome : Outcome}
  {items : List (Path × Outcome)}

theorem Settles.isUntyped_eq (settled : Settles settings start source disk outcome after) :
    outcome.isUntyped = isUntyped settings.publicOnly start source := by
  cases settled with
  | unread read => simp [isUntyped, renderSource, read, Outcome.isUntyped]
  | untyped read untyped => simp [isUntyped, renderSource, read, untyped, Outcome.isUntyped]
  | unwritten read rendered => simp [isUntyped, renderSource, read, rendered, Outcome.isUntyped]
  | written read rendered => simp [isUntyped, renderSource, read, rendered, Outcome.isUntyped]

theorem SettlesAll.untyped (settled : SettlesAll settings start disk items final) :
    ((items.map Prod.fst).filter (isUntyped settings.publicOnly start)).length =
      (items.map Prod.snd).countP Outcome.isUntyped := by
  induction settled with
  | nil => rfl
  | cons first _ ih =>
    rw [List.map_cons, List.map_cons, List.filter_cons, List.countP_cons, first.isUntyped_eq, ← ih]
    split <;> rfl

theorem Outcome.notices_failures (items : List (Path × Outcome)) :
    ((notices items).filterMap Notice.failure?).length = (items.map Prod.snd).countP isFailed := by
  induction items with
  | nil => rfl
  | cons item items ih =>
    obtain ⟨source, outcome⟩ := item
    have one : ((outcome.notice? source).toList.filterMap Notice.failure?).length =
        if outcome.isFailed then 1 else 0 := by
      cases outcome <;> rfl
    rw [notices_cons, List.filterMap_append, List.length_append, one, ih, List.map_cons, List.countP_cons, Nat.add_comm]

end Outcomes

theorem generatePaths_settles (settings : Settings) (paths : List Path) (disk : Disk) :
    ∃ items, SettlesAll settings disk disk items (generatePaths settings paths disk).disk ∧
      items.map Prod.fst = disk.sources settings.recursive paths ∧
      (generatePaths settings paths disk).notices =
        (disk.sources settings.recursive paths).map .parsing ++ Outcome.notices items ∧
      (generatePaths settings paths disk).report = Report.including (items.map Prod.snd) {} := by
  obtain ⟨items, final, settled, named, whole⟩ := Generation.file_all settings disk
    (disk.sources settings.recursive paths) { disk := disk, notices := (disk.sources settings.recursive paths).map .parsing }
  have result : generatePaths settings paths disk = ⟨final,
      (disk.sources settings.recursive paths).map .parsing ++ Outcome.notices items,
      Report.including (items.map Prod.snd) {}⟩ := whole
  rw [result]
  exact ⟨items, settled, named, rfl, rfl⟩

theorem Settings.Effective.quiet {settings : Settings} (effective : settings.Effective)
    (silent : settings.silent = true) : settings.verbose = false := by
  obtain ⟨arguments, loaded, rfl⟩ := effective
  cases verbose : (arguments.apply loaded).verbose with
  | false => rfl
  | true => exact absurd ⟨silent, verbose⟩ (arguments.apply_exclusive loaded)

-- The code against the error channel, which holds error lines only.
structure Transcript.Truthful (transcript : Transcript) : Prop where
  shown : ∃ messages : List Text, transcript.errors = messages.flatMap Console.error
  failure : transcript.code = 1 ↔ transcript.errors ≠ []
  success : transcript.code = 0 ↔ transcript.errors = []

theorem Transcript.truthful {transcript : Transcript} (messages : List Text)
    (shown : transcript.errors = messages.flatMap Console.error)
    (code : transcript.code = if messages.isEmpty then 0 else 1) : transcript.Truthful := by
  refine ⟨⟨messages, shown⟩, ?_, ?_⟩
  all_goals
    rw [shown, code]
    cases messages <;> simp [Console.error_ne_nil]

theorem generatePaths_truthful (shown settings : Settings) (paths : List Path) (disk : Disk) (elapsed : Text) :
    ((Session.finished shown (generatePaths settings paths disk)).transcript elapsed).Truthful := by
  obtain ⟨items, -, -, told, counted⟩ := generatePaths_settles settings paths disk
  have failures : (generatePaths settings paths disk).notices.filterMap Notice.failure? =
      (Outcome.notices items).filterMap Notice.failure? := by
    have parsing : ((disk.sources settings.recursive paths).map Notice.parsing).filterMap Notice.failure? = [] := by
      rw [List.filterMap_map]
      exact List.filterMap_eq_nil_iff.mpr fun _ _ => rfl
    rw [told, List.filterMap_append, parsing, List.nil_append]
  have failed : (generatePaths settings paths disk).report.failed =
      ((Outcome.notices items).filterMap Notice.failure?).length := by
    rw [counted, Outcome.notices_failures]
    simp [Report.including]
  apply Transcript.truthful (((Outcome.notices items).filterMap Notice.failure?).map Failure.message)
  · unfold Session.transcript
    dsimp only
    rw [Console.errors_eq, failures, List.flatMap_map]
  · unfold Session.transcript Report.hasFailures
    dsimp only
    rw [failed]
    cases (Outcome.notices items).filterMap Notice.failure? <;> simp

-- Behind the command line there is help, a refusal of the settings or a finished run.
theorem Session.run_cases {invocation : Invocation} {arguments : Arguments} (disk : Disk)
    (parsed : CommandLine.parse (invocation.environment.lookup CommandLine.configVariable) invocation.words =
      .ok arguments) :
    (arguments.paths = [] ∧ ∃ colours config, Session.run invocation disk = .helped colours config) ∨
    (∃ failure, Settings.load arguments.config invocation.environment disk = .error failure ∧
      Session.run invocation disk = .unsettled failure) ∨
    ∃ loaded, Settings.load arguments.config invocation.environment disk = .ok loaded ∧
      Session.run invocation disk =
        .finished (arguments.apply loaded) (generatePaths (arguments.apply loaded) arguments.paths disk) := by
  unfold Session.run
  simp only [parsed]
  by_cases empty : arguments.paths = []
  · exact .inl ⟨empty, _, _, if_pos (List.isEmpty_iff.mpr empty)⟩
  · rw [if_neg (mt List.isEmpty_iff.mp empty)]
    cases Settings.load arguments.config invocation.environment disk with
    | error failure => exact .inr (.inl ⟨failure, rfl, rfl⟩)
    | ok loaded => exact .inr (.inr ⟨loaded, rfl, rfl⟩)

theorem Session.truthful {invocation : Invocation} {arguments : Arguments} (disk : Disk)
    (parsed : CommandLine.parse (invocation.environment.lookup CommandLine.configVariable) invocation.words =
      .ok arguments) (elapsed : Text) : ((Session.run invocation disk).transcript elapsed).Truthful := by
  rcases Session.run_cases disk parsed with
    ⟨-, colours, config, helped⟩ | ⟨failure, -, unsettled⟩ | ⟨loaded, -, finished⟩
  · rw [helped]
    exact Transcript.truthful [] rfl rfl
  · rw [unsettled]
    exact Transcript.truthful [_] (List.append_nil _).symm rfl
  · rw [finished]
    exact generatePaths_truthful _ _ _ _ _

def hushed : Settings := { silent := true }

end Intrinsics
