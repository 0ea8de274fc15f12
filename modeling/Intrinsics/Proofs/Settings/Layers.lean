import Intrinsics.CommandLine.Basic
import Intrinsics.Settings.Load

namespace Intrinsics
open Text

-- Settings field by field. Whether a text is taken for a setting, and what it then says, does
-- not depend on the settings that are there, so neither does it matter which variable comes first.

inductive SettingValue where
  | path (path : Path)
  | flag (on : Bool)
  | count (count : Nat)

def Setting.value? : Setting → Text → Option SettingValue
  | .output, text => some (.path text)
  | .jobs, text => (count? (trim text)).map .count
  | _, text => (flag? text).map .flag

def Setting.refusal (text : Text) : Setting → SettingFault
  | .jobs => .notNumber .jobs text
  | setting => .notFlag setting text

namespace Settings

def get (settings : Settings) : Setting → SettingValue
  | .output => .path settings.output
  | .recursive => .flag settings.recursive
  | .publicOnly => .flag settings.publicOnly
  | .silent => .flag settings.silent
  | .verbose => .flag settings.verbose
  | .jobs => .count settings.jobs

theorem eq_of_get {first second : Settings} (same : ∀ setting, first.get setting = second.get setting) :
    first = second := by
  obtain ⟨output, recursive, publicOnly, silent, verbose, jobs⟩ := first
  cases SettingValue.path.inj (same .output)
  cases SettingValue.flag.inj (same .recursive)
  cases SettingValue.flag.inj (same .publicOnly)
  cases SettingValue.flag.inj (same .silent)
  cases SettingValue.flag.inj (same .verbose)
  cases SettingValue.count.inj (same .jobs)
  rfl

structure Changes (settings : Settings) (setting : Setting) (value : SettingValue) (changed : Settings) : Prop where
  given : changed.get setting = value
  kept : ∀ other, other ≠ setting → changed.get other = settings.get other

theorem set_cases (setting : Setting) (text : Text) (settings : Settings) :
    (∃ value changed, setting.value? text = some value ∧ settings.set setting text = .ok changed ∧
        settings.Changes setting value changed) ∨
      (setting.value? text = none ∧ settings.set setting text = .error (setting.refusal text)) := by
  cases setting with
  | output =>
    refine .inl ⟨.path text, _, rfl, rfl, rfl, ?_⟩
    intro other different
    cases other <;> first | rfl | exact absurd rfl different
  | jobs =>
    unfold set
    cases read : count? (trim text) with
    | none => exact .inr ⟨by simp [Setting.value?, read], rfl⟩
    | some count =>
      refine .inl ⟨.count count, _, by simp [Setting.value?, read], rfl, rfl, ?_⟩
      intro other different
      cases other <;> first | rfl | exact absurd rfl different
  | _ =>
    unfold set
    cases read : flag? text with
    | none => exact .inr ⟨by simp [Setting.value?, read], rfl⟩
    | some on =>
      refine .inl ⟨.flag on, _, by simp [Setting.value?, read], rfl, rfl, ?_⟩
      intro other different
      cases other <;> first | rfl | exact absurd rfl different

end Settings

namespace Setting

theorem ofName?_eq_some {name : Text} {setting : Setting} : ofName? name = some setting ↔ name = setting.name := by
  constructor
  · intro found
    have same := List.find?_some found
    exact (beq_iff_eq.mp same).symm
  · intro same
    rw [same]
    cases setting <;> decide

theorem ofName?_eq_none {name : Text} : ofName? name = none ↔ ∀ setting : Setting, name ≠ setting.name := by
  constructor
  · intro missing setting same
    rw [ofName?_eq_some.mpr same] at missing
    cases missing
  · intro unknown
    cases found : ofName? name with
    | none => rfl
    | some setting => exact absurd (ofName?_eq_some.mp found) (unknown setting)

theorem name_injective : Function.Injective name := by
  intro first second same
  have found := ofName?_eq_some.mpr same
  rw [ofName?_eq_some.mpr rfl] at found
  exact Option.some.inj found

theorem environmentName_injective : Function.Injective environmentName := by
  intro first second same
  revert same
  cases first <;> cases second <;> decide

end Setting

theorem nameOfVariable?_exact {given name : Text} :
    nameOfVariable? given = some name ↔ ∃ setting : Setting, given = setting.environmentName ∧ name = setting.name := by
  constructor
  · intro known
    unfold nameOfVariable? at known
    obtain ⟨word, marked, found⟩ := Option.bind_eq_some_iff.mp known
    have whole := after?_exact.mp marked
    split at found
    · rename_i listed
      have member : word ∈ variableWords := List.contains_iff_mem.mp listed
      cases found
      simp only [variableWords, List.map_cons, List.map_nil, List.mem_cons, List.not_mem_nil, or_false] at member
      rcases member with rfl | rfl | rfl | rfl | rfl | rfl
      · exact ⟨.output, whole, by decide⟩
      · exact ⟨.recursive, whole, by decide⟩
      · exact ⟨.publicOnly, whole, by decide⟩
      · exact ⟨.silent, whole, by decide⟩
      · exact ⟨.verbose, whole, by decide⟩
      · exact ⟨.jobs, whole, by decide⟩
    · cases found
  · intro ⟨setting, same, named⟩
    rw [same, named]
    cases setting <;> decide

namespace Settings

-- Everything an attempt can do: a known setting takes a value that it knows; else all stays.
theorem attempt_cases (name text : Text) (settings : Settings) :
    (∃ setting value changed, name = Setting.name setting ∧ setting.value? text = some value ∧
        settings.attempt name text = (changed, none) ∧ settings.Changes setting value changed) ∨
      (∃ setting : Setting, name = setting.name ∧ setting.value? text = none ∧
        settings.attempt name text = (settings, some (setting.refusal text))) ∨
      ((∀ setting : Setting, name ≠ setting.name) ∧ settings.attempt name text = (settings, some (.unknown name))) := by
  cases found : Setting.ofName? name with
  | none => exact .inr (.inr ⟨Setting.ofName?_eq_none.mp found, by simp [attempt, setNamed, found]⟩)
  | some setting =>
    have named := Setting.ofName?_eq_some.mp found
    rcases settings.set_cases setting text with ⟨value, changed, read, set, changes⟩ | ⟨unread, set⟩
    · exact .inl ⟨setting, value, changed, named, read, by simp [attempt, setNamed, found, set], changes⟩
    · exact .inr (.inl ⟨setting, named, unread, by simp [attempt, setNamed, found, set]⟩)

-- A run over the environment, variable by variable. The settings at a refusal are those that the
-- variables in front of it have made.
inductive Merges : List (Text × Text) → Settings → Settings → Option SettingFault → Prop where
  | nil : Merges [] settings settings none
  | other : (∀ setting : Setting, given ≠ setting.environmentName) → Merges rest settings final fault →
      Merges ((given, text) :: rest) settings final fault
  | taken {setting : Setting} : setting.value? text = some value → settings.Changes setting value changed →
      Merges rest changed final fault → Merges ((setting.environmentName, text) :: rest) settings final fault
  | refused {setting : Setting} : setting.value? text = none →
      Merges ((setting.environmentName, text) :: rest) settings settings (some (setting.refusal text))

theorem merge_merges (environment : List (Text × Text)) (settings : Settings) :
    Merges environment settings (settings.merge environment).1 (settings.merge environment).2 := by
  induction environment generalizing settings with
  | nil => exact .nil
  | cons item rest ih =>
    obtain ⟨given, text⟩ := item
    cases known : nameOfVariable? given with
    | none =>
      have other : ∀ setting : Setting, given ≠ setting.environmentName := by
        intro setting same
        rw [nameOfVariable?_exact.mpr ⟨setting, same, rfl⟩] at known
        cases known
      have run : Merges ((given, text) :: rest) settings _ _ := .other other (ih settings)
      simpa [merge, known] using run
    | some name =>
      obtain ⟨setting, rfl, rfl⟩ := nameOfVariable?_exact.mp known
      rcases settings.attempt_cases setting.name text with
        ⟨other, value, changed, same, read, done, changes⟩ | ⟨other, same, unread, done⟩ | ⟨unknown, _⟩
      · cases Setting.name_injective same
        simpa [merge, known, done] using Merges.taken read changes (ih changed)
      · cases Setting.name_injective same
        have run : Merges ((setting.environmentName, text) :: rest) settings _ _ := .refused unread
        simpa [merge, known, done] using run
      · exact absurd rfl (unknown setting)

variable {environment other : List (Text × Text)} {base settings final : Settings} {fault : Option SettingFault}

-- The values that the environment holds for settings are all taken. Other variables are not asked.
def Acceptable (environment : List (Text × Text)) : Prop :=
  ∀ (setting : Setting) (text : Text), (setting.environmentName, text) ∈ environment → (setting.value? text).isSome

section Members

variable {setting : Setting} {text found : Text} {rest : List (Text × Text)}

theorem mem_other {given : Text} (different : ∀ setting : Setting, given ≠ setting.environmentName) :
    (setting.environmentName, found) ∈ (given, text) :: rest ↔ (setting.environmentName, found) ∈ rest := by
  rw [List.mem_cons, Prod.mk.injEq]
  exact or_iff_right fun same => different setting same.1.symm

theorem mem_variable {other : Setting} :
    (other.environmentName, found) ∈ (setting.environmentName, text) :: rest ↔
      (other = setting ∧ found = text) ∨ (other.environmentName, found) ∈ rest := by
  rw [List.mem_cons, Prod.mk.injEq, Setting.environmentName_injective.eq_iff]

end Members

theorem Merges.accepted (run : Merges environment settings final fault) : fault = none ↔ Acceptable environment := by
  induction run with
  | nil => simp [Acceptable]
  | other different _ ih =>
    rw [ih]
    unfold Acceptable
    simp only [mem_other different]
  | @taken text value rest changed _ _ _ setting read _ _ ih =>
    rw [ih]
    unfold Acceptable
    constructor
    · intro all other found member
      rcases mem_variable.mp member with ⟨rfl, rfl⟩ | later
      · rw [read]
        rfl
      · exact all other found later
    · intro all other found later
      exact all other found (List.mem_cons_of_mem _ later)
  | @refused text rest _ setting unread =>
    constructor
    · intro none
      cases none
    · intro all
      have taken := all setting text List.mem_cons_self
      rw [unread] at taken
      cases taken

-- A refusal is one of a known setting, and comes behind variables that were all taken.
theorem Merges.front (run : Merges environment settings final fault) {refusal : SettingFault}
    (failed : fault = some refusal) :
    ∃ (front : List (Text × Text)) (setting : Setting) (text : Text) (behind : List (Text × Text)),
      environment = front ++ (setting.environmentName, text) :: behind ∧ Merges front settings final none ∧
        setting.value? text = none ∧ refusal = setting.refusal text := by
  induction run with
  | nil => cases failed
  | other different _ ih =>
    obtain ⟨front, setting, text, behind, whole, taken, unread, said⟩ := ih failed
    exact ⟨_ :: front, setting, text, behind, by rw [whole]; rfl, .other different taken, unread, said⟩
  | taken read changes _ ih =>
    obtain ⟨front, setting, text, behind, whole, taken, unread, said⟩ := ih failed
    exact ⟨_ :: front, setting, text, behind, by rw [whole]; rfl, .taken read changes taken, unread, said⟩
  | @refused text rest _ setting unread =>
    exact ⟨[], setting, text, rest, rfl, .nil, unread, (Option.some.inj failed).symm⟩

-- Each setting is what its variable says, or what it was.
structure Layered (environment : List (Text × Text)) (base result : Settings) : Prop where
  given : ∀ (setting : Setting) (text : Text) (value : SettingValue),
    (setting.environmentName, text) ∈ environment → setting.value? text = some value → result.get setting = value
  kept : ∀ setting : Setting, (∀ text, (setting.environmentName, text) ∉ environment) →
    result.get setting = base.get setting

theorem Merges.layered (run : Merges environment settings final fault) (succeeded : fault = none)
    (distinct : (environment.map Prod.fst).Nodup) : Layered environment settings final := by
  induction run with
  | nil =>
    refine ⟨?_, fun _ _ => rfl⟩
    intro setting text value member
    cases member
  | other different _ ih =>
    obtain ⟨taken, untouched⟩ := ih succeeded (List.nodup_cons.mp distinct).2
    constructor
    · intro setting found value member
      exact taken setting found value ((mem_other different).mp member)
    · intro setting absent
      exact untouched setting fun found later => absent found (List.mem_cons_of_mem _ later)
  | @taken text value rest changed _ _ _ setting read changes _ ih =>
    obtain ⟨fresh, others⟩ := List.nodup_cons.mp distinct
    obtain ⟨taken, untouched⟩ := ih succeeded others
    have once : ∀ found, (setting.environmentName, found) ∉ rest :=
      fun found later => fresh (List.mem_map.mpr ⟨_, later, rfl⟩)
    constructor
    · intro other found denoted member known
      rcases mem_variable.mp member with ⟨rfl, rfl⟩ | later
      · rw [untouched other once, changes.given]
        exact Option.some.inj (read.symm.trans known)
      · exact taken other found denoted later known
    · intro other absent
      have different : other ≠ setting := by
        intro same
        rw [same] at absent
        exact absent text List.mem_cons_self
      rw [untouched other fun found later => absent found (List.mem_cons_of_mem _ later)]
      exact changes.kept other different
  | refused => cases succeeded

theorem Layered.perm {result : Settings} (layered : Layered environment base result) (perm : environment.Perm other) :
    Layered other base result := by
  constructor
  · intro setting text value member
    exact layered.given setting text value (perm.mem_iff.mpr member)
  · intro setting absent
    exact layered.kept setting fun text member => absent text (perm.mem_iff.mp member)

theorem Layered.unique {first second : Settings} (one : Layered environment base first)
    (two : Layered environment base second) (acceptable : Acceptable environment) : first = second := by
  apply eq_of_get
  intro setting
  by_cases present : ∃ text, (setting.environmentName, text) ∈ environment
  · obtain ⟨text, member⟩ := present
    obtain ⟨value, read⟩ := Option.isSome_iff_exists.mp (acceptable setting text member)
    rw [one.given setting text value member read, two.given setting text value member read]
  · have absent : ∀ text, (setting.environmentName, text) ∉ environment := fun text member => present ⟨text, member⟩
    rw [one.kept setting absent, two.kept setting absent]

theorem acceptable_perm (perm : environment.Perm other) : Acceptable other ↔ Acceptable environment := by
  constructor
  · intro all setting text member
    exact all setting text (perm.mem_iff.mp member)
  · intro all setting text member
    exact all setting text (perm.mem_iff.mpr member)

theorem merge_accepted (environment : List (Text × Text)) (base : Settings) :
    (base.merge environment).2 = none ↔ Acceptable environment :=
  (merge_merges environment base).accepted

theorem merge_perm (perm : environment.Perm other) (distinct : (environment.map Prod.fst).Nodup)
    (base : Settings) (succeeded : (base.merge environment).2 = none) : base.merge other = base.merge environment := by
  have acceptable := (merge_accepted environment base).mp succeeded
  have done : (base.merge other).2 = none := (merge_accepted other base).mpr ((acceptable_perm perm).mpr acceptable)
  have layered := (merge_merges environment base).layered succeeded distinct
  have again := (merge_merges other base).layered done ((perm.map Prod.fst).nodup_iff.mp distinct)
  have same := again.unique (layered.perm perm) ((acceptable_perm perm).mpr acceptable)
  exact Prod.ext same (done.trans succeeded.symm)

theorem merge_without {name : Text} (unknown : ∀ setting : Setting, name ≠ setting.environmentName) (text : Text)
    (front behind : List (Text × Text)) (base : Settings) :
    base.merge (front ++ (name, text) :: behind) = base.merge (front ++ behind) := by
  have passed : nameOfVariable? name = none := by
    cases known : nameOfVariable? name with
    | none => rfl
    | some found =>
      obtain ⟨setting, same, _⟩ := nameOfVariable?_exact.mp known
      exact absurd same (unknown setting)
  induction front generalizing base with
  | nil => simp [merge, passed]
  | cons item front ih =>
    simp only [List.cons_append, merge]
    split
    · exact ih base
    · split
      · exact ih _
      · rfl

-- What the settings document says, or the defaults where none is asked for and none is there.
def document (path : Option Path) (disk : Disk) : Except Failure Settings :=
  match path with
  | some path => read path disk
  | none => if (disk.entry? defaultDocument).isSome then read defaultDocument disk else .ok {}

def settled (environment : List (Text × Text)) (base : Settings) : Except Failure Settings :=
  match base.merge environment with
  | (settings, none) => .ok settings
  | (_, some fault) => .error (.setting fault)

theorem load_eq (path : Option Path) (environment : List (Text × Text)) (disk : Disk) :
    load path environment disk = (document path disk).bind (settled environment) := by
  unfold load document
  cases path with
  | some path => rfl
  | none =>
    dsimp only
    split <;> rfl

theorem settled_eq_ok {loaded : Settings} :
    settled environment base = .ok loaded ↔ base.merge environment = (loaded, none) := by
  unfold settled
  split
  · rename_i settings done
    simp [done]
  · rename_i refused
    simp [refused]

theorem load_exact (path : Option Path) (disk : Disk) (distinct : (environment.map Prod.fst).Nodup)
    {loaded : Settings} :
    load path environment disk = .ok loaded ↔
      ∃ base, document path disk = .ok base ∧ Acceptable environment ∧ Layered environment base loaded := by
  rw [load_eq]
  cases read : document path disk with
  | error failure => simp [Except.bind]
  | ok base =>
    simp only [Except.bind, settled_eq_ok, Except.ok.injEq, exists_eq_left']
    have run := merge_merges environment base
    constructor
    · intro done
      rw [done] at run
      exact ⟨run.accepted.mp rfl, run.layered rfl distinct⟩
    · intro ⟨acceptable, layered⟩
      have succeeded := run.accepted.mpr acceptable
      exact Prod.ext ((run.layered succeeded distinct).unique layered acceptable) succeeded

-- What an environment makes of settings. The order of its variables is seen in a failure only:
-- there the settings are those of the variables in front of the refused one.
structure EnvironmentLayer (environment : List (Text × Text)) (base : Settings) : Prop where
  accepted : (base.merge environment).2 = none ↔ Acceptable environment
  layered : (base.merge environment).2 = none → Layered environment base (base.merge environment).1
  known : ∀ name, (base.merge environment).2 ≠ some (.unknown name)
  refused : ∀ fault, (base.merge environment).2 = some fault →
    ∃ (front : List (Text × Text)) (setting : Setting) (text : Text) (behind : List (Text × Text)),
      environment = front ++ (setting.environmentName, text) :: behind ∧ setting.value? text = none ∧
        fault = setting.refusal text ∧ Layered front base (base.merge environment).1
  ignored : ∀ front name text behind, environment = front ++ (name, text) :: behind →
    (∀ setting : Setting, name ≠ setting.environmentName) →
    base.merge environment = base.merge (front ++ behind)
  permuted : ∀ other, environment.Perm other →
    ((base.merge other).2 = none ↔ (base.merge environment).2 = none) ∧
      ((base.merge environment).2 = none → base.merge other = base.merge environment)
  loaded : ∀ path disk loaded, load path environment disk = .ok loaded ↔
    ∃ start, document path disk = .ok start ∧ Acceptable environment ∧ Layered environment start loaded

theorem environmentLayer (distinct : (environment.map Prod.fst).Nodup) (base : Settings) :
    EnvironmentLayer environment base := by
  have run := merge_merges environment base
  constructor
  case accepted => exact run.accepted
  case layered => exact fun succeeded => run.layered succeeded distinct
  case known =>
    intro name failed
    obtain ⟨_, setting, text, _, _, _, _, said⟩ := run.front failed
    cases setting <;> cases said
  case refused =>
    intro fault failed
    obtain ⟨front, setting, text, behind, whole, taken, unread, said⟩ := run.front failed
    have apart : (front.map Prod.fst).Nodup := by
      rw [whole, List.map_append] at distinct
      exact (List.nodup_append.mp distinct).1
    exact ⟨front, setting, text, behind, whole, unread, said, taken.layered rfl apart⟩
  case ignored =>
    intro front name text behind whole unknown
    rw [whole]
    exact merge_without unknown text front behind base
  case permuted =>
    intro other perm
    refine ⟨?_, merge_perm perm distinct base⟩
    rw [merge_accepted, merge_accepted]
    exact acceptable_perm perm
  case loaded => exact fun path disk _ => load_exact path disk distinct

-- An attempt succeeds for a known name and a value of that setting. It then changes that setting
-- alone, and otherwise nothing.
structure AttemptOutcome (name text : Text) (settings : Settings) : Prop where
  accepted : (settings.attempt name text).2 = none ↔
    ∃ setting : Setting, name = setting.name ∧ (setting.value? text).isSome
  changed : ∀ setting : Setting, name = setting.name → (settings.attempt name text).2 = none →
    ∃ value, setting.value? text = some value ∧ settings.Changes setting value (settings.attempt name text).1
  refused : ∀ fault, (settings.attempt name text).2 = some fault → (settings.attempt name text).1 = settings

theorem attemptOutcome (name text : Text) (settings : Settings) : AttemptOutcome name text settings := by
  rcases settings.attempt_cases name text with
    ⟨setting, value, changed, named, read, done, changes⟩ | ⟨setting, named, unread, done⟩ | ⟨unknown, done⟩
  · constructor
    case accepted => simpa [done] using ⟨setting, named, by rw [read]; rfl⟩
    case changed =>
      intro other same _
      cases Setting.name_injective (named.symm.trans same)
      exact ⟨value, read, by rw [done]; exact changes⟩
    case refused => simp [done]
  · constructor
    case accepted =>
      simp only [done, reduceCtorEq, false_iff, not_exists, not_and]
      intro other same
      cases Setting.name_injective (named.symm.trans same)
      simp [unread]
    case changed => simp [done]
    case refused => simp [done]
  · constructor
    case accepted =>
      simp only [done, reduceCtorEq, false_iff, not_exists, not_and]
      intro setting same
      exact absurd same (unknown setting)
    case changed => simp [done]
    case refused => simp [done]

end Settings

structure ArgumentLayer (arguments : Arguments) (settings result : Settings) : Prop where
  output : result.output = arguments.output.getD settings.output
  jobs : result.jobs = arguments.jobs.getD settings.jobs
  recursive : result.recursive = (settings.recursive || arguments.recursive)
  publicOnly : result.publicOnly = (settings.publicOnly || arguments.publicOnly)
  silent : result.silent = (settings.silent || arguments.silent)
  verbose : result.verbose = ((settings.verbose || arguments.verbose) && !result.silent)
  exclusive : ¬(result.silent = true ∧ result.verbose = true)
  repeated : arguments.apply result = result

theorem Arguments.apply_exclusive (arguments : Arguments) (settings : Settings) :
    ¬((arguments.apply settings).silent = true ∧ (arguments.apply settings).verbose = true) := by
  unfold Arguments.apply
  dsimp only
  intro ⟨silent, verbose⟩
  rw [silent, Bool.not_true, Bool.and_false] at verbose
  cases verbose

theorem Arguments.apply_apply (arguments : Arguments) (settings : Settings) :
    arguments.apply (arguments.apply settings) = arguments.apply settings := by
  have replaced : ∀ {α : Type} (given : Option α) (old : α), given.getD (given.getD old) = given.getD old := by
    intro α given old
    cases given <;> rfl
  have joined : ∀ old given : Bool, (old || given || given) = (old || given) := by decide
  have hushed : ∀ old given silent : Bool,
      (((old || given) && !silent || given) && !silent) = ((old || given) && !silent) := by decide
  unfold Arguments.apply
  simp only [replaced, joined, hushed]

theorem settings_layered (environment : List (Text × Text)) (distinct : (environment.map Prod.fst).Nodup)
    (name text : Text) (arguments : Arguments) (settings : Settings) :
    settings.EnvironmentLayer environment ∧ settings.AttemptOutcome name text ∧
      ArgumentLayer arguments settings (arguments.apply settings) :=
  ⟨Settings.environmentLayer distinct settings, Settings.attemptOutcome name text settings,
    rfl, rfl, rfl, rfl, rfl, rfl, arguments.apply_exclusive settings, arguments.apply_apply settings⟩

def mixedVariables : List (Text × Text) :=
  [("ASIGEN_JOBS", " 4"), ("PATH", "/bin"), ("ASIGEN_SILENT", "Yes")].map fun (name, text) => (name.toList, text.toList)

theorem settings_layered_reversed :
    (mixedVariables.map Prod.fst).Nodup ∧
      Settings.merge mixedVariables {} = ({ silent := true, jobs := 4 }, none) ∧
      Settings.merge mixedVariables.reverse {} = ({ silent := true, jobs := 4 }, none) := by
  have distinct : (mixedVariables.map Prod.fst).Nodup := by decide
  have merged : Settings.merge mixedVariables {} = ({ silent := true, jobs := 4 }, none) := by decide
  have layer := (settings_layered mixedVariables distinct [] [] {} {}).1
  have same := (layer.permuted _ (List.reverse_perm mixedVariables).symm).2 (by rw [merged])
  exact ⟨distinct, merged, same.trans merged⟩

end Intrinsics
