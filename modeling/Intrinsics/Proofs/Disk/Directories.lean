import Intrinsics.Proofs.Disk.Growth
import Intrinsics.Proofs.Path.Components
import Mathlib.Data.List.Induction

namespace Intrinsics
open Text

-- Making directories along a path. Where every entry on the way is a directory, the missing ones
-- can be made, and nothing else changes.

-- A name that stands for itself wherever it is looked up.
structure OrdinaryName (name : Text) : Prop where
  notHere : name ≠ ['.']
  notUp : name ≠ ['.', '.']
  zeroless : '\x00' ∉ name

structure FittingName (name : Text) : Prop extends OrdinaryName name where
  short : byteLength name ≤ Disk.maxName

structure Path.Fits (path : Path) : Prop where
  short : byteLength path < Disk.maxPath
  shortNames : ∀ name ∈ path.segments, byteLength name ≤ Disk.maxName

structure Path.Usable (path : Path) : Prop extends Path.Fits path where
  ordinary : ∀ name ∈ path.segments, OrdinaryName name

namespace Path

theorem byteLength_begins {front path : Path} (begins : front <+: path) : byteLength front ≤ byteLength path := by
  obtain ⟨more, rfl⟩ := begins
  rw [byteLength_append]
  omega

namespace Usable

variable {path : Path}

theorem withoutHere (usable : path.Usable) : ['.'] ∉ path.segments :=
  fun member => (usable.ordinary _ member).notHere rfl

theorem parent {above : Path} (usable : path.Usable) (lies : path.parent? = some above) : above.Usable := by
  obtain ⟨names, _, begins⟩ := parent?_names usable.withoutHere lies
  have within : ∀ name ∈ above.segments, name ∈ path.segments := by
    rw [names]
    exact List.dropLast_subset path.segments
  refine ⟨⟨?_, fun name member => usable.shortNames name (within name member)⟩,
    fun name member => usable.ordinary name (within name member)⟩
  exact Nat.lt_of_le_of_lt (byteLength_begins begins) usable.short

theorem names (usable : path.Usable) : ∀ name ∈ path.segments, FittingName name :=
  fun name member => ⟨usable.ordinary name member, usable.shortNames name member⟩

theorem checked (usable : path.Usable) (held : path ≠ []) : Disk.check path = .ok () := by
  have zeroless : '\x00' ∉ path := by
    intro member
    obtain ⟨name, segment, inside⟩ := mem_segments member (by decide)
    exact (usable.ordinary name segment).zeroless inside
  have short : ¬ Disk.maxPath ≤ byteLength path := Nat.not_le.mpr usable.short
  simp [Disk.check, zeroless, held, short]

theorem split {names : List Text} {last : Text} (usable : path.Usable) (parts : path.segments = names ++ [last]) :
    Disk.check path = .ok () ∧ (∀ name ∈ names, FittingName name) ∧ FittingName last := by
  have held : path ≠ [] := by
    rintro rfl
    simp at parts
  have fitting := usable.names
  rw [parts] at fitting
  refine ⟨usable.checked held, ?_, fitting last (by simp)⟩
  exact fun name member => fitting name (List.mem_append_left _ member)

end Usable
end Path

namespace Disk

variable {disk after : Disk} {base : Location} {names : List Text} {path : Path}

-- At and below a location every entry lies in a directory.
def Nested (disk : Disk) (base : Location) : Prop :=
  ∀ location name, base <+: location → (disk.at? (location ++ [name])).isSome → disk.at? location = some .directory

def Standing (disk : Disk) (base : Location) (names : List Text) : Prop :=
  ∀ front, front <+: names → disk.at? (base ++ front) = some .directory

theorem Nested.above (nested : disk.Nested base) (held : disk.at? (base ++ names) = some .directory) :
    disk.Standing base names := by
  induction names using List.reverseRecOn with
  | nil =>
    intro front begins
    rw [List.prefix_nil.mp begins]
    exact held
  | append_singleton names last ih =>
    intro front begins
    rcases List.prefix_concat_iff.mp begins with whole | shorter
    · rw [whole]
      exact held
    · rw [← List.append_assoc] at held
      exact ih (nested _ last (List.prefix_append base names) (by rw [held]; rfl)) front shorter

-- The names lead down from a directory through directories only, as far as anything is there.
structure Way (disk : Disk) (base : Location) (names : List Text) : Prop where
  start : disk.at? base = some .directory
  nested : disk.Nested base
  clear : ∀ front, front <+: names → ∀ bytes, disk.at? (base ++ front) ≠ some (.file bytes)

-- All the way is there, and all else is as before.
structure LaidOut (base : Location) (names : List Text) (before after : Disk) : Prop where
  workingDirectory : after.workingDirectory = before.workingDirectory
  standing : after.Standing base names
  elsewhere : ∀ location, (∀ front, front <+: names → location ≠ base ++ front) →
    after.at? location = before.at? location

namespace LaidOut

theorem at?_cases (laid : LaidOut base names disk after) (location : Location) :
    (∃ front, front <+: names ∧ location = base ++ front) ∨ after.at? location = disk.at? location := by
  by_cases along : ∃ front, front <+: names ∧ location = base ++ front
  · exact .inl along
  · exact .inr (laid.elsewhere location fun front begins same => along ⟨front, begins, same⟩)

theorem directories (laid : LaidOut base names disk after) {location : Location}
    (held : disk.at? location = some .directory) : after.at? location = some .directory := by
  rcases laid.at?_cases location with ⟨front, begins, rfl⟩ | same
  · exact laid.standing front begins
  · rw [same, held]

theorem files (laid : LaidOut base names disk after) {location : Location} {bytes : List UInt8}
    (held : after.at? location = some (.file bytes)) : disk.at? location = some (.file bytes) := by
  rcases laid.at?_cases location with ⟨front, begins, rfl⟩ | same
  · rw [laid.standing front begins] at held
    cases held
  · rw [← same, held]

theorem nested (laid : LaidOut base names disk after) (old : disk.Nested base) : after.Nested base := by
  intro location name below held
  rcases laid.at?_cases (location ++ [name]) with ⟨front, begins, along⟩ | same
  · obtain ⟨inner, rfl⟩ := below
    rw [List.append_assoc, List.append_cancel_left_eq] at along
    rw [← along] at begins
    exact laid.standing inner ((List.prefix_append inner [name]).trans begins)
  · rw [same] at held
    exact laid.directories (old location name below held)

theorem way {more : List Text} (laid : LaidOut base names disk after) (old : disk.Way base more) :
    after.Way base more where
  start := laid.directories old.start
  nested := laid.nested old.nested
  clear front begins bytes held := old.clear front begins bytes (laid.files held)

theorem trans {middle : Disk} {more : List Text} (first : LaidOut base names disk middle)
    (second : LaidOut base more middle after) (longer : names <+: more) : LaidOut base more disk after where
  workingDirectory := second.workingDirectory.trans first.workingDirectory
  standing := second.standing
  elsewhere location other := by
    rw [second.elsewhere location other]
    exact first.elsewhere location fun front begins => other front (begins.trans longer)

end LaidOut

theorem enter_fitting {here : Location} {name : Text} (start : disk.at? here = some .directory)
    (fitting : FittingName name) : disk.enter here name =
      if (disk.at? (here ++ [name])).isNone then .error .notFound else .ok (here ++ [name]) := by
  have fits : ¬ maxName < byteLength name := Nat.not_lt.mpr fitting.short
  simp only [enter, start, ne_eq, not_true_eq_false, fitting.notHere, fitting.notUp, fits, if_false]

section Follow

variable {here : Location}

theorem follow_ordinary {location : Location} (ordinary : ∀ name ∈ names, OrdinaryName name)
    (followed : disk.follow here names = .ok location) : location = here ++ names := by
  induction names generalizing here with
  | nil =>
    cases followed
    rw [List.append_nil]
  | cons name names ih =>
    rw [List.forall_mem_cons] at ordinary
    obtain ⟨middle, entered, later⟩ := bind_eq_ok.mp followed
    obtain ⟨_, here | up | ⟨_, _, _, _, rfl⟩⟩ := enter_eq_ok.mp entered
    · exact absurd here.1 ordinary.1.notHere
    · exact absurd up.1 ordinary.1.notUp
    · rw [ih ordinary.2 later, List.append_assoc, List.singleton_append]

theorem locate_ordinary {location : Location} (ordinary : ∀ name ∈ path.segments, OrdinaryName name)
    (plain : path.getLast? ≠ some '/') (located : disk.locate path = .ok location) :
    location = disk.origin path ++ path.segments := by
  obtain ⟨_, _, followed⟩ := bind_eq_ok.mp located
  rw [if_neg plain] at followed
  exact follow_ordinary ordinary followed

theorem follow_directories (fitting : ∀ name ∈ names, FittingName name) (standing : disk.Standing here names) :
    disk.follow here names = .ok (here ++ names) := by
  induction names generalizing here with
  | nil => rw [follow, List.append_nil]
  | cons name names ih =>
    rw [List.forall_mem_cons] at fitting
    have first := standing [] List.nil_prefix
    have second := standing [name] ⟨names, rfl⟩
    rw [List.append_nil] at first
    rw [follow, enter_fitting first fitting.1, second, List.append_cons here name names]
    refine ih fitting.2 ?_
    intro front begins
    rw [List.append_assoc]
    exact standing (name :: front) (List.cons_prefix_cons.mpr ⟨rfl, begins⟩)

theorem follow_missing (fitting : ∀ name ∈ names, FittingName name) (start : disk.at? here = some .directory)
    (clear : ∀ front, front <+: names → ∀ bytes, disk.at? (here ++ front) ≠ some (.file bytes))
    (missing : disk.at? (here ++ names) = none) : disk.follow here names = .error .notFound := by
  induction names generalizing here with
  | nil =>
    rw [List.append_nil, start] at missing
    cases missing
  | cons name names ih =>
    rw [List.forall_mem_cons] at fitting
    rw [follow, enter_fitting start fitting.1]
    cases next : disk.at? (here ++ [name]) with
    | none => rfl
    | some entry =>
      cases entry with
      | file bytes => exact absurd next (clear [name] ⟨names, rfl⟩ bytes)
      | directory =>
        rw [List.append_cons] at missing
        refine ih fitting.2 next ?_ missing
        intro front begins
        rw [List.append_assoc]
        exact clear (name :: front) (List.cons_prefix_cons.mpr ⟨rfl, begins⟩)

end Follow

section Place

variable {last : Text}

theorem place_standing (usable : path.Usable) (parts : path.segments = names ++ [last])
    (standing : disk.Standing (disk.origin path) names) :
    disk.place path = .ok (some (disk.origin path ++ names, last)) := by
  obtain ⟨checked, front, own⟩ := usable.split parts
  have fits : ¬ maxName < byteLength last := Nat.not_lt.mpr own.short
  have directory := standing names (List.prefix_refl names)
  refine bind_eq_ok.mpr ⟨(), checked, bind_eq_ok.mpr ⟨disk.origin path ++ names, ?_, ?_⟩⟩
  · rw [parts, List.dropLast_concat]
    exact follow_directories front standing
  · simp only [directory, parts, List.getLast?_concat, own.notHere, own.notUp, fits]
    rfl

theorem place_missing (usable : path.Usable) (way : disk.Way (disk.origin path) names)
    (parts : path.segments = names ++ [last]) (missing : disk.at? (disk.origin path ++ names) = none) :
    disk.place path = .error .notFound := by
  obtain ⟨checked, front, _⟩ := usable.split parts
  have refused := follow_missing front way.start way.clear missing
  simp only [place, checked, parts, List.dropLast_concat, refused]
  rfl

theorem place_root (usable : path.Usable) (held : path ≠ []) (start : disk.at? (disk.origin path) = some .directory)
    (parts : path.segments = []) : disk.place path = .ok none := by
  refine bind_eq_ok.mpr ⟨(), usable.checked held, bind_eq_ok.mpr ⟨disk.origin path, ?_, ?_⟩⟩
  · rw [parts]
    rfl
  · simp only [start, parts, List.getLast?_nil]
    rfl

end Place

theorem locate_standing (usable : path.Usable) (held : path ≠ [])
    (standing : disk.Standing (disk.origin path) path.segments) :
    disk.locate path = .ok (disk.origin path ++ path.segments) := by
  have followed := follow_directories usable.names standing
  refine bind_eq_ok.mpr ⟨(), usable.checked held, ?_⟩
  dsimp only
  split
  · have directory := standing path.segments (List.prefix_refl path.segments)
    have here : disk.enter (disk.origin path ++ path.segments) ['.'] = .ok (disk.origin path ++ path.segments) :=
      enter_eq_ok.mpr ⟨directory, .inl ⟨rfl, rfl⟩⟩
    exact follow_append followed (bind_eq_ok.mpr ⟨_, here, rfl⟩)
  · exact followed

theorem LaidOut.already (standing : disk.Standing base names) :
    LaidOut base names disk disk := ⟨rfl, standing, fun _ _ => rfl⟩

theorem LaidOut.put {last : Text} (standing : disk.Standing base names) :
    LaidOut base (names ++ [last]) disk (disk.put (base ++ (names ++ [last])) .directory) := by
  have inner : base ++ (names ++ [last]) ≠ [] := by simp
  refine ⟨rfl, ?_, ?_⟩
  · intro front begins
    rw [at?_put inner]
    rcases List.prefix_concat_iff.mp begins with rfl | shorter
    · rw [if_pos rfl]
    · split
      · rfl
      · exact standing front shorter
  · intro location other
    rw [at?_put inner, if_neg (other _ (List.prefix_refl _))]

theorem origin_eq {one other : Path} (same : after.workingDirectory = disk.workingDirectory)
    (aligned : one.isAbsolute = other.isAbsolute) : after.origin one = disk.origin other := by
  rw [origin, origin, same, aligned]

theorem makeDirectory_placed {here : Location} {name : Text} (placed : disk.place path = .ok (some (here, name))) :
    disk.makeDirectory path =
      if (disk.at? (here ++ [name])).isSome then .error .exists else .ok (disk.put (here ++ [name]) .directory) := by
  simp only [makeDirectory, placed]
  change (if _ then _ else _) = _
  split <;> rfl

theorem makeDirectory_existing (usable : path.Usable) (held : path ≠ [])
    (standing : disk.Standing (disk.origin path) path.segments) :
    disk.makeDirectory path = .error .exists ∧ disk.isDirectory path = true := by
  have directory := standing path.segments (List.prefix_refl path.segments)
  constructor
  · rcases List.eq_nil_or_concat path.segments with root | ⟨names, last, parts⟩
    · have start := standing [] List.nil_prefix
      rw [List.append_nil] at start
      rw [makeDirectory, place_root usable held start root]
      rfl
    · rw [List.concat_eq_append] at parts
      have front : names <+: path.segments := parts ▸ List.prefix_append names [last]
      rw [makeDirectory_placed (place_standing usable parts fun other begins => standing other (begins.trans front)),
        List.append_assoc, ← parts, directory]
      rfl
  · simp [isDirectory, entry?, locate_standing usable held standing, directory]

-- One directory: it is there, or it is made, or the one that it would lie in is missing.
theorem makeDirectory_way (usable : path.Usable) (held : path ≠ []) (way : disk.Way (disk.origin path) path.segments) :
    (disk.makeDirectory path = .error .exists ∧ disk.isDirectory path = true ∧
      LaidOut (disk.origin path) path.segments disk disk) ∨
    (∃ made, disk.makeDirectory path = .ok made ∧ LaidOut (disk.origin path) path.segments disk made) ∨
    (disk.makeDirectory path = .error .notFound ∧ path.parent? ≠ none ∧
      disk.at? (disk.origin path ++ path.segments.dropLast) = none) := by
  cases own : disk.at? (disk.origin path ++ path.segments) with
  | some entry =>
    cases entry with
    | file bytes => exact absurd own (way.clear _ (List.prefix_refl _) bytes)
    | directory =>
      have standing := way.nested.above own
      obtain ⟨refused, there⟩ := makeDirectory_existing usable held standing
      exact .inl ⟨refused, there, .already standing⟩
  | none =>
    rcases List.eq_nil_or_concat path.segments with root | ⟨names, last, parts⟩
    · rw [root, List.append_nil, way.start] at own
      cases own
    · rw [List.concat_eq_append] at parts
      have front : names <+: path.segments := parts ▸ List.prefix_append names [last]
      right
      cases above : disk.at? (disk.origin path ++ names) with
      | none =>
        have shorter : disk.Way (disk.origin path) names :=
          ⟨way.start, way.nested, fun other begins => way.clear other (begins.trans front)⟩
        refine .inr ⟨?_, ?_, ?_⟩
        · rw [makeDirectory, place_missing usable shorter parts above]
          rfl
        · intro orphan
          rw [Path.parent?_none usable.withoutHere orphan] at parts
          simp at parts
        · rw [parts, List.dropLast_concat]
          exact above
      | some entry =>
        cases entry with
        | file bytes => exact absurd above (way.clear names front bytes)
        | directory =>
          have standing := way.nested.above above
          refine .inl ⟨disk.put (disk.origin path ++ (names ++ [last])) .directory, ?_, ?_⟩
          · rw [makeDirectory_placed (place_standing usable parts standing), List.append_assoc, ← parts, own]
            rfl
          · rw [parts]
            exact .put standing

theorem LaidOut.makeDirectory_way {parent : Path} (usable : path.Usable) (held : path ≠ [])
    (way : disk.Way (disk.origin path) path.segments) (lies : path.parent? = some parent)
    (laid : LaidOut (disk.origin parent) parent.segments disk after) :
    (after.makeDirectory path = .error .exists ∧ after.isDirectory path = true ∧
      LaidOut (disk.origin path) path.segments disk after) ∨
    (∃ made, after.makeDirectory path = .ok made ∧ LaidOut (disk.origin path) path.segments disk made) := by
  obtain ⟨names, absolute, _⟩ := Path.parent?_names usable.withoutHere lies
  have same : after.origin path = disk.origin path := origin_eq laid.workingDirectory rfl
  rw [origin_eq rfl absolute] at laid
  have longer : parent.segments <+: path.segments := names ▸ List.dropLast_prefix path.segments
  have onward := laid.way way
  rw [← same] at onward
  rcases Disk.makeDirectory_way usable held onward with ⟨refused, there, already⟩ | ⟨made, ok, more⟩ | ⟨_, _, missing⟩
  · rw [same] at already
    exact .inl ⟨refused, there, laid.trans already longer⟩
  · rw [same] at more
    exact .inr ⟨made, ok, laid.trans more longer⟩
  · rw [same, ← names, laid.standing _ (List.prefix_refl _)] at missing
    cases missing

theorem Way.parent {parent : Path} (usable : path.Usable) (way : disk.Way (disk.origin path) path.segments)
    (lies : path.parent? = some parent) : disk.Way (disk.origin parent) parent.segments := by
  obtain ⟨names, absolute, _⟩ := Path.parent?_names usable.withoutHere lies
  have longer : parent.segments <+: path.segments := names ▸ List.dropLast_prefix path.segments
  rw [origin_eq rfl absolute]
  exact ⟨way.start, way.nested, fun front begins => way.clear front (begins.trans longer)⟩

theorem makeDirectories_climbed {parent : Path} (held : path ≠ []) (refused : disk.makeDirectory path = .error .notFound)
    (lies : path.parent? = some parent) (climbed : (disk.makeDirectories parent).2 = none) :
    disk.makeDirectories path =
      match (disk.makeDirectories parent).1.makeDirectory path with
      | .ok made => (made, none)
      | .error fault =>
        if (disk.makeDirectories parent).1.isDirectory path then ((disk.makeDirectories parent).1, none)
        else ((disk.makeDirectories parent).1, some fault) := by
  rw [makeDirectories, if_neg (by simpa using held), refused]
  dsimp only
  split
  · rename_i orphan
    rw [lies] at orphan
    cases orphan
  · rename_i found
    obtain rfl := Option.some.inj (lies.symm.trans found)
    generalize disk.makeDirectories parent = result at climbed ⊢
    obtain ⟨above, fault⟩ := result
    cases climbed
    rfl

-- Along a way that is clear no directory is refused. Those above come first, so the recursion is
-- the function's own, by the length of the path.
theorem makeDirectories_way (path : Path) (usable : path.Usable) (way : disk.Way (disk.origin path) path.segments) :
    (disk.makeDirectories path).2 = none ∧
      LaidOut (disk.origin path) path.segments disk (disk.makeDirectories path).1 := by
  by_cases held : path = []
  · subst held
    rw [makeDirectories]
    refine ⟨rfl, .already ?_⟩
    intro front begins
    rw [List.prefix_nil.mp begins, List.append_nil]
    exact way.start
  · have inner : ¬ path.isEmpty := by simpa using held
    rcases makeDirectory_way usable held way with ⟨refused, there, laid⟩ | ⟨made, ok, laid⟩ | ⟨refused, child, _⟩
    · rw [makeDirectories, if_neg inner, refused]
      simp only [there]
      exact ⟨rfl, laid⟩
    · rw [makeDirectories, if_neg inner, ok]
      exact ⟨rfl, laid⟩
    · obtain ⟨parent, lies⟩ := Option.ne_none_iff_exists'.mp child
      obtain ⟨climbed, above⟩ := makeDirectories_way parent (usable.parent lies) (way.parent usable lies)
      rw [makeDirectories_climbed held refused lies climbed]
      rcases above.makeDirectory_way usable held way lies with ⟨refused, there, laid⟩ | ⟨made, ok, laid⟩
      · simp only [refused, there]
        exact ⟨rfl, laid⟩
      · rw [ok]
        exact ⟨rfl, laid⟩
termination_by path.length
decreasing_by exact Path.parent?_shorter lies

theorem write_standing {last : Text} (usable : path.Usable) (parts : path.segments = names ++ [last])
    (standing : disk.Standing (disk.origin path) names)
    (plain : path.getLast? ≠ some '/') (free : disk.at? (disk.origin path ++ (names ++ [last])) ≠ some .directory)
    (bytes : List UInt8) :
    disk.write path bytes = .ok (disk.put (disk.origin path ++ (names ++ [last])) (.file bytes)) := by
  rw [← List.append_assoc] at free ⊢
  simp only [write, place_standing usable parts standing]
  change (if _ then _ else if _ then _ else _) = _
  rw [if_neg plain, if_neg free]
  rfl

end Disk
end Intrinsics
