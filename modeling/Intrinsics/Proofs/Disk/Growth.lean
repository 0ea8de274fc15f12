import Intrinsics.Disk.Basic

namespace Intrinsics
open Text

-- What a run leaves behind on a disk. Nothing is ever removed and no directory becomes a
-- file, so a path that leads somewhere goes on leading there.

theorem bind_eq_ok {ε α β : Type} {first : Except ε α} {next : α → Except ε β} {value : β} :
    (first >>= next) = .ok value ↔ ∃ middle, first = .ok middle ∧ next middle = .ok value := by
  cases first <;> simp [bind, Except.bind]

namespace Disk

def fileAt? (disk : Disk) (location : Location) : Option (List UInt8) :=
  match disk.at? location with
  | some (.file bytes) => some bytes
  | _ => none

theorem fileAt?_put {location : Location} (inner : location ≠ []) (entry : Entry) (disk : Disk)
    (other : Location) : (disk.put location entry).fileAt? other =
      if other = location then (match entry with | .file bytes => some bytes | .directory => none)
      else disk.fileAt? other := by
  unfold fileAt?
  rw [at?_put inner]
  by_cases same : other = location
  · cases entry <;> simp [same]
  · simp [same]

theorem read_eq_ok {disk : Disk} {path : Path} {bytes : List UInt8} : disk.read path = .ok bytes ↔
    ∃ location, disk.locate path = .ok location ∧ disk.fileAt? location = some bytes := by
  rw [read, bind_eq_ok]
  refine exists_congr fun location => and_congr_right fun _ => ?_
  unfold fileAt?
  cases disk.at? location with
  | none => simp
  | some entry => cases entry <;> simp [pure, Except.pure]

structure Grows (before after : Disk) : Prop where
  workingDirectory : after.workingDirectory = before.workingDirectory
  directories : ∀ location, before.at? location = some .directory → after.at? location = some .directory
  present : ∀ location, (before.at? location).isSome → (after.at? location).isSome

theorem Grows.refl (disk : Disk) : Grows disk disk := ⟨rfl, fun _ held => held, fun _ held => held⟩

theorem Grows.trans {before middle after : Disk} (first : Grows before middle) (second : Grows middle after) :
    Grows before after :=
  ⟨second.workingDirectory.trans first.workingDirectory,
    fun location held => second.directories location (first.directories location held),
    fun location held => second.present location (first.present location held)⟩

theorem put_grows {disk : Disk} {location : Location} {entry : Entry} (inner : location ≠ [])
    (kept : disk.at? location = some .directory → entry = .directory) : Grows disk (disk.put location entry) := by
  refine ⟨rfl, ?_, ?_⟩
  · intro other held
    rw [at?_put inner]
    split
    · rename_i same
      rw [kept (same ▸ held)]
    · exact held
  · intro other held
    rw [at?_put inner]
    split
    · rfl
    · exact held

-- Everything that one name can lead to.
theorem enter_eq_ok {disk : Disk} {here location : Location} {name : Text} :
    disk.enter here name = .ok location ↔ disk.at? here = some .directory ∧
      ((name = ['.'] ∧ here = location) ∨ (name = ['.', '.'] ∧ here.dropLast = location) ∨
        (name ≠ ['.'] ∧ name ≠ ['.', '.'] ∧ byteLength name ≤ maxName ∧
          (disk.at? (here ++ [name])).isSome ∧ here ++ [name] = location)) := by
  unfold enter
  by_cases directory : disk.at? here = some .directory
  · by_cases same : name = ['.']
    · simp [directory, same]
    · by_cases up : name = ['.', '.']
      · simp [directory, up]
      · by_cases long : maxName < byteLength name
        · have refused : ¬ byteLength name ≤ maxName := by omega
          simp [directory, same, up, long, refused]
        · have short : byteLength name ≤ maxName := by omega
          cases disk.at? (here ++ [name]) <;> simp [directory, same, up, long, short]
  · simp [directory]

theorem enter_grows {before after : Disk} (growth : Grows before after) {here location : Location} {name : Text}
    (entered : before.enter here name = .ok location) : after.enter here name = .ok location := by
  obtain ⟨directory, place⟩ := enter_eq_ok.mp entered
  refine enter_eq_ok.mpr ⟨growth.directories here directory, ?_⟩
  rcases place with here | up | ⟨notHere, notUp, short, held, same⟩
  · exact .inl here
  · exact .inr (.inl up)
  · exact .inr (.inr ⟨notHere, notUp, short, growth.present _ held, same⟩)

theorem follow_grows {before after : Disk} (growth : Grows before after) {here location : Location}
    {names : List Text} (followed : before.follow here names = .ok location) :
    after.follow here names = .ok location := by
  induction names generalizing here with
  | nil => exact followed
  | cons name names ih =>
    obtain ⟨middle, entered, later⟩ := bind_eq_ok.mp followed
    exact bind_eq_ok.mpr ⟨middle, enter_grows growth entered, ih later⟩

theorem locate_grows {before after : Disk} (growth : Grows before after) {path : Path} {location : Location}
    (located : before.locate path = .ok location) : after.locate path = .ok location := by
  obtain ⟨_, checked, followed⟩ := bind_eq_ok.mp located
  refine bind_eq_ok.mpr ⟨(), checked, ?_⟩
  have same : after.origin path = before.origin path := by
    simp [origin, growth.workingDirectory]
  rw [same]
  exact follow_grows growth followed

theorem follow_append {disk : Disk} {here middle location : Location} {names later : List Text}
    (first : disk.follow here names = .ok middle) (second : disk.follow middle later = .ok location) :
    disk.follow here (names ++ later) = .ok location := by
  induction names generalizing here with
  | nil =>
    cases first
    exact second
  | cons name names ih =>
    obtain ⟨next, entered, behind⟩ := bind_eq_ok.mp first
    exact bind_eq_ok.mpr ⟨next, entered, ih behind⟩

theorem place_eq_some {disk : Disk} {path : Path} {here : Location} {name : Text}
    (placed : disk.place path = .ok (some (here, name))) :
    check path = .ok () ∧ path.segments = path.segments.dropLast ++ [name] ∧
      disk.follow (disk.origin path) path.segments.dropLast = .ok here ∧
      disk.at? here = some .directory ∧ name ≠ ['.'] ∧ name ≠ ['.', '.'] ∧ byteLength name ≤ maxName := by
  obtain ⟨_, checked, placed⟩ := bind_eq_ok.mp placed
  obtain ⟨found, followed, placed⟩ := bind_eq_ok.mp placed
  dsimp only at placed
  split at placed
  · cases placed
  · rename_i directory
    split at placed
    · cases placed
    · rename_i last ends
      split at placed
      · cases placed
      · rename_i named
        split at placed
        · cases placed
        · rename_i short
          cases placed
          obtain ⟨notHere, notUp⟩ := not_or.mp named
          obtain ⟨front, whole⟩ := List.getLast?_eq_some_iff.mp ends
          have parts : path.segments = path.segments.dropLast ++ [name] := by
            rw [whole, List.dropLast_concat]
          exact ⟨checked, parts, followed, Decidable.not_not.mp directory, notHere, notUp,
            Nat.le_of_not_lt short⟩

structure Spreads (before after : Disk) : Prop extends Grows before after where
  files : ∀ location, after.fileAt? location = before.fileAt? location

theorem Spreads.refl (disk : Disk) : Spreads disk disk := ⟨.refl disk, fun _ => rfl⟩

theorem Spreads.trans {before middle after : Disk} (first : Spreads before middle)
    (second : Spreads middle after) : Spreads before after :=
  ⟨first.toGrows.trans second.toGrows, fun location => (second.files location).trans (first.files location)⟩

theorem makeDirectory_spreads {disk made : Disk} {path : Path} (ok : disk.makeDirectory path = .ok made) :
    Spreads disk made := by
  obtain ⟨place, placed, result⟩ := bind_eq_ok.mp ok
  cases place with
  | none => cases result
  | some parts =>
    obtain ⟨here, name⟩ := parts
    dsimp only at result
    split at result
    · cases result
    · rename_i free
      cases result
      have inner : here ++ [name] ≠ [] := by simp
      have empty : disk.at? (here ++ [name]) = none := by simpa using free
      refine ⟨put_grows inner fun _ => rfl, ?_⟩
      intro other
      rw [fileAt?_put inner]
      split
      · rename_i same
        simp [fileAt?, same, empty]
      · rfl

theorem makeDirectories_spreads (path : Path) (disk : Disk) : Spreads disk (disk.makeDirectories path).1 := by
  fun_induction makeDirectories path disk
  case case1 | case3 | case8 | case9 => exact .refl _
  case case2 ok => exact makeDirectory_spreads ok
  case case4 above ih | case6 above _ _ _ ih | case7 above _ _ _ ih =>
    rw [above] at ih
    exact ih
  case case5 above _ ok ih =>
    rw [above] at ih
    exact ih.trans (makeDirectory_spreads ok)

-- A file is written at the location that its path leads to from then on.
theorem write_stores {disk after : Disk} {path : Path} {bytes : List UInt8}
    (ok : disk.write path bytes = .ok after) :
    Grows disk after ∧ ∃ location, after.locate path = .ok location ∧
      ∀ other, after.fileAt? other = if other = location then some bytes else disk.fileAt? other := by
  obtain ⟨place, placed, result⟩ := bind_eq_ok.mp ok
  cases place with
  | none => cases result
  | some parts =>
    obtain ⟨here, name⟩ := parts
    obtain ⟨checked, parts, followed, directory, notHere, notUp, short⟩ := place_eq_some placed
    dsimp only at result
    split at result
    · cases result
    · rename_i plain
      split at result
      · cases result
      · rename_i free
        cases result
        have inner : here ++ [name] ≠ [] := by simp
        have growth : Grows disk (disk.put (here ++ [name]) (.file bytes)) :=
          put_grows inner fun held => absurd held free
        have entered : (disk.put (here ++ [name]) (.file bytes)).enter here name = .ok (here ++ [name]) := by
          refine enter_eq_ok.mpr ⟨growth.directories here directory, .inr (.inr ⟨notHere, notUp, short, ?_, rfl⟩)⟩
          simp [at?_put inner]
        refine ⟨growth, here ++ [name], bind_eq_ok.mpr ⟨(), checked, ?_⟩, fun other => fileAt?_put inner _ _ other⟩
        simp only [plain, if_false]
        rw [parts]
        exact follow_append (follow_grows growth followed) (bind_eq_ok.mpr ⟨_, entered, rfl⟩)

end Disk
end Intrinsics
