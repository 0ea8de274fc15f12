import Intrinsics.Proofs.Disk.Directories
import Intrinsics.Proofs.Text.ByteOrder
import Mathlib.Data.List.Nodup

namespace Intrinsics
open Text

-- Which sources a path stands for, and in which order. The files of a tree are told by the names
-- that lead to them, so the order is one of lists of names.

def Path.down (path : Path) (names : List Text) : Path := names.foldl Path.push path

namespace Disk

-- The entries of a file system: each location is taken once and lies in a directory, and its
-- names can be written in a path.
structure Tree (disk : Disk) : Prop where
  single : (disk.entries.map Prod.fst).Nodup
  inside : ∀ held ∈ disk.entries, disk.at? held.1.dropLast = some .directory
  spelt : ∀ held ∈ disk.entries, ∀ name ∈ held.1, name ≠ [] ∧ '/' ∉ name

-- Of two names in a directory a file comes before a directory; two files or two directories go by
-- the bytes of their names.
def FilesFirst (disk : Disk) (directory : Location) (first second : Text) : Prop :=
  (disk.at? (directory ++ [first]) ≠ some .directory ∧ disk.at? (directory ++ [second]) = some .directory) ∨
    ((disk.at? (directory ++ [first]) = some .directory ↔ disk.at? (directory ++ [second]) = some .directory) ∧
      Utf8.encode first < Utf8.encode second)

-- Two ways down from a directory go by the first names in which they differ.
def Precedes (disk : Disk) (directory : Location) (one other : List Text) : Prop :=
  ∃ common first second left right, one = common ++ first :: left ∧ other = common ++ second :: right ∧
    first ≠ second ∧ disk.FilesFirst (directory ++ common) first second

def HasFile (disk : Disk) (location : Location) : Prop := ∃ bytes, disk.at? location = some (.file bytes)

variable {disk : Disk} {directory : Location} {path : Path}

namespace Tree

theorem mem_entries (tree : disk.Tree) {location : Location} {entry : Entry} (inner : location ≠ []) :
    (location, entry) ∈ disk.entries ↔ disk.at? location = some entry := by
  rw [Disk.at?, if_neg inner, List.lookup_eq_some_iff]
  constructor
  · intro member
    obtain ⟨front, back, whole⟩ := List.append_of_mem member
    refine ⟨front, back, whole, ?_⟩
    intro held earlier
    have single := tree.single
    rw [whole, List.map_append, List.map_cons, List.nodup_append] at single
    rw [bne_iff_ne]
    exact (single.2.2 held.1 (List.mem_map_of_mem earlier) location List.mem_cons_self).symm
  · rintro ⟨front, back, whole, _⟩
    rw [whole]
    simp

theorem nested (tree : disk.Tree) : disk.Nested [] := by
  intro location name _ held
  obtain ⟨entry, there⟩ := Option.isSome_iff_exists.mp held
  have inside := tree.inside _ ((tree.mem_entries (by simp)).mpr there)
  rwa [List.dropLast_concat] at inside

theorem above (tree : disk.Tree) {names : List Text} {entry : Entry} (held : names ≠ [])
    (there : disk.at? (directory ++ names) = some entry) : disk.at? directory = some .directory := by
  obtain ⟨front, last, rfl⟩ : ∃ front last, names = front ++ [last] :=
    ⟨_, _, (List.dropLast_append_getLast held).symm⟩
  rw [← List.append_assoc] at there
  have nested : disk.Nested directory := fun location name _ => tree.nested location name List.nil_prefix
  have lowest := tree.nested _ last List.nil_prefix (by rw [there]; rfl)
  have standing := nested.above lowest [] List.nil_prefix
  rwa [List.append_nil] at standing

theorem names_spelt (tree : disk.Tree) {names : List Text} {entry : Entry} (held : names ≠ [])
    (there : disk.at? (directory ++ names) = some entry) : ∀ name ∈ names, name ≠ [] ∧ '/' ∉ name := by
  have member := (tree.mem_entries (by simp [held])).mpr there
  exact fun name inside => tree.spelt _ member name (List.mem_append_right directory inside)

end Tree

section Children

theorem child_place {location : Location} {entry : Entry} {child : Text × Entry}
    (found : (match location.getLast? with
      | some name => if location = directory ++ [name] then some (name, entry) else none
      | none => none) = some child) : location = directory ++ [child.1] ∧ entry = child.2 := by
  split at found
  · split at found
    · rename_i place
      cases found
      exact ⟨place, rfl⟩
    · cases found
  · cases found

theorem mem_children (tree : disk.Tree) {name : Text} {entry : Entry} :
    (name, entry) ∈ disk.children directory ↔ disk.at? (directory ++ [name]) = some entry := by
  rw [← tree.mem_entries (by simp)]
  simp only [children, List.mem_filterMap, Prod.exists]
  constructor
  · rintro ⟨location, held, member, found⟩
    obtain ⟨rfl, rfl⟩ := child_place found
    exact member
  · intro member
    exact ⟨_, _, member, by simp⟩

theorem children_single (tree : disk.Tree) :
    (disk.children directory).Pairwise fun one other => one.1 ≠ other.1 := by
  refine List.Pairwise.filterMap _ ?_ (List.pairwise_map.mp tree.single)
  intro one other apart child first sibling second same
  obtain ⟨place, _⟩ := child_place first
  obtain ⟨next, _⟩ := child_place second
  rw [place, next, same] at apart
  exact apart rfl

theorem sorted_children (tree : disk.Tree) {select : Text × Entry → Option Text}
    (own : ∀ child name, select child = some name → child.1 = name) :
    (sorted ((disk.children directory).filterMap select)).Pairwise
      fun left right => Utf8.encode left < Utf8.encode right := by
  apply sorted_ordered
  refine (children_single tree).filterMap select ?_
  intro one other apart left first right second same
  rw [← own one left first, ← own other right second] at same
  exact apart same

theorem mem_filesIn (tree : disk.Tree) {name : Text} :
    name ∈ disk.filesIn directory ↔ disk.HasFile (directory ++ [name]) := by
  rw [filesIn, (sorted_perm _).mem_iff]
  simp only [List.mem_filterMap, Prod.exists, mem_children tree, HasFile]
  constructor
  · rintro ⟨own, entry, there, found⟩
    cases entry with
    | file bytes =>
      cases found
      exact ⟨bytes, there⟩
    | directory => cases found
  · rintro ⟨bytes, there⟩
    exact ⟨name, .file bytes, there, rfl⟩

theorem mem_directoriesIn (tree : disk.Tree) {name : Text} :
    name ∈ disk.directoriesIn directory ↔ disk.at? (directory ++ [name]) = some .directory := by
  rw [directoriesIn, (sorted_perm _).mem_iff]
  simp only [List.mem_filterMap, Prod.exists, mem_children tree]
  constructor
  · rintro ⟨own, entry, there, found⟩
    cases entry with
    | file bytes => cases found
    | directory =>
      cases found
      exact there
  · intro there
    exact ⟨name, .directory, there, rfl⟩

theorem filesIn_ordered (tree : disk.Tree) : (disk.filesIn directory).Pairwise
    fun left right => Utf8.encode left < Utf8.encode right := by
  refine sorted_children tree ?_
  rintro ⟨own, entry⟩ name found
  cases entry <;> cases found
  rfl

theorem directoriesIn_ordered (tree : disk.Tree) : (disk.directoriesIn directory).Pairwise
    fun left right => Utf8.encode left < Utf8.encode right := by
  refine sorted_children tree ?_
  rintro ⟨own, entry⟩ name found
  cases entry <;> cases found
  rfl

end Children

-- All files below a directory down to a depth, by the names that lead to them: the files of a
-- directory first, then directory by directory what lies below.
def filesBelow (disk : Disk) : Nat → Location → List (List Text)
  | 0, _ => []
  | depth + 1, directory =>
    (disk.filesIn directory).map (fun name => [name]) ++
      (disk.directoriesIn directory).flatMap fun name =>
        (disk.filesBelow depth (directory ++ [name])).map (name :: ·)

theorem sourcesBelow_eq (depth : Nat) (directory : Location) (path : Path) :
    disk.sourcesBelow depth directory path =
      ((disk.filesBelow depth directory).map path.down).filter Path.isSource := by
  induction depth generalizing directory path with
  | zero => rfl
  | succ depth ih =>
    simp only [sourcesBelow, filesBelow, List.map_append, List.filter_append, List.map_map, ih, List.map_flatMap,
      List.filter_flatMap]
    rfl

theorem mem_filesBelow (tree : disk.Tree) {depth : Nat} {names : List Text} :
    names ∈ disk.filesBelow depth directory ↔
      names ≠ [] ∧ names.length ≤ depth ∧ disk.HasFile (directory ++ names) := by
  induction depth generalizing directory names with
  | zero =>
    cases names <;> simp [filesBelow]
  | succ depth ih =>
    simp only [filesBelow, List.mem_append, List.mem_map, List.mem_flatMap, mem_filesIn tree,
      mem_directoriesIn tree, ih]
    constructor
    · rintro (⟨name, there, rfl⟩ | ⟨name, _, rest, ⟨held, short, there⟩, rfl⟩)
      · exact ⟨by simp, by simp, there⟩
      · refine ⟨by simp, by simpa using short, ?_⟩
        rwa [List.append_assoc] at there
    · rintro ⟨held, short, there⟩
      cases names with
      | nil => exact absurd rfl held
      | cons name rest =>
        cases rest with
        | nil => exact .inl ⟨name, there, rfl⟩
        | cons next rest =>
          right
          rw [List.append_cons] at there
          obtain ⟨bytes, file⟩ := there
          have standing := tree.above (List.cons_ne_nil next rest) file
          exact ⟨name, standing, next :: rest, ⟨by simp, by simpa using short, bytes, file⟩, rfl⟩

theorem Precedes.cons {name : Text} {left right : List Text}
    (before : disk.Precedes (directory ++ [name]) left right) : disk.Precedes directory (name :: left) (name :: right) := by
  obtain ⟨common, first, second, rest, more, rfl, rfl, other, order⟩ := before
  rw [List.append_assoc] at order
  exact ⟨name :: common, first, second, rest, more, rfl, rfl, other, order⟩

theorem FilesFirst.precedes {first second : Text} (order : disk.FilesFirst directory first second)
    (left right : List Text) : disk.Precedes directory (first :: left) (second :: right) := by
  have other : first ≠ second := by
    rintro rfl
    rcases order with ⟨file, held⟩ | ⟨_, lower⟩
    · exact file held
    · exact List.lt_irrefl _ lower
  exact ⟨[], first, second, left, right, rfl, rfl, other, by rwa [List.append_nil]⟩

theorem HasFile.apart {location : Location} (file : disk.HasFile location) : disk.at? location ≠ some .directory := by
  obtain ⟨bytes, there⟩ := file
  rw [there]
  intro same
  cases same

theorem filesBelow_ordered (tree : disk.Tree) (depth : Nat) (directory : Location) :
    (disk.filesBelow depth directory).Pairwise (disk.Precedes directory) := by
  induction depth generalizing directory with
  | zero => exact .nil
  | succ depth ih =>
    have files : ∀ name ∈ disk.filesIn directory, disk.at? (directory ++ [name]) ≠ some .directory :=
      fun name member => ((mem_filesIn tree).mp member).apart
    have directories : ∀ name ∈ disk.directoriesIn directory, disk.at? (directory ++ [name]) = some .directory :=
      fun name => (mem_directoriesIn tree).mp
    rw [filesBelow, List.pairwise_append, List.pairwise_map, List.pairwise_flatMap]
    refine ⟨?_, ⟨?_, ?_⟩, ?_⟩
    · refine (filesIn_ordered tree).imp_of_mem ?_
      intro first second inside within lower
      refine FilesFirst.precedes (.inr ⟨?_, lower⟩) [] []
      exact iff_of_false (files first inside) (files second within)
    · intro name _
      rw [List.pairwise_map]
      exact (ih (directory ++ [name])).imp Precedes.cons
    · refine (directoriesIn_ordered tree).imp_of_mem ?_
      intro first second inside within lower one below other under
      obtain ⟨left, _, rfl⟩ := List.mem_map.mp below
      obtain ⟨right, _, rfl⟩ := List.mem_map.mp under
      refine FilesFirst.precedes (.inr ⟨?_, lower⟩) left right
      exact iff_of_true (directories first inside) (directories second within)
    · intro one file other below
      obtain ⟨first, inside, rfl⟩ := List.mem_map.mp file
      obtain ⟨second, within, below⟩ := List.mem_flatMap.mp below
      obtain ⟨right, _, rfl⟩ := List.mem_map.mp below
      exact FilesFirst.precedes (.inl ⟨files first inside, directories second within⟩) [] right

-- Nothing precedes itself, so an ordered list holds everything once.
instance : Std.Irrefl (disk.Precedes directory) where
  irrefl one := by
    rintro ⟨common, first, second, left, right, whole, same, apart, _⟩
    rw [whole, List.append_cancel_left_eq] at same
    exact apart (List.cons.inj same).1

theorem le_foldl_max {lengths : List Nat} {length start : Nat} (bound : length ∈ lengths ∨ length ≤ start) :
    length ≤ lengths.foldl max start := by
  induction lengths generalizing start with
  | nil =>
    rcases bound with member | low
    · cases member
    · exact low
  | cons first lengths ih =>
    apply ih
    rcases bound with member | low
    · rcases List.mem_cons.mp member with rfl | later
      · exact .inr (Nat.le_max_right start length)
      · exact .inl later
    · exact .inr (Nat.le_trans low (Nat.le_max_left start first))

theorem Tree.length_le_height (tree : disk.Tree) {location : Location} {entry : Entry}
    (there : disk.at? location = some entry) : location.length ≤ disk.height := by
  cases location with
  | nil => exact Nat.zero_le _
  | cons name names =>
    have member := (tree.mem_entries (List.cons_ne_nil name names)).mpr there
    exact le_foldl_max (.inl (List.mem_map_of_mem member))

-- The way down is told by the path: its names come behind those of the directory.
theorem Tree.down_injective (tree : disk.Tree) {one other : List Text} (first : disk.HasFile (directory ++ one))
    (second : disk.HasFile (directory ++ other)) (held : one ≠ []) (kept : other ≠ [])
    (same : path.down one = path.down other) : one = other := by
  have written : ∀ names, names ≠ [] → disk.HasFile (directory ++ names) →
      (path.down names).segments = path.segments ++ names := by
    intro names inner file
    obtain ⟨bytes, there⟩ := file
    have spelt := tree.names_spelt inner there
    have whole : names.filter (!·.isEmpty) = names := by
      apply List.filter_eq_self.mpr
      intro name member
      simpa using (spelt name member).1
    rw [Path.down, (Path.pushAll_names (fun name member => (spelt name member).2) path).1, whole]
  have names := congrArg Path.segments same
  rwa [written one held first, written other kept second, List.append_cancel_left_eq] at names

def isFile (disk : Disk) (path : Path) : Bool :=
  match disk.entry? path with
  | some (.file _) => true
  | _ => false

structure Discovered (disk : Disk) (directory : Location) (path : Path) : Prop where
  listed : ∃ found : List (List Text), disk.sources true [path] = found.map path.down ∧
    (∀ names, names ∈ found ↔ disk.HasFile (directory ++ names) ∧ (path.down names).isSource = true) ∧
    found.Pairwise (disk.Precedes directory)
  once : (disk.sources true [path]).Nodup
  direct : ∀ file, file ∈ disk.sources false [path] ↔
    ∃ name, disk.HasFile (directory ++ [name]) ∧ file = path.push name ∧ file.isSource = true
  begins : disk.sources false [path] <+: disk.sources true [path]

theorem sources_directory (located : disk.locate path = .ok directory) (held : disk.at? directory = some .directory)
    (recursive : Bool) : disk.sources recursive [path] =
      ((disk.filesBelow (if recursive then disk.height else 1) directory).filter
        (Path.isSource ∘ path.down)).map path.down := by
  rw [← List.filter_map, ← sourcesBelow_eq]
  simp [sources, sourcesAt, located, held]

-- One level is where every deeper list begins; a file below shows that there is such a level.
theorem filesBelow_begins (tree : disk.Tree) :
    disk.filesBelow 1 directory <+: disk.filesBelow disk.height directory := by
  cases height : disk.height with
  | zero =>
    have empty : disk.filesBelow 1 directory = [] := by
      apply List.eq_nil_iff_forall_not_mem.mpr
      intro names member
      obtain ⟨inner, _, bytes, there⟩ := (mem_filesBelow tree).mp member
      have low := tree.length_le_height there
      rw [height, List.length_append] at low
      have long := List.length_pos_iff.mpr inner
      omega
    rw [empty]
    exact List.nil_prefix
  | succ depth =>
    have top : disk.filesBelow 1 directory = (disk.filesIn directory).map fun name => [name] := by
      simp [filesBelow]
    rw [top, filesBelow]
    exact List.prefix_append _ _

theorem Tree.discovered (tree : disk.Tree) (located : disk.locate path = .ok directory)
    (held : disk.at? directory = some .directory) : disk.Discovered directory path := by
  have below := sources_directory located held
  have inner : ∀ names, disk.HasFile (directory ++ names) → names ≠ [] := by
    rintro names file rfl
    rw [List.append_nil] at file
    exact file.apart held
  have ordered := (filesBelow_ordered tree disk.height directory).filter (Path.isSource ∘ path.down)
  refine ⟨⟨_, below true, ?_, ordered⟩, ?_, ?_, ?_⟩
  · intro names
    rw [List.mem_filter, if_pos rfl, mem_filesBelow tree, Function.comp_apply]
    constructor
    · rintro ⟨⟨_, _, file⟩, source⟩
      exact ⟨file, source⟩
    · rintro ⟨file, source⟩
      obtain ⟨bytes, there⟩ := file
      have low := tree.length_le_height there
      rw [List.length_append] at low
      exact ⟨⟨inner names ⟨bytes, there⟩, by omega, bytes, there⟩, source⟩
  · rw [below true]
    refine List.Nodup.map_on ?_ ordered.nodup
    intro one first other second same
    have file := (mem_filesBelow tree).mp (List.mem_filter.mp first).1
    have next := (mem_filesBelow tree).mp (List.mem_filter.mp second).1
    exact tree.down_injective file.2.2 next.2.2 file.1 next.1 same
  · intro file
    rw [below false, List.mem_map]
    constructor
    · rintro ⟨names, member, rfl⟩
      obtain ⟨listed, source⟩ := List.mem_filter.mp member
      obtain ⟨long, short, there⟩ := (mem_filesBelow tree).mp listed
      obtain ⟨name, rfl⟩ : ∃ name, names = [name] := by
        apply List.length_eq_one_iff.mp
        have := List.length_pos_iff.mpr long
        exact Nat.le_antisymm short this
      exact ⟨name, there, rfl, source⟩
    · rintro ⟨name, there, rfl, source⟩
      refine ⟨[name], List.mem_filter.mpr ⟨?_, source⟩, rfl⟩
      exact (mem_filesBelow tree).mpr ⟨by simp, by simp, there⟩
  · rw [below false, below true]
    exact ((filesBelow_begins tree).filter _).map _

theorem sources_plain (other : disk.isDirectory path = false) (recursive : Bool) : disk.sources recursive [path] =
    if disk.isFile path && path.isSource then [path] else [] := by
  rw [sources, List.flatMap_cons, List.flatMap_nil, List.append_nil]
  rw [isDirectory, entry?] at other
  rw [sourcesAt, isFile, entry?]
  cases located : disk.locate path with
  | error fault => rfl
  | ok location =>
    rw [located] at other
    cases held : disk.at? location with
    | none =>
      simp only [held]
      rfl
    | some entry =>
      cases entry with
      | file bytes =>
        simp only [held]
        rfl
      | directory => simp [held] at other

theorem sources_discovered {disk : Disk} (tree : disk.Tree) :
    (∀ path directory, disk.locate path = .ok directory → disk.at? directory = some .directory →
        disk.Discovered directory path) ∧
      (∀ recursive path, disk.isDirectory path = false → disk.sources recursive [path] =
        if disk.isFile path && path.isSource then [path] else []) ∧
      ∀ recursive front back, disk.sources recursive (front ++ back) =
        disk.sources recursive front ++ disk.sources recursive back := by
  refine ⟨?_, ?_, ?_⟩
  · intro path directory located held
    exact tree.discovered located held
  · intro recursive path other
    exact sources_plain other recursive
  · intro recursive front back
    rw [sources, List.flatMap_append]
    rfl

-- Sources in either case beside a directory that is named like one.
def sourceBesideDirectory : Disk where
  entries := [(["src".toList], .directory), (["src".toList, "a.as".toList], .directory),
    (["src".toList, "a.as".toList, "c.as".toList], .file []), (["src".toList, "d.AS".toList], .file []),
    (["src".toList, "b.as".toList], .file []), (["src".toList, "b.txt".toList], .file [])]

theorem sources_discovered_nested : sourceBesideDirectory.Tree ∧
    sourceBesideDirectory.Discovered ["src".toList] "src".toList ∧
    "src/a.as/c.as".toList ∈ sourceBesideDirectory.sources true ["src".toList] := by
  have tree : sourceBesideDirectory.Tree := ⟨by decide, by decide, by decide⟩
  have below : sourceBesideDirectory.Discovered ["src".toList] "src".toList :=
    (sources_discovered tree).1 _ _ (by decide) rfl
  obtain ⟨found, listed, held, _⟩ := below.listed
  refine ⟨tree, below, ?_⟩
  rw [listed]
  have inside : ["a.as".toList, "c.as".toList] ∈ found := (held _).mpr ⟨⟨[], rfl⟩, by decide +kernel⟩
  exact List.mem_map_of_mem inside

end Disk
end Intrinsics
