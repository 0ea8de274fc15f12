import Intrinsics.Path
import Intrinsics.Proofs.Text.Runs

namespace Intrinsics
open Text

theorem flatten_splitOn (mark : Char) (text : Text) : (text.splitOn mark).flatten = text.filter (· != mark) := by
  induction text with
  | nil => rfl
  | cons c text ih =>
    rw [List.splitOn_cons_eq_if_modifyHead, List.filter_cons]
    by_cases same : c = mark
    · simp [same, ih]
    · cases parts : text.splitOn mark with
      | nil => exact absurd parts (List.splitOn_ne_nil mark text)
      | cons first rest =>
        rw [parts] at ih
        simp [same, ← ih]

theorem mem_splitOn {mark c : Char} {text : Text} :
    (∃ part ∈ text.splitOn mark, c ∈ part) ↔ c ∈ text ∧ c ≠ mark := by
  rw [← List.mem_flatten, flatten_splitOn, List.mem_filter, bne_iff_ne]

namespace Path

-- The names on a path and what joining and cutting do to them. Repeated separators and separators
-- at the end add no name, so two paths with the same names differ in their writing only.

@[simp] theorem segments_nil : segments [] = [] := rfl

theorem segments_append (front back : Path) : segments (front ++ '/' :: back) = segments front ++ segments back := by
  simp [segments, List.splitOn_append_cons_self]

@[simp] theorem segments_separator (front : Path) : segments (front ++ ['/']) = segments front := by
  simp [segments_append]

theorem segments_plain {name : Text} (single : '/' ∉ name) (held : name ≠ []) : segments name = [name] := by
  simp [segments, List.splitOn_eq_singleton single, held]

theorem mem_segments {path : Path} {c : Char} (member : c ∈ path) (other : c ≠ '/') :
    ∃ name ∈ path.segments, c ∈ name := by
  obtain ⟨name, part, inside⟩ := mem_splitOn.mpr ⟨member, other⟩
  have held : name ≠ [] := List.ne_nil_of_mem inside
  exact ⟨name, List.mem_filter.mpr ⟨part, by simpa using held⟩, inside⟩

theorem segments_separators {text : Text} (all : ∀ c ∈ text, c = '/') (front : Path) :
    segments (front ++ text) = segments front := by
  induction text generalizing front with
  | nil => rw [List.append_nil]
  | cons c text ih =>
    rw [all c List.mem_cons_self, List.append_cons, ih (fun d member => all d (List.mem_cons_of_mem c member)),
      segments_separator]

theorem segments_dropTrailing (path : Path) : segments (dropTrailing '/' path) = segments path := by
  obtain ⟨separators, whole, all⟩ := dropTrailing_parts '/' path
  conv => rhs; rw [whole]
  rw [segments_separators all]

section Push

variable {path part : Path}

theorem isAbsolute_single (single : '/' ∉ part) : part.isAbsolute = false := by
  cases part with
  | nil => rfl
  | cons c part =>
    have other : c ≠ '/' := fun same => single (by rw [same]; exact List.mem_cons_self)
    simp [isAbsolute, other]

theorem push_relative (relative : part.isAbsolute = false) :
    push path part = if path.isEmpty || path.getLast? = some '/' then path ++ part else path ++ '/' :: part := by
  have inner : part.head? ≠ some '/' := by simpa [isAbsolute] using relative
  rw [push, if_neg inner]

theorem isAbsolute_push (relative : part.isAbsolute = false) : (push path part).isAbsolute = path.isAbsolute := by
  rw [push_relative relative]
  cases path with
  | nil => exact relative
  | cons c path => split <;> rfl

theorem push_append (relative : part.isAbsolute = false) (held : part ≠ []) (more : Text) :
    push path (part ++ more) = push path part ++ more := by
  have same : (part ++ more).isAbsolute = false := by
    cases part with
    | nil => exact absurd rfl held
    | cons c part => exact relative
  rw [push_relative relative, push_relative same]
  split <;> simp

theorem push_parts (path : Path) (relative : part.isAbsolute = false) :
    ∃ front, push path part = front ++ part ∧ segments front = segments path ∧
      (front = [] ∨ ∃ before, front = before ++ ['/']) := by
  rw [push_relative relative]
  split
  · rename_i closed
    refine ⟨path, rfl, rfl, ?_⟩
    rcases (Bool.or_eq_true _ _).mp closed with empty | ended
    · exact .inl (List.isEmpty_iff.mp empty)
    · exact .inr (List.getLast?_eq_some_iff.mp (of_decide_eq_true ended))
  · exact ⟨path ++ ['/'], by simp, by simp, .inr ⟨path, rfl⟩⟩

theorem segments_push (relative : part.isAbsolute = false) :
    segments (push path part) = segments path ++ segments part := by
  obtain ⟨front, whole, same, empty | ⟨before, ended⟩⟩ := push_parts path relative
  · rw [whole, ← same, empty]
    rfl
  · rw [whole, ← same, ended, List.append_assoc, List.singleton_append, segments_append, segments_separator]

theorem pushAll_names {parts : List Text} (single : ∀ part ∈ parts, '/' ∉ part) (path : Path) :
    (parts.foldl push path).segments = path.segments ++ parts.filter (!·.isEmpty) ∧
      (parts.foldl push path).isAbsolute = path.isAbsolute := by
  induction parts generalizing path with
  | nil => simp
  | cons part parts ih =>
    have free := single part List.mem_cons_self
    have relative := isAbsolute_single free
    obtain ⟨names, absolute⟩ := ih (fun other member => single other (List.mem_cons_of_mem part member)) (push path part)
    rw [List.foldl_cons, names, absolute, segments_push relative, isAbsolute_push relative]
    refine ⟨?_, rfl⟩
    cases part with
    | nil => simp
    | cons c part => rw [segments_plain free (List.cons_ne_nil c part)]; simp

-- An empty part leaves a separator at most, which the next part makes use of.
theorem push_nil_push (path part : Path) : (path.push []).push part = path.push part := by
  rw [@push_relative path [] rfl]
  split
  · rw [List.append_nil]
  · rename_i unended
    simp [push, unended]

theorem pushAll_held (parts : List Text) (last : Text) (path : Path) :
    (parts.foldl push path).push last = ((parts.filter (!·.isEmpty)).foldl push path).push last := by
  induction parts generalizing path with
  | nil => rfl
  | cons part parts ih =>
    rw [List.foldl_cons, ih]
    cases part with
    | cons c part => rfl
    | nil =>
      rw [List.filter_cons_of_neg (by simp)]
      cases parts.filter (!·.isEmpty) with
      | nil => exact push_nil_push path last
      | cons first rest => rw [List.foldl_cons, List.foldl_cons, push_nil_push]

end Push

-- The name at the end of a path takes the extension as it stands if it holds no dot.
theorem trimmed_named {front name : Text} (single : '/' ∉ name) (held : name ≠ []) (other : name ≠ ['.'])
    (closed : front = [] ∨ ∃ before, front = before ++ ['/']) :
    trimmed (front ++ name) = front ++ name ∧
      ((splitLast '/' (front ++ name)).map Prod.snd).getD (front ++ name) = name := by
  have last : (front ++ name).getLast? ≠ some '/' := by
    rw [List.getLast?_append, List.getLast?_eq_some_getLast held, Option.some_or]
    intro same
    have member := List.getLast_mem held
    rw [Option.some.inj same] at member
    exact single member
  have kept := dropTrailing_of_last last
  have cut : ∀ before, splitLast '/' (front ++ name) ≠ some (before, ['.']) ∧
      ((splitLast '/' (front ++ name)).map Prod.snd).getD (front ++ name) = name := by
    intro before
    rcases closed with rfl | ⟨ahead, rfl⟩
    · rw [List.nil_append, splitLast_none.mpr single]
      exact ⟨by simp, rfl⟩
    · rw [List.append_assoc, List.singleton_append, splitLast_append ahead single]
      refine ⟨?_, rfl⟩
      intro same
      exact other (Prod.mk.inj (Option.some.inj same)).2
  refine ⟨?_, (cut []).2⟩
  rw [trimmed]
  split
  · rename_i empty
    rw [kept] at empty
    exact absurd (List.append_eq_nil_iff.mp empty).2 held
  · rename_i c rest whole
    rw [kept] at whole
    split
    · rename_i before dotted
      rw [← whole] at dotted
      exact absurd dotted (cut before).1
    · exact whole.symm

theorem withExtension_named {front name : Text} (single : '/' ∉ name) (held : name ≠ []) (free : '.' ∉ name)
    (closed : front = [] ∨ ∃ before, front = before ++ ['/']) (extension : Text) :
    withExtension extension (front ++ name) = front ++ name ++ '.' :: extension := by
  have here : name ≠ ['.'] := by
    rintro rfl
    simp at free
  have up : name ≠ ['.', '.'] := by
    rintro rfl
    simp at free
  obtain ⟨kept, cut⟩ := trimmed_named single held here closed
  have named : fileName? (front ++ name) = some name := by
    simp only [fileName?, kept, cut, held, here, up, or_self, if_false]
  have split : splitExtension name = (name, none) := by
    rw [splitExtension, splitLast_none.mpr free]
  simp only [withExtension, named, kept, split, List.length_append, Nat.add_sub_cancel, List.take_left]

-- A path in its components: the root, `here` where a relative path begins with it, `up`, and names.
inductive Component where
  | root | here | up
  | named (name : Text)
  deriving DecidableEq

def Component.ofName (name : Text) : Component := if name = ['.', '.'] then .up else .named name

def components (path : Path) : List Component :=
  (if path.isAbsolute then [.root] else if path.segments.head? = some ['.'] then [.here] else []) ++
    (path.segments.filter (· ≠ ['.'])).map Component.ofName

-- Names that are neither `here` nor `up` and come behind those of a path are components of their own.
theorem components_behind {front path : Path} {names : List Text} (absolute : path.isAbsolute = front.isAbsolute)
    (behind : path.segments = front.segments ++ names) (here : ['.'] ∉ names) (up : ['.', '.'] ∉ names) :
    path.components = front.components ++ names.map .named := by
  have kept : names.filter (· ≠ ['.']) = names := by
    apply List.filter_eq_self.mpr
    intro name member
    apply decide_eq_true
    rintro rfl
    exact here member
  have ordinary : names.map Component.ofName = names.map .named := by
    apply List.map_congr_left
    intro name member
    apply if_neg
    rintro rfl
    exact up member
  have first : (path.segments.head? = some ['.']) = (front.segments.head? = some ['.']) := by
    rw [behind]
    cases front.segments with
    | cons name later => rfl
    | nil =>
      cases names with
      | nil => rfl
      | cons name names =>
        have other : name ≠ ['.'] := fun same => here (by rw [same]; exact List.mem_cons_self)
        simp [other]
  simp only [components, absolute, first]
  rw [behind, List.filter_append, kept, List.map_append, ordinary, List.append_assoc]

-- Cutting a path at its end leaves a beginning of it, which starts at the same place.
theorem trimmed_begins (path : Path) : trimmed path <+: path ∧ (trimmed path = [] → path = []) := by
  fun_induction trimmed path with
  | case1 path body empty =>
    refine ⟨?_, fun _ => List.isEmpty_iff.mp empty⟩
    exact List.nil_prefix
  | case2 path body held =>
    obtain ⟨separators, whole, all⟩ := dropTrailing_parts '/' path
    rw [body, List.nil_append] at whole
    refine ⟨?_, fun empty => absurd empty (List.cons_ne_nil _ _)⟩
    cases separators with
    | nil => simp [whole] at held
    | cons c separators =>
      rw [whole, all c List.mem_cons_self]
      exact ⟨separators, rfl⟩
  | case3 path c rest body front cut ih =>
    refine ⟨ih.1.trans ?_, fun empty => absurd (ih.2 empty) (by simp)⟩
    have begins := dropTrailing_begins '/' path
    rw [body, (splitLast_exact.mp cut).1] at begins
    exact .trans ⟨['.'], by simp⟩ begins
  | case4 path c rest body =>
    refine ⟨?_, fun empty => absurd empty (List.cons_ne_nil _ _)⟩
    rw [← body]
    exact dropTrailing_begins '/' path

theorem isAbsolute_begins {front path : Path} (begins : front <+: path) (held : front = [] → path = []) :
    front.isAbsolute = path.isAbsolute := by
  obtain ⟨more, rfl⟩ := begins
  cases front with
  | nil => rw [held rfl]
  | cons c front => rfl

theorem segments_trimmed {path : Path} (named : ['.'] ∉ path.segments) : (trimmed path).segments = path.segments := by
  fun_induction trimmed path with
  | case1 path body empty => rw [List.isEmpty_iff.mp empty]
  | case2 path body held =>
    rw [← segments_dropTrailing path, body]
    rfl
  | case3 path c rest body front cut ih =>
    rw [← segments_dropTrailing path, body, (splitLast_exact.mp cut).1, segments_append] at named
    have here : segments ['.'] = [['.']] := rfl
    simp [here] at named
  | case4 path c rest body => rw [← body, segments_dropTrailing]

theorem parent?_none {path : Path} (named : ['.'] ∉ path.segments) (lies : parent? path = none) :
    path.segments = [] := by
  rw [← segments_trimmed named]
  simp only [parent?] at lies
  split at lies
  · rename_i outermost
    rcases outermost with empty | root
    · rw [empty]; rfl
    · rw [root]; rfl
  · split at lies <;> cases lies

theorem parent?_names {path parent : Path} (named : ['.'] ∉ path.segments) (lies : parent? path = some parent) :
    parent.segments = path.segments.dropLast ∧ parent.isAbsolute = path.isAbsolute ∧ parent <+: path := by
  obtain ⟨begins, held⟩ := trimmed_begins path
  have whole := segments_trimmed named
  have absolute := isAbsolute_begins begins held
  simp only [parent?] at lies
  split at lies
  · cases lies
  · rename_i inner
    split at lies
    · rename_i front name cut
      cases lies
      obtain ⟨parts, single⟩ := splitLast_exact.mp cut
      have last : name ≠ [] := by
        rintro rfl
        have root := trimmed_last path front parts
        subst root
        exact inner (.inr parts)
      rw [parts] at absolute begins whole
      rw [segments_append, segments_plain single last] at whole
      have above : ['.'] ∉ segments (front ++ ['/']) := by
        rw [segments_separator]
        intro member
        rw [← whole] at named
        exact named (List.mem_append_left _ member)
      obtain ⟨shorter, kept⟩ := trimmed_begins (front ++ ['/'])
      have closed : front ++ ['/'] <+: front ++ '/' :: name := ⟨name, by simp⟩
      refine ⟨?_, ?_, shorter.trans (closed.trans begins)⟩
      · rw [segments_trimmed above, segments_separator, ← whole, List.dropLast_concat]
      · rw [← absolute, isAbsolute_begins shorter kept, isAbsolute_begins closed (by simp)]
    · rename_i missing
      cases lies
      have single := splitLast_none.mp missing
      rw [segments_plain single fun empty => inner (.inl empty)] at whole
      refine ⟨?_, ?_, List.nil_prefix⟩
      · rw [← whole]; rfl
      · rw [← absolute, isAbsolute_single single]; rfl

end Path
end Intrinsics
