import Intrinsics.Proofs.Declaration.Origins
import Intrinsics.Proofs.Declaration.TypeNames

namespace Intrinsics
open Text

-- Imports and interface headers as grammars, over every text. Their names are taken as they are
-- written and cut at the last dot. An import needs its whole run; an interface has no mark at its
-- end, so dots behind its names are left unread.

structure LastDot (run package name : Text) : Prop where
  whole : run = package ++ '.' :: name
  free : '.' ∉ name

structure ImportForm where
  before : Blanks
  run : Text
  behind : Blanks
  target : QualifiedName
  cut : LastDot run target.package target.name
  packaged : target.package ≠ []
  packageSpelt : ∀ c ∈ target.package, isQualifiedPart c = true
  named : target.name ≠ []
  nameSpelt : ∀ c ∈ target.name, isImportedPart c = true

def ImportForm.text (form : ImportForm) : Text :=
  "import".toList ++ (form.before.text ++ (form.run ++ (form.behind.text ++ ";".toList)))

theorem ImportForm.line (form : ImportForm) :
    ∃ line : ImportLine, line.target = form.target ∧ line.text = form.text := by
  refine ⟨⟨form.before, form.target.package, form.packaged, form.packageSpelt, form.target.name, form.named,
    form.nameSpelt, form.behind⟩, rfl, ?_⟩
  unfold ImportForm.text ImportLine.text
  rw [form.cut.whole]
  simp only [List.append_assoc, List.cons_append]

theorem ImportLine.form (line : ImportLine) :
    ∃ form : ImportForm, form.target = line.target ∧ form.text = line.text := by
  have free : '.' ∉ line.name := free_of_spelt line.nameSpelt (by decide)
  refine ⟨⟨line.before, line.package ++ '.' :: line.name, line.behind, line.target, ⟨rfl, free⟩, line.packaged,
    line.packageSpelt, line.named, line.nameSpelt⟩, rfl, ?_⟩
  unfold ImportForm.text ImportLine.text
  simp only [List.append_assoc, List.cons_append]

theorem importing_exact {text rest : Text} {declaration : Declaration} :
    Form.importing.read? text = some (declaration, rest) ↔
      ∃ form : ImportForm, text = form.text ++ rest ∧ declaration = .importing form.target := by
  constructor
  · intro read
    obtain ⟨⟨target, behind⟩, found, same⟩ := Option.map_eq_some_iff.mp read
    cases same
    obtain ⟨line, said, whole⟩ := importing?_parts found
    obtain ⟨form, target, written⟩ := line.form
    exact ⟨form, by rw [written, whole], by rw [target, said]⟩
  · intro ⟨form, whole, same⟩
    obtain ⟨line, target, written⟩ := form.line
    rw [whole, same, ← target, ← written]
    simp [Form.read?, importing?_written]

-- The name that a text begins with: its whole run of name characters and dots, without the dots
-- at the end of the run.
structure LeadingName (text run name tail : Text) : Prop where
  whole : text = run ++ tail
  spelt : ∀ c ∈ run, isQualifiedPart c = true
  maximal : Stops isQualifiedPart tail
  dots : ∃ dots, run = name ++ dots ∧ ∀ c ∈ dots, c = '.'
  last : name.getLast? ≠ some '.'
  names : NamesType name

namespace LeadingName

variable {text run name tail : Text}

theorem dropTrailing_run (leading : LeadingName text run name tail) : dropTrailing '.' run = name := by
  obtain ⟨dots, whole, all⟩ := leading.dots
  have none : dropTrailing '.' dots = [] := by
    have spelt : ∀ c ∈ dots.reverse, (c == '.') = true := by
      intro c member
      rw [all c (List.mem_reverse.mp member)]
      rfl
    rw [dropTrailing, List.dropWhile_eq_nil_iff.mpr spelt]
    rfl
  rw [whole, dropTrailing_append (dropTrailing_of_last leading.last), none, List.append_nil]

-- Dots that were left unread stand right behind the name.
theorem dotted {rest : Text} (leading : LeadingName text run name tail) (behind : text = name ++ rest)
    (shorter : run ≠ name) : ∃ more, rest = '.' :: more := by
  obtain ⟨dots, whole, all⟩ := leading.dots
  have split : name ++ (dots ++ tail) = name ++ rest := by
    rw [← behind, leading.whole, whole, List.append_assoc]
  rw [← List.append_cancel_left split]
  cases dots with
  | nil => exact absurd (by rw [whole, List.append_nil]) shorter
  | cons c dots => exact ⟨dots ++ tail, by rw [all c List.mem_cons_self]; rfl⟩

end LeadingName

theorem QualifiedName.leading?_exact {text rest : Text} {type : QualifiedName} :
    leading? text = some (type, rest) ↔
      ∃ run tail, LeadingName text run type.text tail ∧ '.' ∉ type.name ∧ text = type.text ++ rest := by
  constructor
  · intro read
    have spelt : ∀ c ∈ text.takeWhile isQualifiedPart, isQualifiedPart c = true := fun _ => List.mem_takeWhile_imp
    have maximal : Stops isQualifiedPart (text.dropWhile isQualifiedPart) := stops_dropWhile isQualifiedPart text
    have cut : text.takeWhile isQualifiedPart ++ text.dropWhile isQualifiedPart = text :=
      List.takeWhile_append_dropWhile
    obtain ⟨written, value, whole⟩ := leading?_parts read
    rw [← cut] at read
    obtain ⟨⟨names, said, free⟩, _⟩ := (leading?_run spelt maximal).mp read
    obtain ⟨dots, marked, all⟩ := dropTrailing_parts '.' (text.takeWhile isQualifiedPart)
    rw [← said] at names marked
    have last : type.text.getLast? ≠ some '.' := by
      intro dot
      obtain ⟨front, ends⟩ := List.getLast?_eq_some_iff.mp dot
      rw [said] at ends
      exact dropTrailing_last '.' _ front ends
    refine ⟨_, _, ⟨cut.symm, spelt, maximal, ⟨dots, marked, all⟩, last, names⟩, free, ?_⟩
    rw [whole, SpeltName.text, value]
  · intro given
    obtain ⟨run, tail, leading, free, whole⟩ := given
    have trimmed := leading.dropTrailing_run
    have read := (leading?_run leading.spelt leading.maximal).mpr
      ⟨⟨by rw [trimmed]; exact leading.names, trimmed.symm, free⟩, rfl⟩
    rw [← leading.whole] at read
    obtain ⟨written, value, parts⟩ := leading?_parts read
    have same := parts.symm.trans whole
    rw [SpeltName.text, value] at same
    rw [read, List.append_cancel_left same]

-- Every name at the start of a text is read, and the cut at its last dot is the only one.
theorem LeadingName.read {text run name tail : Text} (leading : LeadingName text run name tail) :
    ∃ type rest, QualifiedName.leading? text = some (type, rest) := by
  obtain ⟨dots, whole, _⟩ := leading.dots
  have ends : ∀ front, name ≠ front ++ ['.'] := by
    intro front same
    exact leading.last (by rw [same, List.getLast?_concat])
  obtain ⟨type, cut⟩ := QualifiedName.ofRun?_names leading.names ends
  have said := QualifiedName.text_ofRun? cut
  refine ⟨type, dots ++ tail, QualifiedName.leading?_exact.mpr ⟨run, tail, ?_, (QualifiedName.ofRun?_free cut).1, ?_⟩⟩
  · rw [said]
    exact leading
  · rw [said, leading.whole, whole, List.append_assoc]

-- What stands behind the keyword of an interface, and behind the one in front of its base. Both
-- keywords take all the blanks that follow them.
def BehindInterfaceWord (text body : Text) : Prop :=
  ∃ (intrinsic : Option Gap) (gap : Gap), text = intrinsicText intrinsic ++ ("interface".toList ++ (gap.text ++ body)) ∧
    Stops isBlank body

def BehindExtends (text body : Text) : Prop :=
  ∃ before behind : Gap, text = before.text ++ ("extends".toList ++ (behind.text ++ body)) ∧ Stops isBlank body

theorem baseName?_exact {text rest : Text} {base : QualifiedName} :
    baseName? QualifiedName.leading? text = some (base, rest) ↔
      ∃ body, BehindExtends text body ∧ QualifiedName.leading? body = some (base, rest) := by
  constructor
  · intro read
    unfold baseName? at read
    simp only [Option.bind_eq_bind, Option.bind_eq_some_iff] at read
    obtain ⟨first, blanks, body, word, named⟩ := read
    obtain ⟨before, front, _⟩ := passBlanks?_parts blanks
    obtain ⟨behind, middle, begins⟩ := spaced?_parts word
    exact ⟨body, ⟨before, behind, by rw [front, middle], begins⟩, named⟩
  · intro ⟨body, ⟨before, behind, whole, begins⟩, named⟩
    have word : skipBlanks ("extends".toList ++ (behind.text ++ body)) = "extends".toList ++ (behind.text ++ body) :=
      skipBlanks_of_stops (stops_cons.mpr rfl)
    unfold baseName?
    simp only [whole, passBlanks?_gap, word, spaced?_gap, skipBlanks_of_stops begins, Option.bind_eq_bind,
      Option.bind_some, named]

-- The base behind the name of an interface, where that name was the whole of its run, and where
-- the header ends.
inductive BaseAt (text : Text) (whole : Prop) : Option QualifiedName → Text → Prop where
  | extended {body run tail last : Text} {base : QualifiedName} (ended : whole) (behind : BehindExtends text body)
      (named : LeadingName body run base.text tail) (free : '.' ∉ base.name) (rest : body = base.text ++ last) :
      BaseAt text whole (some base) last
  | alone (unnamed : whole → ∀ body run name tail, BehindExtends text body → ¬ LeadingName body run name tail) :
      BaseAt text whole none text

theorem LeadingName.ended {text run name tail rest body : Text} (leading : LeadingName text run name tail)
    (behind : text = name ++ rest) (extended : BehindExtends rest body) : run = name := by
  apply Classical.byContradiction
  intro shorter
  obtain ⟨more, dotted⟩ := leading.dotted behind shorter
  obtain ⟨before, gap, whole, _⟩ := extended
  have begins : Starts isBlank rest := by
    rw [whole]
    exact (starts_of_spelt before.held before.blank).append _
  obtain ⟨c, others, shape, blank⟩ := begins
  rw [dotted] at shape
  rw [← (List.cons.inj shape).1] at blank
  exact absurd blank (by decide)

theorem baseAt_exact {text run tail rest last : Text} {type : QualifiedName} {base : Option QualifiedName}
    (leading : LeadingName text run type.text tail) (behind : text = type.text ++ rest) :
    optional (baseName? QualifiedName.leading?) rest = (base, last) ↔ BaseAt rest (run = type.text) base last := by
  constructor
  · intro taken
    cases read : baseName? QualifiedName.leading? rest with
    | none =>
      rw [optional_none read] at taken
      cases taken
      apply BaseAt.alone
      intro _ body run name tail extended named
      obtain ⟨found, last, cut⟩ := named.read
      rw [baseName?_exact.mpr ⟨body, extended, cut⟩] at read
      cases read
    | some found =>
      obtain ⟨name, left⟩ := found
      rw [optional_some read] at taken
      cases taken
      obtain ⟨body, extended, cut⟩ := baseName?_exact.mp read
      obtain ⟨run, tail, named, free, whole⟩ := QualifiedName.leading?_exact.mp cut
      exact .extended (leading.ended behind extended) extended named free whole
  · intro based
    cases based with
    | extended _ extended named free whole =>
      exact optional_some (baseName?_exact.mpr ⟨_, extended, QualifiedName.leading?_exact.mpr ⟨_, _, named, free, whole⟩⟩)
    | alone unnamed =>
      apply optional_none
      cases read : baseName? QualifiedName.leading? rest with
      | none => rfl
      | some found =>
        obtain ⟨body, extended, cut⟩ := baseName?_exact.mp read
        obtain ⟨run, tail, named, _, _⟩ := QualifiedName.leading?_exact.mp cut
        exact absurd named (unnamed (leading.ended behind extended) body run _ tail extended)

inductive InterfaceForm (text : Text) : InterfaceHeader → Text → Prop where
  | header {body run tail rest last : Text} {type : QualifiedName} {base : Option QualifiedName}
      (opened : BehindInterfaceWord text body) (named : LeadingName body run type.text tail) (free : '.' ∉ type.name)
      (behind : body = type.text ++ rest) (based : BaseAt rest (run = type.text) base last) :
      InterfaceForm text ⟨type, base⟩ last

theorem interfaceHeader_exact {text last : Text} {header : InterfaceHeader} :
    interfaceHeader? text = some (header, last) ↔ InterfaceForm text header last := by
  constructor
  · intro read
    unfold interfaceHeader? at read
    simp only [Option.bind_eq_bind, Option.bind_eq_some_iff] at read
    obtain ⟨body, word, ⟨type, rest⟩, cut, same⟩ := read
    obtain ⟨intrinsic, front⟩ := intrinsic_parts text
    obtain ⟨gap, middle, begins⟩ := spaced?_parts word
    obtain ⟨run, tail, named, free, whole⟩ := QualifiedName.leading?_exact.mp cut
    have opened : BehindInterfaceWord text body := ⟨intrinsic, gap, by rw [← middle]; exact front, begins⟩
    cases same
    exact .header opened named free whole ((baseAt_exact named whole).mp rfl)
  · intro form
    cases form with
    | header opened named free whole based =>
      obtain ⟨intrinsic, gap, front, begins⟩ := opened
      have cut := QualifiedName.leading?_exact.mpr ⟨_, _, named, free, whole⟩
      have taken := (baseAt_exact named whole).mpr based
      rw [front, interfaceHeader?_body intrinsic gap begins]
      simp only [cut, taken, Option.bind_eq_bind, Option.bind_some]
      rfl

theorem interfaceHeader_named {text : Text} :
    (interfaceHeader? text).isSome ↔
      ∃ body run name tail, BehindInterfaceWord text body ∧ LeadingName body run name tail := by
  constructor
  · intro read
    obtain ⟨⟨header, last⟩, found⟩ := Option.isSome_iff_exists.mp read
    cases interfaceHeader_exact.mp found with
    | header opened named => exact ⟨_, _, _, _, opened, named⟩
  · intro ⟨body, run, name, tail, ⟨intrinsic, gap, front, begins⟩, named⟩
    obtain ⟨type, rest, cut⟩ := named.read
    rw [front, interfaceHeader?_body intrinsic gap begins, cut]
    rfl

theorem qualifiedNames_exact (text : Text) :
    (∀ declaration rest, Form.importing.read? text = some (declaration, rest) ↔
      ∃ form : ImportForm, text = form.text ++ rest ∧ declaration = .importing form.target) ∧
    ((Form.interfaceHeader.read? text).isSome ↔
      ∃ body run name tail, BehindInterfaceWord text body ∧ LeadingName body run name tail) ∧
    (∀ declaration last, Form.interfaceHeader.read? text = some (declaration, last) ↔
      ∃ header, InterfaceForm text header last ∧ declaration = .interfaceHeader header) := by
  refine ⟨fun _ _ => importing_exact, ?_, ?_⟩
  · unfold Form.read?
    rw [Option.isSome_map]
    exact interfaceHeader_named
  · intro declaration last
    constructor
    · intro read
      obtain ⟨⟨header, left⟩, found, same⟩ := Option.map_eq_some_iff.mp read
      cases same
      exact ⟨header, interfaceHeader_exact.mp found, rfl⟩
    · intro ⟨header, form, same⟩
      exact Option.map_eq_some_iff.mpr ⟨(header, last), interfaceHeader_exact.mpr form, by rw [same]⟩

-- Dots inside a run belong to the package; the one behind the name keeps the base from being read.
example : Form.interfaceHeader.read? "interface a..b. extends c".toList =
    some (.interfaceHeader ⟨⟨"a.".toList, "b".toList⟩, none⟩, ". extends c".toList) := by decide

end Intrinsics
