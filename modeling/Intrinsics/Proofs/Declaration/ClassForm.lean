import Intrinsics.Proofs.Declaration.Origins

namespace Intrinsics
open Text

-- The header of a class as a grammar. Here the list behind `implements` is a sequence of groups,
-- each a run of name characters and dots with blanks and at most one comma behind it, so the
-- same text can be cut in several ways.

structure ListGroup where
  run : Text
  held : run ≠ []
  spelt : ∀ c ∈ run, isQualifiedPart c = true
  before : Blanks
  comma : Bool
  behind : Blanks

def commaText (comma : Bool) : Text := if comma then [','] else []

def ListGroup.text (group : ListGroup) : Text :=
  group.run ++ (group.before.text ++ (commaText group.comma ++ group.behind.text))

structure ImplementsPart where
  before : Gap
  behind : Gap
  groups : List ListGroup
  held : groups ≠ []

namespace ImplementsPart

def list (part : ImplementsPart) : Text := part.groups.flatMap ListGroup.text

def text (part : ImplementsPart) : Text :=
  part.before.text ++ ("implements".toList ++ (part.behind.text ++ part.list))

end ImplementsPart

structure ClassForm where
  intrinsic : Option Gap
  dynamic : Option DynamicMark
  gap : Gap
  name : SpeltName
  base : Option BasePart
  interfaces : Option ImplementsPart
  blanks : Blanks

namespace ClassForm

def header (form : ClassForm) : ClassHeader :=
  ⟨form.dynamic.isSome, form.name.value, form.base.map (·.name.value), form.interfaces.map (trim ·.list)⟩

def front (form : ClassForm) : Text :=
  intrinsicText form.intrinsic ++ (dynamicText form.dynamic ++ ("class".toList ++ (form.gap.text ++
    (form.name.text ++ (form.base.elim [] BasePart.text ++ (form.interfaces.elim [] ImplementsPart.text ++
      form.blanks.text))))))

def text (form : ClassForm) : Text := form.front ++ ['\x7b']

end ClassForm

theorem Listed.of_run {commaAllowed : Bool} {run text : Text} (held : run ≠ [])
    (spelt : ∀ c ∈ run, isQualifiedPart c = true) (listed : Listed true text) :
    Listed commaAllowed (run ++ text) := by
  induction run generalizing commaAllowed with
  | nil => exact absurd rfl held
  | cons c tail ih =>
    apply Listed.part (spelt c List.mem_cons_self)
    cases tail with
    | nil => exact listed
    | cons d tail =>
      exact ih (List.cons_ne_nil d tail) fun e member => spelt e (List.mem_cons_of_mem c member)

theorem Listed.of_blanks {commaAllowed : Bool} {text : Text} (blanks : Blanks) (listed : Listed commaAllowed text) :
    Listed commaAllowed (blanks.text ++ text) := by
  obtain ⟨run, blank⟩ := blanks
  induction run with
  | nil => exact listed
  | cons c tail ih =>
    exact .blank (blank c List.mem_cons_self) (ih fun d member => blank d (List.mem_cons_of_mem c member))

theorem ListGroup.listed (groups : List ListGroup) (commaAllowed : Bool) :
    Listed commaAllowed (groups.flatMap ListGroup.text) := by
  induction groups generalizing commaAllowed with
  | nil => exact .nil
  | cons group groups ih =>
    simp only [List.flatMap_cons, ListGroup.text, List.append_assoc]
    apply Listed.of_run group.held group.spelt
    apply Listed.of_blanks group.before
    cases group.comma with
    | false => exact Listed.of_blanks group.behind (ih true)
    | true => exact .comma (Listed.of_blanks group.behind (ih false))

-- The groups of a list are found letter by letter: every name character begins one, and the
-- blanks and the comma in front of the first belong to whatever stands before the text.
theorem Listed.grouped {commaAllowed : Bool} {text : Text} (listed : Listed commaAllowed text) :
    ∃ (before : Blanks) (comma : Bool) (behind : Blanks) (groups : List ListGroup),
      (comma = true → commaAllowed = true) ∧
      text = before.text ++ (commaText comma ++ (behind.text ++ groups.flatMap ListGroup.text)) := by
  induction listed with
  | nil => exact ⟨.empty, false, .empty, [], by simp, rfl⟩
  | @part c text _ held _ ih =>
    obtain ⟨before, comma, behind, groups, _, whole⟩ := ih
    refine ⟨.empty, false, .empty,
      ⟨[c], List.cons_ne_nil _ _, List.forall_mem_singleton.mpr held, before, comma, behind⟩ :: groups, by simp, ?_⟩
    rw [whole]
    simp [Blanks.empty, commaText, ListGroup.text]
  | @blank c _ text held _ ih =>
    obtain ⟨before, comma, behind, groups, allowed, whole⟩ := ih
    refine ⟨⟨c :: before.text, List.forall_mem_cons.mpr ⟨held, before.blank⟩⟩, comma, behind, groups, allowed, ?_⟩
    rw [whole]
    rfl
  | @comma text _ ih =>
    obtain ⟨before, comma, behind, groups, allowed, whole⟩ := ih
    have none : comma = false := by simpa using allowed
    refine ⟨.empty, true, before.append behind, groups, by simp, ?_⟩
    rw [whole, none]
    simp [Blanks.empty, commaText, Blanks.append]

theorem Blanks.empty_of_stops {blanks : Blanks} {rest : Text} (stops : Stops isBlank (blanks.text ++ rest)) :
    blanks.text = [] := by
  obtain ⟨text, blank⟩ := blanks
  cases text with
  | nil => rfl
  | cons c tail =>
    have bare := stops_cons.mp stops
    rw [blank c List.mem_cons_self] at bare
    cases bare

theorem InterfaceText.grouped (list : InterfaceText) :
    ∃ groups : List ListGroup, groups ≠ [] ∧ list.text = groups.flatMap ListGroup.text := by
  obtain ⟨before, comma, behind, groups, allowed, whole⟩ := list.listed.grouped
  have unmarked : comma = false := by simpa using allowed
  have first := list.first
  rw [whole, unmarked] at first
  have noBefore := Blanks.empty_of_stops first
  rw [noBefore] at first
  have noBehind : behind.text = [] := Blanks.empty_of_stops first
  rw [unmarked, noBefore, noBehind] at whole
  refine ⟨groups, ?_, whole⟩
  rintro rfl
  exact list.held whole

theorem ImplementsPart.list_starts (part : ImplementsPart) : Starts isQualifiedPart part.list := by
  obtain ⟨before, behind, groups, held⟩ := part
  cases groups with
  | nil => exact absurd rfl held
  | cons group groups =>
    simp only [ImplementsPart.list, List.flatMap_cons, ListGroup.text, List.append_assoc]
    exact (starts_of_spelt group.held group.spelt).append _

-- A list from its first name to its last name or comma, and the blanks that a grouping counts in.
theorem ImplementsPart.trimmed (part : ImplementsPart) : ∃ (line : ListPart) (blanks : Blanks),
    line.list.text = trim part.list ∧ part.text = line.text ++ blanks.text := by
  have starts := part.list_starts
  have begins : Stops isBlank part.list := starts.stops fun _ => isBlank_of_isQualifiedPart
  have nonempty : part.list ≠ [] := by
    obtain ⟨c, tail, shape, _⟩ := starts
    rw [shape]
    exact List.cons_ne_nil c tail
  obtain ⟨blanks, cut, held, first, last⟩ := trim_parts nonempty begins
  have listed : Listed false part.list := ListGroup.listed part.groups false
  rw [cut] at listed
  refine ⟨⟨part.before, part.behind, ⟨trim part.list, held, listed.front, first, last⟩⟩, blanks, rfl, ?_⟩
  simp only [ImplementsPart.text, ListPart.text, List.append_assoc]
  rw [← cut]

theorem ClassForm.line (form : ClassForm) :
    ∃ line : ClassLine, line.header = form.header ∧ line.text = form.text := by
  obtain ⟨intrinsic, dynamic, gap, name, base, interfaces, blanks⟩ := form
  cases interfaces with
  | none =>
    refine ⟨⟨intrinsic, dynamic, gap, name, base, none, blanks⟩, rfl, ?_⟩
    simp [ClassLine.text, ClassForm.text, ClassForm.front]
  | some part =>
    obtain ⟨list, behind, trimmed, whole⟩ := part.trimmed
    refine ⟨⟨intrinsic, dynamic, gap, name, base, some list, behind.append blanks⟩, ?_, ?_⟩
    · simp [ClassLine.header, ClassForm.header, trimmed]
    · simp [ClassLine.text, ClassForm.text, ClassForm.front, Blanks.append, whole]

theorem ClassLine.form (line : ClassLine) :
    ∃ form : ClassForm, form.header = line.header ∧ form.text = line.text := by
  obtain ⟨intrinsic, dynamic, gap, name, base, interfaces, blanks⟩ := line
  cases interfaces with
  | none =>
    refine ⟨⟨intrinsic, dynamic, gap, name, base, none, blanks⟩, rfl, ?_⟩
    simp [ClassLine.text, ClassForm.text, ClassForm.front]
  | some part =>
    obtain ⟨before, behind, list⟩ := part
    obtain ⟨groups, held, whole⟩ := list.grouped
    have trimmed : trim list.text = list.text := by simpa [Blanks.empty] using list.trim_append .empty
    refine ⟨⟨intrinsic, dynamic, gap, name, base, some ⟨before, behind, groups, held⟩, blanks⟩, ?_, ?_⟩
    · simp [ClassLine.header, ClassForm.header, ImplementsPart.list, ← whole, trimmed]
    · simp [ClassLine.text, ClassForm.text, ClassForm.front, ImplementsPart.text, ImplementsPart.list, ListPart.text,
        ← whole]

theorem ClassForm.read (form : ClassForm) (rest : Text) :
    Form.classHeader.read? (form.text ++ rest) = some (.classHeader form.header, rest) := by
  obtain ⟨line, header, text⟩ := form.line
  rw [← header, ← text]
  simp [Form.read?, classHeader?_written]

theorem ClassForm.front_unbraced (form : ClassForm) : '\x7b' ∉ form.front := by
  have blank : ∀ blanks : Blanks, '\x7b' ∉ blanks.text := fun blanks => free_of_spelt blanks.blank (by decide)
  have named : ∀ name : SpeltName, '\x7b' ∉ name.text := fun name => free_of_spelt name.text_spelt (by decide)
  have grouped : ∀ group : ListGroup, '\x7b' ∉ group.text := by
    intro group
    have run : '\x7b' ∉ group.run := free_of_spelt group.spelt (by decide)
    have comma : '\x7b' ∉ commaText group.comma := by cases group.comma <;> decide
    simp [ListGroup.text, run, comma, blank]
  have marked : ∀ mark : DynamicMark, '\x7b' ≠ mark.sign := by
    intro mark same
    have allowed := mark.allowed
    rw [← same] at allowed
    exact absurd allowed (by decide)
  obtain ⟨intrinsic, dynamic, gap, name, base, interfaces, blanks⟩ := form
  simp only [ClassForm.front, List.mem_append, not_or]
  refine ⟨?_, ?_, by decide, blank gap.toBlanks, named name, ?_, ?_, blank blanks⟩
  · cases intrinsic with
    | none => exact List.not_mem_nil
    | some gap => simp [intrinsicText, blank]
  · cases dynamic with
    | none => exact List.not_mem_nil
    | some mark => simp [dynamicText, marked]
  · cases base with
    | none => exact List.not_mem_nil
    | some part => simp [BasePart.text, blank, named]
  · cases interfaces with
    | none => exact List.not_mem_nil
    | some part => simp [ImplementsPart.text, ImplementsPart.list, blank, grouped]

-- Headers are read where they stand and nowhere else. However a header is cut into its parts, it
-- says the same, and it ends with the first brace of the text.
theorem classHeader_exact (text : Text) :
    (∀ declaration rest, Form.classHeader.read? text = some (declaration, rest) ↔
      ∃ form : ClassForm, text = form.text ++ rest ∧ declaration = .classHeader form.header) ∧
    (∀ (first second : ClassForm) (rest other : Text), text = first.text ++ rest → text = second.text ++ other →
      first.header = second.header ∧ rest = other) ∧
    (∀ declaration rest, Form.classHeader.read? text = some (declaration, rest) → BehindFirst '\x7b' text rest) := by
  have sound : ∀ declaration rest, Form.classHeader.read? text = some (declaration, rest) →
      ∃ form : ClassForm, text = form.text ++ rest ∧ declaration = .classHeader form.header := by
    intro declaration rest read
    obtain ⟨⟨header, behind⟩, found, same⟩ := Option.map_eq_some_iff.mp read
    cases same
    obtain ⟨line, said, whole⟩ := classHeader?_parts found
    obtain ⟨form, header, written⟩ := line.form
    exact ⟨form, by rw [written, whole], by rw [header, said]⟩
  refine ⟨?_, ?_, ?_⟩
  · intro declaration rest
    refine ⟨sound declaration rest, ?_⟩
    rintro ⟨form, whole, same⟩
    rw [whole, same]
    exact form.read rest
  · intro first second rest other left right
    have one := first.read rest
    rw [← left, right, second.read other] at one
    simp only [Option.some.injEq, Prod.mk.injEq, Declaration.classHeader.injEq] at one
    exact ⟨one.1.symm, one.2.symm⟩
  · intro declaration rest read
    obtain ⟨form, whole, _⟩ := sound declaration rest read
    refine ⟨form.front, ?_, form.front_unbraced⟩
    rw [whole, ClassForm.text, List.append_assoc]
    rfl

def PlainName.listGroup (name : PlainName) (comma : Bool) (behind : Blanks) : ListGroup :=
  ⟨name.text, name.held, fun c member => isQualifiedPart_of_isNamePart (name.spelt c member), .empty, comma, behind⟩

-- The blank in front of the brace of `class D implements I,J {x` is the list's own or not.
def groupedForm (last blanks : Blanks) : ClassForm where
  intrinsic := none
  dynamic := none
  gap := .space
  name := (PlainName.single 'D' (by decide)).unpackaged
  base := none
  interfaces := some ⟨.space, .space,
    [(PlainName.single 'I' (by decide)).listGroup true .empty, (PlainName.single 'J' (by decide)).listGroup false last],
    List.cons_ne_nil _ _⟩
  blanks := blanks

theorem classHeader_exact_regrouped :
    "class D implements I,J \x7bx".toList = (groupedForm Gap.space.toBlanks .empty).text ++ ['x'] ∧
      "class D implements I,J \x7bx".toList = (groupedForm .empty Gap.space.toBlanks).text ++ ['x'] ∧
      (groupedForm Gap.space.toBlanks .empty).header = (groupedForm .empty Gap.space.toBlanks).header ∧
      BehindFirst '\x7b' "class D implements I,J \x7bx".toList ['x'] := by
  have exact_form := classHeader_exact "class D implements I,J \x7bx".toList
  have read := (exact_form.1 (.classHeader (groupedForm .empty .empty).header) ['x']).mpr
    ⟨groupedForm .empty Gap.space.toBlanks, rfl, rfl⟩
  exact ⟨rfl, rfl, (exact_form.2.1 _ _ ['x'] ['x'] rfl rfl).1, exact_form.2.2 _ _ read⟩

end Intrinsics
