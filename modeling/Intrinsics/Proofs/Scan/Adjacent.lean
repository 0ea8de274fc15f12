import Intrinsics.Proofs.Scan.SourceFile

namespace Intrinsics
open Text

-- Two types in one text. Only the brace of a class header is taken without being counted, so
-- behind a class the scan stands one level below the one it began at, and the bodies of what
-- follows are read at depth zero, as if they stood outside of every block.

def Member.bodies : Member → List Body
  | .function _ _ body => [body]
  | .property _ => []

namespace TypeDefinition

def bodies : TypeDefinition → List Body
  | .ofClass _ members _ => members.flatMap fun item => item.2.bodies
  | .ofInterface _ _ body => [body]

def isInterface : TypeDefinition → Bool
  | .ofClass .. => false
  | .ofInterface .. => true

end TypeDefinition

-- What a body shows when it is read outside of blocks, its closing brace included.
def Body.leak (body : Body) : List Declaration := declarations (body.text ++ ['\x7d'])

-- Read so, the body ends where its brace closes: nothing in it reaches over that brace.
def Body.Level (body : Body) : Prop := Passes 0 (body.text ++ ['\x7d']) body.leak (-1)

theorem Body.Level.passes {body : Body} (level : body.Level) : Passes (-1) body.block body.leak (-1) := by
  intro rest
  rw [Body.block, List.cons_append, survey_open, show (-1 : Int) + 1 = 0 from rfl, level]

def Member.leaking (member : Member) : List Declaration :=
  member.declaration :: member.bodies.flatMap Body.leak

def TypeDefinition.leaking : TypeDefinition → List Declaration
  | .ofClass line members _ => .classHeader line.header :: members.flatMap fun item => item.2.leaking
  | .ofInterface line _ body => .interfaceHeader line.header :: body.leak

def SourceFile.leaking (file : SourceFile) : List Declaration :=
  file.imports.map (fun item => .importing item.2.target) ++ file.type.leaking

theorem Member.passes_below (member : Member) (level : ∀ body ∈ member.bodies, body.Level) :
    Passes (-1) member.text member.leaking (-1) := by
  cases member with
  | property line => exact line.passes (by omega)
  | function line filler body =>
    intro rest
    have block := (filler.passes (-1)).append (level body List.mem_cons_self).passes
    simp only [Member.text, List.append_assoc]
    rw [line.survey_eq (by omega) (filler.behindFunction body rest), ← List.append_assoc, block rest]
    simp [Member.leaking, Member.declaration, Member.bodies]

theorem TypeDefinition.passes_below (type : TypeDefinition) (level : ∀ body ∈ type.bodies, body.Level) :
    Passes (-1) type.text type.leaking (type.depth - 1) := by
  cases type with
  | ofClass line members filler =>
    have header := line.passes (show (-1 : Int) ≤ 0 by omega)
    have inside := items_pass Member.text Member.leaking members fun item member =>
      item.2.passes_below fun body held => level body (List.mem_flatMap.mpr ⟨item, member, held⟩)
    have close : Passes (-1) ['\x7d'] [] (-2) := fun rest => survey_close (-1) rest
    have whole := header.append (inside.append ((filler.passes (-1)).append close))
    simpa [TypeDefinition.text, TypeDefinition.leaking, TypeDefinition.depth] using whole
  | ofInterface line filler body =>
    intro rest
    have block := (filler.passes (-1)).append (level body List.mem_cons_self).passes
    simp only [TypeDefinition.text, List.append_assoc]
    rw [line.survey_eq (by omega) (filler.behindFunction body rest).name (filler.behindInterface body rest),
      ← List.append_assoc, block rest]
    simp [TypeDefinition.leaking, TypeDefinition.depth]

theorem SourceFile.passes_below (file : SourceFile) (level : ∀ body ∈ file.type.bodies, body.Level) :
    Passes (-1) file.text file.leaking (file.type.depth - 1) := by
  have imports := items_pass ImportLine.text (fun line => [.importing line.target]) file.imports
    fun item _ => item.2.passes (show (-1 : Int) ≤ 0 by omega)
  have whole := imports.append ((file.lead.passes (-1)).append
    ((file.type.passes_below level).append (file.trail.passes (file.type.depth - 1))))
  simpa [SourceFile.text, SourceFile.leaking, List.map_eq_flatMap] using whole

theorem leaking_length (members : List (Filler × Member)) :
    members.length ≤ (members.flatMap fun item => item.2.leaking).length := by
  induction members with
  | nil => exact Nat.le_refl _
  | cons item members ih =>
    simp only [List.flatMap_cons, Member.leaking, List.length_append, List.length_cons] at ih ⊢
    omega

-- Every member is shown at its place, so what the bodies show can only come on top of it.
theorem leaking_members (members : List (Filler × Member)) :
    (members.flatMap fun item => item.2.leaking) = (members.map fun item => item.2.declaration) ↔
      ∀ body ∈ members.flatMap (fun item => item.2.bodies), body.leak = [] := by
  induction members with
  | nil => simp
  | cons item members ih =>
    simp only [List.flatMap_cons, List.map_cons, List.mem_append, or_imp, forall_and, ← ih]
    constructor
    · intro same
      have sizes := congrArg List.length same
      have more := leaking_length members
      simp only [Member.leaking, List.length_append, List.length_cons, List.length_map] at sizes more
      have none : item.2.bodies.flatMap Body.leak = [] := List.length_eq_zero_iff.mp (by omega)
      refine ⟨List.flatMap_eq_nil_iff.mp none, ?_⟩
      simpa [Member.leaking, none] using same
    · intro quiet
      obtain ⟨silent, rest⟩ := quiet
      rw [rest, Member.leaking, List.flatMap_eq_nil_iff.mpr silent]
      rfl

theorem SourceFile.leaking_eq (file : SourceFile) :
    file.leaking = file.declarations ↔ ∀ body ∈ file.type.bodies, body.leak = [] := by
  obtain ⟨imports, lead, type, trail⟩ := file
  cases type with
  | ofClass line members filler =>
    simpa [SourceFile.leaking, SourceFile.declarations, TypeDefinition.leaking, TypeDefinition.declarations,
      TypeDefinition.bodies] using leaking_members members
  | ofInterface line filler body =>
    simp [SourceFile.leaking, SourceFile.declarations, TypeDefinition.leaking, TypeDefinition.declarations,
      TypeDefinition.bodies]

theorem declarations_behind (first : SourceFile) (rest : Text) :
    declarations (first.text ++ '\n' :: rest) = first.declarations ++ (survey first.type.depth rest).1 := by
  rw [declarations_eq_survey, first.passes, survey_blank rfl]
  rfl

-- Behind an interface a second type is read as if it stood alone. Behind a class it is read
-- from one level below: where its bodies are level this shows the same exactly if no body
-- holds anything that reads as a declaration.
theorem declarations_adjacent (first second : SourceFile) :
    (declarations (first.text ++ '\n' :: second.text) = declarations first.text ++ declarations second.text ↔
      first.type.isInterface = true ∨ declarationsAt (-1) second.text = declarations second.text) ∧
    ((∀ body ∈ second.type.bodies, body.Level) →
      (declarations (first.text ++ '\n' :: second.text) = declarations first.text ++ declarations second.text ↔
        first.type.isInterface = true ∨ ∀ body ∈ second.type.bodies, body.leak = [])) := by
  have exact_condition : declarations (first.text ++ '\n' :: second.text) =
      declarations first.text ++ declarations second.text ↔
      first.type.isInterface = true ∨ declarationsAt (-1) second.text = declarations second.text := by
    have alone : declarations first.text = first.declarations := by
      rw [declarations_eq_survey, first.passes.survey_eq]
    rw [declarations_behind, alone, List.append_cancel_left_eq, declarationsAt_eq_survey]
    cases first.type with
    | ofClass line members filler => simp [TypeDefinition.depth, TypeDefinition.isInterface]
    | ofInterface line filler body =>
      simp [TypeDefinition.depth, TypeDefinition.isInterface, declarations_eq_survey]
  refine ⟨exact_condition, ?_⟩
  intro level
  have below := (second.passes_below level).survey_eq
  have whole : declarations second.text = second.declarations := by
    rw [declarations_eq_survey, second.passes.survey_eq]
  rw [exact_condition, declarationsAt_eq_survey, below, whole, second.leaking_eq]

-- The shortest such pair: `class A{}` and `class B{function f(){var x;}}`. The second body is
-- level, and behind the first class its variable is shown.
theorem Closed.of_plain {text : Text} (plain : ∀ c ∈ text, (!isQuote c && !isBrace c && c != '/') = true) :
    Closed text := by
  induction text with
  | nil => exact .nil
  | cons c text ih =>
    have first := plain c List.mem_cons_self
    simp only [Bool.and_eq_true, Bool.not_eq_true', bne_iff_ne] at first
    obtain ⟨⟨unquoted, unbraced⟩, other⟩ := first
    exact .plain unquoted unbraced (fun slash => absurd slash other)
      (ih fun d member => plain d (List.mem_cons_of_mem _ member))

def Filler.empty : Filler := ⟨[], .nil⟩

def localVariable : PropertyLine := ⟨⟨[], by decide⟩, .space, .single 'x' (by decide), none, none⟩

def localBody : Body := ⟨localVariable.text, .of_plain (List.all_eq_true.mp (by decide))⟩

theorem localBody_passes : Passes 0 (localBody.text ++ ['\x7d']) [.property localVariable.property] (-1) := by
  have close : Passes 0 ['\x7d'] [] (-1) := fun rest => survey_close 0 rest
  exact (localVariable.passes (Int.le_refl 0)).append close

theorem localBody_leak : localBody.leak = [.property localVariable.property] := by
  rw [Body.leak, declarations_eq_survey, localBody_passes.survey_eq]

def classOf (name : PlainName) (members : List (Filler × Member)) : SourceFile where
  imports := []
  lead := .empty
  type := .ofClass ⟨none, none, .space, name.unpackaged, none, none, .empty⟩ members .empty
  trail := .empty

def emptyClass : SourceFile := classOf (.single 'A' (by decide)) []

def localClass : SourceFile :=
  classOf (.single 'B' (by decide))
    [(.empty, .function ⟨⟨[], by decide⟩, .space, none, .single 'f' (by decide), .empty, [], by simp, none⟩
      .empty localBody)]

theorem declarations_adjacent_leak :
    emptyClass.text = "class A\x7b\x7d".toList ∧
      localClass.text = "class B\x7bfunction f()\x7bvar x;\x7d\x7d".toList ∧
      (∀ body ∈ localClass.type.bodies, body.Level) ∧
      declarations (emptyClass.text ++ '\n' :: localClass.text) ≠
        declarations emptyClass.text ++ declarations localClass.text := by
  have level : ∀ body ∈ localClass.type.bodies, body.Level := by
    intro body member
    have same : body = localBody := by simpa [localClass, classOf, TypeDefinition.bodies, Member.bodies] using member
    rw [same, Body.Level, localBody_leak]
    exact localBody_passes
  refine ⟨rfl, rfl, level, ?_⟩
  intro joined
  rcases ((declarations_adjacent emptyClass localClass).2 level).mp joined with opened | quiet
  · cases opened
  · have silent := quiet localBody (by simp [localClass, classOf, TypeDefinition.bodies, Member.bodies])
    rw [localBody_leak] at silent
    cases silent

end Intrinsics
