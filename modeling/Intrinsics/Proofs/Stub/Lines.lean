import Intrinsics.Proofs.Declaration.Lines
import Intrinsics.Stub.Basic

namespace Intrinsics
open Text

-- The lines of a stub. What a line says is said once more with single spaces for its blanks,
-- and the text of the declaration is the text of that line.
namespace Declaration

-- What a stub keeps of a declaration: a getter loses its parameters.
def shown : Declaration → Declaration
  | .getter signature => .getter { signature with params := [] }
  | declaration => declaration

def isInterface : Declaration → Bool
  | .interfaceHeader _ => true
  | _ => false

@[simp] theorem shown_shown (declaration : Declaration) : declaration.shown.shown = declaration.shown := by
  cases declaration <;> rfl

@[simp] theorem stub_shown (declaration : Declaration) : declaration.shown.stub = declaration.stub := by
  cases declaration <;> rfl

@[simp] theorem typeName?_shown (declaration : Declaration) :
    declaration.shown.typeName? = declaration.typeName? := by
  cases declaration <;> rfl

@[simp] theorem isHidden_shown (declaration : Declaration) : declaration.shown.isHidden = declaration.isHidden := by
  cases declaration <;> rfl

end Declaration

def ImportLine.stub (line : ImportLine) : ImportLine :=
  { line with before := Gap.space.toBlanks, behind := .empty }

def BasePart.stub (part : BasePart) : BasePart := ⟨.space, .space, part.name⟩

def ListPart.stub (part : ListPart) : ListPart := ⟨.space, .space, part.list⟩

def TypePart.stub (part : TypePart) : TypePart := ⟨.empty, .empty, part.name⟩

def ClassLine.stub (line : ClassLine) : ClassLine where
  intrinsic := some .space
  dynamic := line.dynamic.map fun _ => ⟨' ', by decide⟩
  gap := .space
  name := line.name
  base := line.base.map BasePart.stub
  interfaces := line.interfaces.map ListPart.stub
  blanks := Gap.space.toBlanks

def InterfaceLine.stub (line : InterfaceLine) : InterfaceLine :=
  ⟨none, .space, line.name, line.base.map BasePart.stub⟩

def Access.attributes (access : Access) : Attributes where
  items := (match access.visibility with | .exposed => .exposed | .hidden => .hidden, .space) ::
    if access.isStatic then [(.fixed, .space)] else []
  few := by cases access.isStatic <;> simp

def FunctionLine.isGetter (line : FunctionLine) : Bool :=
  match line.accessor with
  | some (.get, _) => true
  | _ => false

def FunctionLine.stub (line : FunctionLine) : FunctionLine where
  attributes := (Access.ofAttributes line.attributes.words).attributes
  gap := .space
  accessor := line.accessor.map fun item => (item.1, .space)
  name := line.name
  blanks := .empty
  params := if line.isGetter then [] else line.params
  enclosed := by
    split
    · simp
    · exact line.enclosed
  result := line.result.map TypePart.stub

def PropertyLine.stub (line : PropertyLine) : PropertyLine :=
  ⟨(Access.ofAttributes line.attributes.words).attributes, .space, line.name, line.type.map TypePart.stub, none⟩

theorem Access.ofAttributes_attributes (access : Access) : Access.ofAttributes access.attributes.words = access := by
  obtain ⟨visibility, isStatic⟩ := access
  cases visibility <;> cases isStatic <;> rfl

theorem Access.attributes_text (access : Access) (rest : Text) :
    '\t' :: (access.attributes.text ++ rest) = access.stub ++ (' ' :: rest) := by
  obtain ⟨visibility, isStatic⟩ := access
  cases visibility <;> cases isStatic <;> rfl

theorem typeMark_stub (part : Option TypePart) :
    typeMark (part.map (·.name.value)) = (part.map TypePart.stub).elim [] TypePart.text := by
  cases part <;> rfl

theorem baseMark_stub (part : Option BasePart) :
    baseMark (part.map (·.name.value)) = (part.map BasePart.stub).elim [] BasePart.text := by
  cases part <;> rfl

theorem interfacesMark_stub (part : Option ListPart) :
    interfacesMark (part.map (·.list.text)) = (part.map ListPart.stub).elim [] ListPart.text := by
  cases part <;> rfl

theorem ImportLine.stub_text (line : ImportLine) :
    (Declaration.importing line.target).stub = line.stub.text ++ ['\n'] := by
  have target : line.target.text = line.package ++ '.' :: line.name := by
    simp [ImportLine.target, QualifiedName.text, line.packaged]
  calc (Declaration.importing line.target).stub = "import ".toList ++ line.target.text ++ ";\n".toList := rfl
    _ = line.stub.text ++ ['\n'] := by
      rw [target, ImportLine.text_append]
      simp only [List.append_assoc, List.cons_append]
      rfl

theorem ClassLine.stub_text (line : ClassLine) : line.header.stub = line.stub.text ++ ['\n'] := by
  obtain ⟨intrinsic, dynamic, gap, name, base, interfaces, blanks⟩ := line
  calc (ClassLine.mk intrinsic dynamic gap name base interfaces blanks).header.stub
    _ = "intrinsic".toList ++ (if dynamic.isSome then " dynamic".toList else []) ++ " class ".toList ++
        name.value.text ++ baseMark (base.map (·.name.value)) ++ interfacesMark (interfaces.map (·.list.text)) ++
        " \x7b\n".toList := rfl
    _ = (ClassLine.mk intrinsic dynamic gap name base interfaces blanks).stub.text ++ ['\n'] := by
      simp only [ClassLine.text, baseMark_stub, interfacesMark_stub, List.append_assoc]
      cases dynamic with
      | none => rfl
      | some mark => rfl

theorem InterfaceLine.stub_text (line : InterfaceLine) : line.header.stub = line.stub.text ++ " \x7b\n".toList := by
  calc line.header.stub
    _ = "interface ".toList ++ line.name.value.text ++ baseMark (line.base.map (·.name.value)) ++
        " \x7b\n".toList := rfl
    _ = line.stub.text ++ " \x7b\n".toList := by
      simp only [InterfaceLine.text, baseMark_stub, List.append_assoc]
      rfl

theorem ClassLine.stub_header (line : ClassLine) : line.stub.header = line.header := by
  obtain ⟨_, dynamic, _, name, base, interfaces, _⟩ := line
  cases dynamic <;> cases base <;> cases interfaces <;> rfl

theorem InterfaceLine.stub_header (line : InterfaceLine) : line.stub.header = line.header := by
  obtain ⟨_, _, name, base⟩ := line
  cases base <;> rfl

theorem FunctionLine.stub_signature (line : FunctionLine) :
    line.stub.signature = { line.signature with params := line.stub.params } := by
  simp [FunctionLine.signature, FunctionLine.stub, Access.ofAttributes_attributes, TypePart.stub,
    Function.comp_def]

def AccessorWord.stub (accessor : Option (AccessorWord × Gap)) : Text :=
  accessor.elim [] fun item => item.1.text ++ [' ']

theorem FunctionLine.signature_stub (line : FunctionLine) :
    line.signature.stub (AccessorWord.stub line.accessor) line.stub.params =
      '\t' :: (line.stub.text ++ ";\n".toList) := by
  calc line.signature.stub (AccessorWord.stub line.accessor) line.stub.params
    _ = (Access.ofAttributes line.attributes.words).stub ++ " function ".toList ++ AccessorWord.stub line.accessor ++
        line.name.text ++ '(' :: line.stub.params ++ ')' :: typeMark (line.result.map (·.name.value)) ++
        ";\n".toList := rfl
    _ = (Access.ofAttributes line.attributes.words).stub ++ (' ' :: ("function ".toList ++
        (AccessorWord.stub line.accessor ++ (line.name.text ++ ('(' :: (line.stub.params ++
          (')' :: ((line.result.map TypePart.stub).elim [] TypePart.text ++ ";\n".toList)))))))) := by
      rw [typeMark_stub]
      simp only [List.append_assoc, List.cons_append]
      rfl
    _ = '\t' :: (line.stub.text ++ ";\n".toList) := by
      rw [← Access.attributes_text]
      simp only [FunctionLine.text, FunctionLine.signatureText, List.append_assoc]
      cases accessor : line.accessor with
      | none =>
        simp only [FunctionLine.stub, accessor]
        rfl
      | some item =>
        simp only [AccessorWord.stub, FunctionLine.stub, accessor, Option.elim_some, Option.map_some,
          List.append_assoc]
        rfl

theorem FunctionLine.stub_declaration (line : FunctionLine) : line.stub.declaration = line.declaration.shown := by
  have said := line.stub_signature
  obtain ⟨_, _, accessor, _, _, _, _, _⟩ := line
  cases accessor with
  | none => exact congrArg Declaration.method said
  | some item =>
    obtain ⟨word, _⟩ := item
    cases word with
    | get => exact congrArg Declaration.getter said
    | set => exact congrArg Declaration.setter said

theorem FunctionLine.stub_text (line : FunctionLine) :
    line.declaration.stub = '\t' :: (line.stub.text ++ ";\n".toList) := by
  rw [← line.signature_stub]
  obtain ⟨_, _, accessor, _, _, _, _, _⟩ := line
  cases accessor with
  | none => rfl
  | some item =>
    obtain ⟨word, _⟩ := item
    cases word with
    | get => rfl
    | set => rfl

theorem PropertyLine.stub_property (line : PropertyLine) : line.stub.property = line.property := by
  simp [PropertyLine.property, PropertyLine.stub, Access.ofAttributes_attributes, TypePart.stub, Function.comp_def]

theorem PropertyLine.stub_text (line : PropertyLine) :
    line.property.stub = '\t' :: (line.stub.text ++ ['\n']) := by
  calc line.property.stub
    _ = (Access.ofAttributes line.attributes.words).stub ++ " var ".toList ++ line.name.text ++
        typeMark (line.type.map (·.name.value)) ++ ";\n".toList := rfl
    _ = (Access.ofAttributes line.attributes.words).stub ++ (' ' :: ("var ".toList ++ (line.name.text ++
        ((line.type.map TypePart.stub).elim [] TypePart.text ++ ";\n".toList)))) := by
      rw [typeMark_stub]
      simp only [List.append_assoc]
      rfl
    _ = '\t' :: (line.stub.text ++ ['\n']) := by
      rw [← Access.attributes_text]
      simp only [PropertyLine.text, List.append_assoc]
      rfl
end Intrinsics
