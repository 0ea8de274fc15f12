import Intrinsics.Proofs.Scan.Adjacent
import Intrinsics.Proofs.Stub.RoundTrip

namespace Intrinsics
open Text

-- An emitter that has been in use. A scan writes the stub of its source into it, whatever it held,
-- and the stub depends on nothing but the declarations that are not hidden from its reader.

inductive Declaration.Hidden : Declaration → Prop where
  | method {signature : Signature} : signature.access.visibility = .hidden → Hidden (.method signature)
  | getter {signature : Signature} : signature.access.visibility = .hidden → Hidden (.getter signature)
  | setter {signature : Signature} : signature.access.visibility = .hidden → Hidden (.setter signature)
  | property {var : Property} : var.access.visibility = .hidden → Hidden (.property var)

theorem Declaration.isHidden_iff {declaration : Declaration} :
    declaration.isHidden = true ↔ declaration.Hidden := by
  constructor
  · intro hidden
    cases declaration with
    | importing | classHeader | interfaceHeader => cases hidden
    | method signature => exact .method (by simpa [isHidden, visibility?] using hidden)
    | getter signature => exact .getter (by simpa [isHidden, visibility?] using hidden)
    | setter signature => exact .setter (by simpa [isHidden, visibility?] using hidden)
    | property var => exact .property (by simpa [isHidden, visibility?] using hidden)
  · intro hidden
    cases hidden with
    | method held | getter held | setter held | property held => simp [isHidden, visibility?, held]

instance (declaration : Declaration) : Decidable declaration.Hidden :=
  decidable_of_iff (declaration.isHidden = true) Declaration.isHidden_iff

def exposed (found : List Declaration) : List Declaration :=
  found.filter fun declaration => ¬ declaration.Hidden

def Stub.ofDeclarations (found : List Declaration) : Stub :=
  ⟨lastType found, found.flatMap Declaration.stub ++ "\x7d\n".toList⟩

theorem Stub.render_declarations (publicOnly : Bool) (source : Text) :
    Stub.render publicOnly source =
      Stub.ofDeclarations (if publicOnly then exposed (declarations source) else declarations source) := by
  have shown : ∀ found : List Declaration,
      (⟨lastType (found.map .shown), (found.map .shown).flatMap Declaration.stub ++ "\x7d\n".toList⟩ : Stub) =
        Stub.ofDeclarations found := by
    intro found
    simp [Stub.ofDeclarations, lastType_shown, List.flatMap_map]
  rw [Stub.render_eq, outline, shown]
  cases publicOnly with
  | false =>
    have all : (declarations source).filter (fun declaration => !(false && declaration.isHidden)) =
        declarations source := List.filter_eq_self.mpr fun _ _ => rfl
    rw [all, if_neg Bool.false_ne_true]
  | true => simp [exposed, ← Declaration.isHidden_iff]

theorem lastType_eq_none {found : List Declaration} :
    lastType found = none ↔ ∀ declaration ∈ found, declaration.typeName? = none := by
  simp [lastType]

theorem lastType_eq_some {found : List Declaration} {type : QualifiedName} :
    lastType found = some type ↔ ∃ front declaration back, found = front ++ declaration :: back ∧
      declaration.typeName? = some type ∧ ∀ later ∈ back, later.typeName? = none := by
  constructor
  · intro last
    obtain ⟨back, declaration, front, whole, named, untyped⟩ := List.findSome?_eq_some_iff.mp last
    refine ⟨front.reverse, declaration, back.reverse, ?_, named, ?_⟩
    · rw [← List.reverse_reverse found, whole]
      simp
    · exact fun later member => untyped later (List.mem_reverse.mp member)
  · rintro ⟨front, declaration, back, whole, named, untyped⟩
    refine List.findSome?_eq_some_iff.mpr ⟨back.reverse, declaration, front.reverse, ?_, named, ?_⟩
    · rw [whole]
      simp
    · exact fun later member => untyped later (List.mem_reverse.mp member)

namespace Emitter

inductive Call where
  | start
  | declare (declaration : Declaration)
  | complete
  | scan (source : Text)

def answer (emitter : Emitter) : Call → Emitter
  | .start => emitter.start
  | .declare declaration => emitter.declare declaration
  | .complete => emitter.complete
  | .scan source => emitter.scan source

def answerAll (calls : List Call) (emitter : Emitter) : Emitter := calls.foldl answer emitter

theorem declare_publicOnly (declaration : Declaration) (emitter : Emitter) :
    (emitter.declare declaration).publicOnly = emitter.publicOnly := by
  unfold declare
  split <;> rfl

theorem told_publicOnly (found : List (Declaration × ScanState)) (emitter : Emitter) :
    (found.foldl (fun emitter (declaration, _) => listener.declaration declaration emitter) emitter).publicOnly =
      emitter.publicOnly := by
  induction found generalizing emitter with
  | nil => rfl
  | cons item found ih => exact (ih (emitter.declare item.1)).trans (declare_publicOnly item.1 emitter)

-- The start of a scan keeps nothing but the setting.
theorem scan_eq_render (source : Text) (emitter : Emitter) :
    emitter.scan source = ⟨emitter.publicOnly, Stub.render emitter.publicOnly source⟩ := by
  have setting : (emitter.scan source).publicOnly = emitter.publicOnly := told_publicOnly _ emitter.start
  have stub : (emitter.scan source).stub = Stub.render emitter.publicOnly source := rfl
  rw [← stub, ← setting]

theorem answer_publicOnly (call : Call) (emitter : Emitter) :
    (emitter.answer call).publicOnly = emitter.publicOnly := by
  cases call with
  | start => rfl
  | declare declaration => exact declare_publicOnly declaration emitter
  | complete => rfl
  | scan source => rw [answer, scan_eq_render]

theorem answerAll_publicOnly (calls : List Call) (emitter : Emitter) :
    (emitter.answerAll calls).publicOnly = emitter.publicOnly := by
  induction calls generalizing emitter with
  | nil => rfl
  | cons call calls ih => exact (ih (emitter.answer call)).trans (answer_publicOnly call emitter)

end Emitter

-- A scan leaves the stub of its source and nothing of what the emitter was told before. The stub is
-- filed under the last type and has one line for each declaration, hidden members left out where
-- only the public ones are wanted; so sources that differ in hidden members only get the same one.
theorem scan_forgets (publicOnly : Bool) (calls : List Emitter.Call) (source : Text) :
    (Emitter.answerAll calls ⟨publicOnly, {}⟩).scan source = ⟨publicOnly, Stub.render publicOnly source⟩ ∧
    Stub.render publicOnly source =
      Stub.ofDeclarations (if publicOnly then exposed (declarations source) else declarations source) ∧
    (∀ type, (Stub.render publicOnly source).typeName = some type ↔
      ∃ front declaration back, declarations source = front ++ declaration :: back ∧
        declaration.typeName? = some type ∧ ∀ later ∈ back, later.typeName? = none) ∧
    ((Stub.render publicOnly source).typeName = none ↔
      ∀ declaration ∈ declarations source, declaration.typeName? = none) ∧
    (∀ other, exposed (declarations source) = exposed (declarations other) →
      Stub.render true source = Stub.render true other) := by
  have type : (Stub.render publicOnly source).typeName = lastType (declarations source) := by
    rw [Stub.render_eq, outline, lastType_shown, lastType_filter]
  refine ⟨?_, Stub.render_declarations publicOnly source, ?_, ?_, ?_⟩
  · rw [Emitter.scan_eq_render, Emitter.answerAll_publicOnly]
  · intro name
    rw [type, lastType_eq_some]
  · rw [type, lastType_eq_none]
  · intro other same
    rw [Stub.render_declarations, Stub.render_declarations, if_pos rfl, if_pos rfl, same]

def hiddenVariable : PropertyLine := { localVariable with attributes := shelfProperty.attributes }

theorem isNamePart_capital : isNamePart 'A' = true := by decide

def plainInterface : InterfaceLine := ⟨none, .space, (PlainName.single 'A' isNamePart_capital).unpackaged, none⟩

def hiddenSource : Text := "private var x;interface A".toList

def openSource : Text := "interface A".toList

theorem declarations_hiddenSource : declarations hiddenSource =
    [.property ⟨⟨.hidden, false⟩, "x".toList, none⟩, .interfaceHeader ⟨⟨[], "A".toList⟩, none⟩] := by
  have parts : hiddenSource = hiddenVariable.text ++ plainInterface.text := rfl
  rw [declarations_eq_survey, parts, hiddenVariable.passes (Int.le_refl 0), plainInterface.survey_alone (Int.le_refl 0)]
  rfl

theorem declarations_openSource : declarations openSource = [.interfaceHeader ⟨⟨[], "A".toList⟩, none⟩] := by
  have parts : openSource = plainInterface.text := rfl
  rw [declarations_eq_survey, parts, plainInterface.survey_alone (Int.le_refl 0)]
  rfl

-- The hidden property leaves no trace, and neither does what the emitter was told before.
theorem scan_forgets_hidden :
    exposed (declarations hiddenSource) = exposed (declarations openSource) ∧
      Stub.render true hiddenSource = Stub.render true openSource ∧
      (Emitter.answerAll [.complete, .scan openSource, .declare (.importing ⟨"a".toList, "B".toList⟩)]
        ⟨true, {}⟩).scan hiddenSource = ⟨true, ⟨some ⟨[], "A".toList⟩, "interface A \x7b\n\x7d\n".toList⟩⟩ := by
  have same : exposed (declarations hiddenSource) = exposed (declarations openSource) := by
    rw [declarations_hiddenSource, declarations_openSource]
    decide
  have equal := (scan_forgets true [] hiddenSource).2.2.2.2 openSource same
  refine ⟨same, equal, ?_⟩
  rw [(scan_forgets true _ hiddenSource).1, equal, Stub.render_declarations, declarations_openSource]
  rfl

end Intrinsics
