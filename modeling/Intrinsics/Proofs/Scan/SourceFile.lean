import Intrinsics.Proofs.Scan.Lines

namespace Intrinsics
open Text

-- Files that declare one type: imports, then a class with its members or an interface, with
-- white space and complete comments between any two of these.

structure Filler where
  text : Text
  separating : Separating text

structure Body where
  text : Text
  closed : Closed text

def Body.block (body : Body) : Text := '\x7b' :: (body.text ++ ['\x7d'])

inductive Member where
  | function (line : FunctionLine) (filler : Filler) (body : Body)
  | property (line : PropertyLine)

namespace Member

def text : Member → Text
  | .function line filler body => line.text ++ (filler.text ++ body.block)
  | .property line => line.text

def declaration : Member → Declaration
  | .function line _ _ => line.declaration
  | .property line => .property line.property

end Member

inductive TypeDefinition where
  | ofClass (line : ClassLine) (members : List (Filler × Member)) (filler : Filler)
  | ofInterface (line : InterfaceLine) (filler : Filler) (body : Body)

namespace TypeDefinition

def text : TypeDefinition → Text
  | .ofClass line members filler =>
    line.text ++ (members.flatMap (fun item => item.1.text ++ item.2.text) ++ (filler.text ++ ['\x7d']))
  | .ofInterface line filler body => line.text ++ (filler.text ++ body.block)

def declarations : TypeDefinition → List Declaration
  | .ofClass line members _ => .classHeader line.header :: members.map fun item => item.2.declaration
  | .ofInterface line _ _ => [.interfaceHeader line.header]

-- A class closes the brace that its header took; an interface closes its own.
def depth : TypeDefinition → Int
  | .ofClass .. => -1
  | .ofInterface .. => 0

end TypeDefinition

structure SourceFile where
  imports : List (Filler × ImportLine)
  lead : Filler
  type : TypeDefinition
  trail : Filler

namespace SourceFile

def text (file : SourceFile) : Text :=
  file.imports.flatMap (fun item => item.1.text ++ item.2.text) ++
    (file.lead.text ++ (file.type.text ++ file.trail.text))

def declarations (file : SourceFile) : List Declaration :=
  file.imports.map (fun item => .importing item.2.target) ++ file.type.declarations

end SourceFile

theorem Filler.passes (filler : Filler) (depth : Int) : Passes depth filler.text [] depth :=
  filler.separating.passes depth

theorem Body.passes (body : Body) {depth : Int} (level : 0 ≤ depth) : Passes depth body.block [] depth :=
  body.closed.block_passes level

-- A filler begins with a blank or a slash, or it is empty.
theorem Filler.stops_append {class? : Char → Bool} (filler : Filler) {rest : Text}
    (apart : ∀ c, isBlank c = true → class? c = false) (slash : class? '/' = false) (stops : Stops class? rest) :
    Stops class? (filler.text ++ rest) := by
  obtain ⟨text, separating⟩ := filler
  cases separating with
  | nil => exact stops
  | blank blank _ => exact stops_cons.mpr (apart _ blank)
  | lineComment _ _ => exact stops_cons.mpr slash
  | blockComment _ _ => exact stops_cons.mpr slash

theorem Filler.stops_skipBlanks {class? : Char → Bool} (filler : Filler) {rest : Text}
    (slash : class? '/' = false) (stops : Stops class? (skipBlanks rest)) :
    Stops class? (skipBlanks (filler.text ++ rest)) := by
  obtain ⟨text, separating⟩ := filler
  have comment : ∀ tail : Text, Stops class? (skipBlanks ('/' :: tail)) := by
    intro tail
    rw [skipBlanks_of_stops (stops_cons.mpr rfl)]
    exact stops_cons.mpr slash
  induction separating with
  | nil => exact stops
  | @blank c tail blank _ ih =>
    have same : skipBlanks (c :: (tail ++ rest)) = skipBlanks (tail ++ rest) := List.dropWhile_cons_of_pos blank
    rw [List.cons_append, same]
    exact ih
  | lineComment _ _ _ => exact comment _
  | blockComment _ _ _ => exact comment _

theorem Filler.behindFunction (filler : Filler) (body : Body) (rest : Text) :
    BehindFunction (filler.text ++ (body.block ++ rest)) := by
  constructor
  · exact filler.stops_append (fun _ => isQualifiedPart_of_isBlank) (by decide) (stops_cons.mpr rfl)
  · apply filler.stops_skipBlanks (by decide)
    rw [Body.block, List.cons_append, skipBlanks_of_stops (stops_cons.mpr rfl)]
    exact stops_cons.mpr rfl

theorem Filler.behindInterface (filler : Filler) (body : Body) (rest : Text) :
    Stops (· == 'e') (skipBlanks (filler.text ++ (body.block ++ rest))) := by
  apply filler.stops_skipBlanks (by decide)
  rw [Body.block, List.cons_append, skipBlanks_of_stops (stops_cons.mpr rfl)]
  exact stops_cons.mpr rfl

theorem Member.passes (member : Member) : Passes 0 member.text [member.declaration] 0 := by
  cases member with
  | property line => exact line.passes (Int.le_refl 0)
  | function line filler body =>
    intro rest
    have block := (filler.passes 0).append (body.passes (Int.le_refl 0))
    simp only [Member.text, List.append_assoc]
    rw [line.survey_eq (Int.le_refl 0) (filler.behindFunction body rest), ← List.append_assoc, block rest]
    rfl

-- Items of one kind, each behind its filler, pass one after the other.
theorem items_pass {α : Type} (text : α → Text) (shown : α → List Declaration) {depth : Int}
    (items : List (Filler × α)) (passes : ∀ item ∈ items, Passes depth (text item.2) (shown item.2) depth) :
    Passes depth (items.flatMap fun item => item.1.text ++ text item.2)
      (items.flatMap fun item => shown item.2) depth := by
  induction items with
  | nil => exact .nil depth
  | cons item items ih =>
    have first := (item.1.passes depth).append (passes item List.mem_cons_self)
    simp only [List.flatMap_cons]
    exact first.append (ih fun later member => passes later (List.mem_cons_of_mem _ member))

theorem TypeDefinition.passes (type : TypeDefinition) : Passes 0 type.text type.declarations type.depth := by
  cases type with
  | ofClass line members filler =>
    have header := line.passes (Int.le_refl 0)
    have inside := items_pass Member.text (fun member => [member.declaration]) members
      fun item _ => item.2.passes
    have close : Passes 0 ['\x7d'] [] (-1) := fun rest => survey_close 0 rest
    have whole := header.append (inside.append ((filler.passes 0).append close))
    simpa [TypeDefinition.text, TypeDefinition.declarations, TypeDefinition.depth, List.map_eq_flatMap]
      using whole
  | ofInterface line filler body =>
    intro rest
    have block := (filler.passes 0).append (body.passes (Int.le_refl 0))
    simp only [TypeDefinition.text, List.append_assoc]
    rw [line.survey_eq (Int.le_refl 0) (filler.behindFunction body rest).name (filler.behindInterface body rest),
      ← List.append_assoc, block rest]
    rfl

theorem SourceFile.passes (file : SourceFile) : Passes 0 file.text file.declarations file.type.depth := by
  have imports := items_pass ImportLine.text (fun line => [.importing line.target]) file.imports
    fun item _ => item.2.passes (Int.le_refl 0)
  have whole := imports.append ((file.lead.passes 0).append
    (file.type.passes.append (file.trail.passes file.type.depth)))
  simpa [SourceFile.text, SourceFile.declarations, List.map_eq_flatMap] using whole

-- Whatever stands in bodies, parameters, values and comments: a file of this kind shows its
-- imports, its type and the members of its type, in order and as they are written, and
-- nothing else.
theorem declarations_sourceFile (file : SourceFile) : declarations file.text = file.declarations := by
  rw [declarations_eq_survey, file.passes.survey_eq]

end Intrinsics
