import Intrinsics.Declaration.Reader
import Intrinsics.Text.Delimited
import Mathlib.Data.List.TakeWhile

namespace Intrinsics
open Text

namespace Text

-- A text that does not go on with the given class: a maximal run in front of it ends here.
def Stops (class? : Char → Bool) (rest : Text) : Prop := ∀ c ∈ rest.head?, class? c = false

@[simp] theorem stops_nil (class? : Char → Bool) : Stops class? [] := by
  intro c member
  cases member

@[simp] theorem stops_cons {class? : Char → Bool} {c : Char} {rest : Text} :
    Stops class? (c :: rest) ↔ class? c = false := by
  simp [Stops]

theorem stops_dropWhile (class? : Char → Bool) (text : Text) : Stops class? (text.dropWhile class?) := by
  intro c member
  have head := List.head?_dropWhile_not class? text
  rw [Option.mem_def.mp member] at head
  simpa using head

theorem Stops.dropWhile {class? : Char → Bool} {rest : Text} (stops : Stops class? rest) :
    rest.dropWhile class? = rest := by
  cases rest with
  | nil => rfl
  | cons c tail => simp [stops_cons.mp stops]

theorem Stops.takeWhile {class? : Char → Bool} {rest : Text} (stops : Stops class? rest) :
    rest.takeWhile class? = [] := by
  cases rest with
  | nil => rfl
  | cons c tail => simp [stops_cons.mp stops]

theorem Stops.append {class? : Char → Bool} {front rest : Text} (first : Stops class? front)
    (behind : Stops class? rest) : Stops class? (front ++ rest) := by
  cases front with
  | nil => exact behind
  | cons c tail => exact stops_cons.mpr (stops_cons.mp first)

theorem Stops.mono {small large : Char → Bool} {rest : Text} (stops : Stops large rest)
    (within : ∀ c, small c = true → large c = true) : Stops small rest := by
  intro c member
  cases held : small c with
  | false => rfl
  | true =>
    have := stops c member
    rw [within c held] at this
    exact this

def Starts (class? : Char → Bool) (text : Text) : Prop := ∃ c tail, text = c :: tail ∧ class? c = true

theorem Starts.append {class? : Char → Bool} {text : Text} (starts : Starts class? text) (rest : Text) :
    Starts class? (text ++ rest) := by
  obtain ⟨c, tail, rfl, held⟩ := starts
  exact ⟨c, tail ++ rest, rfl, held⟩

theorem Starts.stops {class? other? : Char → Bool} {text : Text} (starts : Starts class? text)
    (apart : ∀ c, class? c = true → other? c = false) : Stops other? text := by
  obtain ⟨c, tail, rfl, held⟩ := starts
  exact stops_cons.mpr (apart c held)

theorem starts_of_spelt {class? : Char → Bool} {run : Text} (held : run ≠ [])
    (spelt : ∀ c ∈ run, class? c = true) : Starts class? run := by
  cases run with
  | nil => exact absurd rfl held
  | cons c tail => exact ⟨c, tail, rfl, spelt c List.mem_cons_self⟩

theorem free_of_spelt {class? : Char → Bool} {run : Text} {mark : Char} (spelt : ∀ c ∈ run, class? c = true)
    (other : class? mark = false) : mark ∉ run := by
  intro member
  rw [spelt mark member] at other
  cases other

def BehindFirst (mark : Char) (text rest : Text) : Prop := ∃ front, text = front ++ mark :: rest ∧ mark ∉ front

theorem takeWhile_run {class? : Char → Bool} {run rest : Text} (spelt : ∀ c ∈ run, class? c = true)
    (stops : Stops class? rest) : (run ++ rest).takeWhile class? = run := by
  rw [List.takeWhile_append_of_pos spelt, stops.takeWhile, List.append_nil]

theorem dropWhile_run {class? : Char → Bool} {run rest : Text} (spelt : ∀ c ∈ run, class? c = true)
    (stops : Stops class? rest) : (run ++ rest).dropWhile class? = rest := by
  rw [List.dropWhile_append_of_pos spelt, stops.dropWhile]

theorem run?_parts {class? : Char → Bool} {text run rest : Text} :
    run? class? text = some (run, rest) ↔
      text = run ++ rest ∧ run ≠ [] ∧ (∀ c ∈ run, class? c = true) ∧ Stops class? rest := by
  constructor
  · intro read
    obtain ⟨held, taken, left⟩ := run?_exact.mp read
    refine ⟨run?_append read, held, ?_, ?_⟩
    · intro c member
      rw [← taken] at member
      exact List.mem_takeWhile_imp member
    · rw [← left]
      exact stops_dropWhile class? text
  · intro parts
    obtain ⟨whole, held, spelt, stops⟩ := parts
    rw [whole]
    exact run?_exact.mpr ⟨held, takeWhile_run spelt stops, dropWhile_run spelt stops⟩

theorem after?_none_of_head {letter c : Char} {word text : Text} (other : letter ≠ c) :
    after? (letter :: word) (c :: text) = none := by
  simp [after?, other]

theorem after?_none_of_stops {letter : Char} {word text : Text} (stops : Stops (· == letter) text) :
    after? (letter :: word) text = none := by
  cases text with
  | nil => rfl
  | cons c tail =>
    apply after?_none_of_head
    intro same
    rw [same] at stops
    simp at stops

-- A slash opens a comment with the character behind it.
theorem comments_none {c : Char} {text : Text} (slash : c = '/' → Stops (fun d => d == '/' || d == '*') text) :
    lineComment? (c :: text) = none ∧ blockComment? (c :: text) = none := by
  constructor
  · unfold lineComment?
    split
    · rename_i tail same
      simp only [List.cons.injEq] at same
      have stops := slash same.1
      rw [same.2] at stops
      simp at stops
    · rfl
  · unfold blockComment?
    split
    · rename_i tail same
      simp only [List.cons.injEq] at same
      have stops := slash same.1
      rw [same.2] at stops
      simp at stops
    · rfl

theorem dropTrailing_of_last {mark : Char} {text : Text} (last : text.getLast? ≠ some mark) :
    dropTrailing mark text = text := by
  have stops : Stops (· == mark) text.reverse := by
    intro c member
    rw [List.head?_reverse] at member
    apply beq_eq_false_iff_ne.mpr
    intro same
    rw [same] at member
    exact last member
  rw [dropTrailing, stops.dropWhile, List.reverse_reverse]

theorem dropTrailing_parts (mark : Char) (text : Text) :
    ∃ marks, text = dropTrailing mark text ++ marks ∧ ∀ c ∈ marks, c = mark := by
  refine ⟨(text.reverse.takeWhile (· == mark)).reverse, ?_, ?_⟩
  · rw [dropTrailing, ← List.reverse_append, List.takeWhile_append_dropWhile, List.reverse_reverse]
  · intro c member
    have inside := List.mem_takeWhile_imp (List.mem_reverse.mp member)
    exact beq_iff_eq.mp inside

@[simp] theorem optional_some {reader : Text → Option (α × Text)} {text rest : Text} {value : α}
    (read : reader text = some (value, rest)) : optional reader text = (some value, rest) := by
  simp [optional, read]

@[simp] theorem optional_none {reader : Text → Option (α × Text)} {text : Text}
    (refused : reader text = none) : optional reader text = (none, text) := by
  simp [optional, refused]

end Text

-- Blanks that may stand between two words, and blanks that must.
structure Blanks where
  text : Text
  blank : ∀ c ∈ text, isBlank c = true

structure Gap extends Blanks where
  held : text ≠ []

namespace Text

@[simp] theorem skipBlanks_blanks (blanks : Blanks) (rest : Text) :
    skipBlanks (blanks.text ++ rest) = skipBlanks rest :=
  List.dropWhile_append_of_pos blanks.blank

theorem skipBlanks_of_stops {text : Text} (stops : Stops isBlank text) : skipBlanks text = text :=
  stops.dropWhile

theorem skipBlanks_stops (text : Text) : Stops isBlank (skipBlanks text) := stops_dropWhile isBlank text

theorem skipBlanks_parts (text : Text) : ∃ blanks : Blanks, text = blanks.text ++ skipBlanks text :=
  ⟨⟨text.takeWhile isBlank, fun _ => List.mem_takeWhile_imp⟩, List.takeWhile_append_dropWhile.symm⟩

@[simp] theorem passBlanks?_gap (gap : Gap) (rest : Text) :
    passBlanks? (gap.text ++ rest) = some (skipBlanks rest) := by
  obtain ⟨⟨text, blank⟩, held⟩ := gap
  cases text with
  | nil => exact absurd rfl held
  | cons c tail =>
    have inner : ∀ d ∈ tail, isBlank d = true := fun d member => blank d (List.mem_cons_of_mem _ member)
    simp only [List.cons_append, passBlanks?, blank c List.mem_cons_self, if_true, Option.some.injEq]
    exact skipBlanks_blanks ⟨tail, inner⟩ rest

theorem passBlanks?_parts {text rest : Text} (read : passBlanks? text = some rest) :
    ∃ gap : Gap, text = gap.text ++ rest ∧ Stops isBlank rest := by
  cases text with
  | nil => cases read
  | cons c tail =>
    simp only [passBlanks?] at read
    split at read
    · rename_i first
      cases Option.some.inj read
      obtain ⟨blanks, whole⟩ := skipBlanks_parts tail
      refine ⟨⟨⟨c :: blanks.text, ?_⟩, List.cons_ne_nil _ _⟩, ?_, skipBlanks_stops tail⟩
      · intro d member
        rcases List.mem_cons.mp member with equal | later
        · rw [equal]; exact first
        · exact blanks.blank d later
      · exact congrArg (c :: ·) whole
    · cases read

end Text

@[simp] theorem spaced?_gap (word : Text) (gap : Gap) (rest : Text) :
    spaced? word (word ++ (gap.text ++ rest)) = some (skipBlanks rest) := by
  simp [spaced?]

theorem spaced?_parts {word text rest : Text} (read : spaced? word text = some rest) :
    ∃ gap : Gap, text = word ++ (gap.text ++ rest) ∧ Stops isBlank rest := by
  obtain ⟨middle, found, blanks⟩ := Option.bind_eq_some_iff.mp read
  obtain ⟨gap, whole, stops⟩ := passBlanks?_parts blanks
  exact ⟨gap, by rw [after?_exact.mp found, whole], stops⟩

theorem spaced?_none_of_head {letter c : Char} {word text : Text} (other : letter ≠ c) :
    spaced? (letter :: word) (c :: text) = none := by
  simp [spaced?, after?_none_of_head other]

theorem skipSpaced_of_none {word text : Text} (refused : spaced? word text = none) :
    skipSpaced word text = text := by
  simp [skipSpaced, refused]

-- A name of its own, and a name with its package. The package is any run of name
-- characters and dots; names joined by dots are the usual case.
structure PlainName where
  text : Text
  held : text ≠ []
  spelt : ∀ c ∈ text, isNamePart c = true

structure SpeltName where
  value : QualifiedName
  package : ∀ c ∈ value.package, isQualifiedPart c = true
  held : value.name ≠ []
  spelt : ∀ c ∈ value.name, isNamePart c = true

theorem isQualifiedPart_of_isNamePart {c : Char} (part : isNamePart c = true) : isQualifiedPart c = true := by
  simp [isQualifiedPart, part]

theorem isQualifiedPart_bounds {c : Char} (part : isQualifiedPart c = true) :
    36 ≤ c.toNat ∧ c.toNat ≤ 122 := by
  have ranges : isQualifiedPart c = ((((decide (c.val ≥ 65 ∧ c.val ≤ 90) || c.val ≥ 97 && c.val ≤ 122) ||
      c.val ≥ 48 && c.val ≤ 57) || c == '_' || c == '$') || c == '.') := rfl
  rw [ranges] at part
  simp only [Bool.or_eq_true, beq_iff_eq, Bool.and_eq_true, decide_eq_true_eq, ge_iff_le,
    UInt32.le_iff_toNat_le] at part
  change ((((65 ≤ c.toNat ∧ c.toNat ≤ 90 ∨ 97 ≤ c.toNat ∧ c.toNat ≤ 122) ∨
    48 ≤ c.toNat ∧ c.toNat ≤ 57) ∨ c = '_') ∨ c = '$') ∨ c = '.' at part
  rcases part with ((range | same) | same) | same
  · omega
  · subst same; decide
  · subst same; decide
  · subst same; decide

theorem isBlank_of_isQualifiedPart {c : Char} (part : isQualifiedPart c = true) : isBlank c = false := by
  have bounds := isQualifiedPart_bounds part
  simp only [isBlank, Bool.or_eq_false_iff, Bool.and_eq_false_iff, decide_eq_false_iff_not,
    beq_eq_false_iff_ne]
  omega

theorem dot_free {name : Text} (spelt : ∀ c ∈ name, isNamePart c = true) : '.' ∉ name := by
  intro member
  exact absurd (spelt '.' member) (by decide)

namespace SpeltName

def text (name : SpeltName) : Text := name.value.text

theorem text_spelt (name : SpeltName) : ∀ c ∈ name.text, isQualifiedPart c = true := by
  intro c member
  unfold text QualifiedName.text at member
  split at member
  · exact isQualifiedPart_of_isNamePart (name.spelt c member)
  · rcases List.mem_append.mp member with front | behind
    · exact name.package c front
    · rcases List.mem_cons.mp behind with dot | later
      · rw [dot]; decide
      · exact isQualifiedPart_of_isNamePart (name.spelt c later)

-- The last character belongs to the name proper, so it is no dot.
theorem dropTrailing_text (name : SpeltName) : dropTrailing '.' name.text = name.text := by
  have ends : ∃ front, name.text = front ++ name.value.name := by
    unfold text QualifiedName.text
    split
    · exact ⟨[], rfl⟩
    · exact ⟨name.value.package ++ ['.'], by simp⟩
  obtain ⟨front, whole⟩ := ends
  apply dropTrailing_of_last
  rw [whole, List.getLast?_append, List.getLast?_eq_some_getLast name.held, Option.some_or]
  intro dot
  have inside := List.getLast_mem name.held
  rw [Option.some.inj dot] at inside
  exact dot_free name.spelt inside

theorem ofRun?_text (name : SpeltName) : QualifiedName.ofRun? name.text = some name.value := by
  obtain ⟨⟨package, own⟩, spelled, held, spelt⟩ := name
  have free := dot_free spelt
  cases package with
  | nil => simp [QualifiedName.ofRun?, text, QualifiedName.text, splitLast_none.mpr free, held]
  | cons c package =>
    have cut : splitLast '.' (c :: package ++ '.' :: own) = some (c :: package, own) :=
      splitLast_append (c :: package) free
    simp only [QualifiedName.ofRun?, text, QualifiedName.text, List.isEmpty_cons, Bool.false_eq_true,
      if_false, cut]
    simpa using held

end SpeltName

theorem QualifiedName.ofRun?_parts {run : Text} {q : QualifiedName}
    (spelt : ∀ c ∈ run, isQualifiedPart c = true) (named : ofRun? run = some q) :
    ∃ name : SpeltName, name.value = q ∧ run = name.text := by
  have whole : q.text = run := text_ofRun? named
  unfold ofRun? at named
  have plain : ∀ c, isQualifiedPart c = true → c ≠ '.' → isNamePart c = true := by
    intro c part other
    simpa [isQualifiedPart, other] using part
  split at named
  · rename_i free
    split at named
    · cases named
    · rename_i held
      cases named
      refine ⟨⟨⟨[], run⟩, by simp, by simpa using held, ?_⟩, rfl, whole.symm⟩
      intro c member
      apply plain c (spelt c member)
      intro dot
      rw [dot] at member
      exact splitLast_none.mp free member
  · rename_i package own cut
    split at named
    · cases named
    · rename_i held
      cases named
      obtain ⟨parts, free⟩ := splitLast_exact.mp cut
      simp only [Bool.or_eq_true, List.isEmpty_iff, not_or] at held
      refine ⟨⟨⟨package, own⟩, ?_, held.2, ?_⟩, rfl, whole.symm⟩
      · intro c member
        exact spelt c (by rw [parts]; simp [member])
      · intro c member
        apply plain c (spelt c (by rw [parts]; simp [member]))
        intro dot
        rw [dot] at member
        exact free member

theorem QualifiedName.whole?_spelt (name : SpeltName) {rest : Text} (stops : Stops isQualifiedPart rest) :
    whole? (name.text ++ rest) = some (name.value, rest) := by
  simp [whole?, takeWhile_run name.text_spelt stops, dropWhile_run name.text_spelt stops, name.ofRun?_text]

theorem QualifiedName.whole?_parts {text rest : Text} {q : QualifiedName}
    (read : whole? text = some (q, rest)) :
    ∃ name : SpeltName, name.value = q ∧ text = name.text ++ rest := by
  obtain ⟨found, named, same⟩ := Option.bind_eq_some_iff.mp read
  cases same
  obtain ⟨name, value, run⟩ := ofRun?_parts (fun _ => List.mem_takeWhile_imp) named
  refine ⟨name, value, ?_⟩
  rw [← run, List.takeWhile_append_dropWhile]

theorem QualifiedName.leading?_spelt (name : SpeltName) {rest : Text} (stops : Stops isQualifiedPart rest) :
    leading? (name.text ++ rest) = some (name.value, rest) := by
  simp [leading?, takeWhile_run name.text_spelt stops, name.dropTrailing_text, name.ofRun?_text]

theorem QualifiedName.leading?_parts {text rest : Text} {q : QualifiedName}
    (read : leading? text = some (q, rest)) :
    ∃ name : SpeltName, name.value = q ∧ text = name.text ++ rest := by
  obtain ⟨found, named, same⟩ := Option.bind_eq_some_iff.mp read
  cases same
  have begins := dropTrailing_begins '.' (text.takeWhile isQualifiedPart)
  have spelt : ∀ c ∈ dropTrailing '.' (text.takeWhile isQualifiedPart), isQualifiedPart c = true :=
    fun c member => List.mem_takeWhile_imp (begins.subset member)
  obtain ⟨name, value, run⟩ := ofRun?_parts spelt named
  refine ⟨name, value, ?_⟩
  rw [← run]
  exact (List.prefix_iff_eq_append.mp (leadingRun_begins text)).symm

end Intrinsics
