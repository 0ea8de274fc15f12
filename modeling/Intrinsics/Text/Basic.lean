namespace Intrinsics

-- Source text as its characters. Offsets and lengths that leave the library are
-- counted in bytes of the UTF-8 form, so a measure stands beside `List.length`.
abbrev Text := List Char

namespace Text

def byteLength : Text → Nat
  | [] => 0
  | c :: text => c.utf8Size + byteLength text

@[simp] theorem byteLength_nil : byteLength [] = 0 := rfl

@[simp] theorem byteLength_cons (c : Char) (text : Text) :
    byteLength (c :: text) = c.utf8Size + byteLength text := rfl

@[simp] theorem byteLength_append (left right : Text) :
    byteLength (left ++ right) = byteLength left + byteLength right := by
  induction left with
  | nil => simp
  | cons c left ih => simp [ih, Nat.add_assoc]

theorem byteLength_pos {text : Text} (nonempty : text ≠ []) : 0 < byteLength text := by
  cases text with
  | nil => exact absurd rfl nonempty
  | cons c rest => simpa using Nat.lt_of_lt_of_le c.utf8Size_pos (Nat.le_add_right _ _)

-- An offset past the end or inside a character points at nothing.
def fromByte? : Text → Nat → Option Text
  | text, 0 => some text
  | [], _ + 1 => none
  | c :: text, n + 1 => if c.utf8Size ≤ n + 1 then fromByte? text (n + 1 - c.utf8Size) else none

theorem fromByte?_exact {text rest : Text} {offset : Nat} :
    fromByte? text offset = some rest ↔ ∃ before, text = before ++ rest ∧ byteLength before = offset := by
  induction text generalizing offset with
  | nil =>
    cases offset with
    | zero =>
      simp only [fromByte?, Option.some.injEq]
      constructor
      · rintro rfl; exact ⟨[], rfl, rfl⟩
      · rintro ⟨before, split, _⟩; simp_all
    | succ n =>
      simp only [fromByte?, reduceCtorEq, false_iff, not_exists, not_and]
      intro before empty
      simp_all
  | cons c text ih =>
    cases offset with
    | zero =>
      simp only [fromByte?, Option.some.injEq]
      constructor
      · rintro rfl; exact ⟨[], rfl, rfl⟩
      · rintro ⟨before, split, zero⟩
        cases before with
        | nil => simpa using split
        | cons d before => have := d.utf8Size_pos; simp at zero; omega
    | succ n =>
      rw [fromByte?]
      split
      · rename_i fits
        rw [ih]
        constructor
        · rintro ⟨before, rfl, measure⟩
          exact ⟨c :: before, rfl, by simp [measure]; omega⟩
        · rintro ⟨before, split, measure⟩
          cases before with
          | nil => simp at measure
          | cons d before =>
            simp only [List.cons_append, List.cons.injEq] at split
            obtain ⟨rfl, rfl⟩ := split
            exact ⟨before, rfl, by simp at measure; omega⟩
      · rename_i short
        simp only [reduceCtorEq, false_iff, not_exists, not_and]
        intro before split measure
        cases before with
        | nil => simp at measure
        | cons d before =>
          simp only [List.cons_append, List.cons.injEq] at split
          simp only [byteLength_cons, ← split.1] at measure
          omega

def after? : Text → Text → Option Text
  | [], text => some text
  | _ :: _, [] => none
  | c :: word, d :: text => if c = d then after? word text else none

theorem after?_exact {word text rest : Text} :
    after? word text = some rest ↔ text = word ++ rest := by
  induction word generalizing text with
  | nil => simp [after?]
  | cons c word ih =>
    cases text with
    | nil => simp [after?]
    | cons d text =>
      by_cases same : c = d
      · simp [after?, same, ih]
      · simp [after?, same, Ne.symm same]

@[simp] theorem after?_append (word rest : Text) : after? word (word ++ rest) = some rest :=
  after?_exact.mpr rfl

theorem after?_suffix {word text rest : Text} (read : after? word text = some rest) : rest <:+ text :=
  ⟨word, (after?_exact.mp read).symm⟩

def run? (class? : Char → Bool) (text : Text) : Option (Text × Text) :=
  match text.takeWhile class? with
  | [] => none
  | c :: run => some (c :: run, text.dropWhile class?)

theorem run?_exact {class? : Char → Bool} {text run rest : Text} :
    run? class? text = some (run, rest) ↔
      run ≠ [] ∧ text.takeWhile class? = run ∧ text.dropWhile class? = rest := by
  unfold run?
  split
  · rename_i empty
    simp only [empty, reduceCtorEq, false_iff, not_and]
    intro nonempty same
    exact absurd same.symm nonempty
  · rename_i c tail found
    simp only [found, Option.some.injEq, Prod.mk.injEq]
    constructor
    · rintro ⟨rfl, rfl⟩; simp
    · rintro ⟨_, rfl, rfl⟩; simp

theorem run?_append {class? : Char → Bool} {text run rest : Text}
    (read : run? class? text = some (run, rest)) : text = run ++ rest := by
  obtain ⟨_, rfl, rfl⟩ := run?_exact.mp read
  exact List.takeWhile_append_dropWhile.symm

-- Readers leave such a rest, so reading on comes to an end.
def Behind (rest text : Text) : Prop := ∃ taken, taken ≠ [] ∧ text = taken ++ rest

theorem Behind.length_lt {rest text : Text} (behind : Behind rest text) : rest.length < text.length := by
  obtain ⟨taken, nonempty, rfl⟩ := behind
  have := List.length_pos_iff.mpr nonempty
  rw [List.length_append]
  omega

theorem Behind.suffix {rest text : Text} (behind : Behind rest text) : rest <:+ text := by
  obtain ⟨taken, _, rfl⟩ := behind
  exact List.suffix_append taken rest

theorem Behind.after_suffix {rest middle text : Text} (behind : Behind rest middle)
    (suffix : middle <:+ text) : Behind rest text := by
  obtain ⟨taken, nonempty, rfl⟩ := behind
  obtain ⟨before, rfl⟩ := suffix
  exact ⟨before ++ taken, by simp [nonempty], by simp⟩

theorem Behind.of_suffix {rest middle text : Text} (suffix : rest <:+ middle)
    (behind : Behind middle text) : Behind rest text := by
  obtain ⟨taken, nonempty, rfl⟩ := behind
  obtain ⟨before, rfl⟩ := suffix
  exact ⟨taken ++ before, by simp [nonempty], by simp⟩

theorem Behind.cons (c : Char) (text : Text) : Behind text (c :: text) := ⟨[c], by simp, rfl⟩

theorem after?_behind {word text rest : Text} (nonempty : word ≠ [])
    (read : after? word text = some rest) : Behind rest text :=
  ⟨word, nonempty, after?_exact.mp read⟩

theorem run?_behind {class? : Char → Bool} {text run rest : Text}
    (read : run? class? text = some (run, rest)) : Behind rest text :=
  ⟨run, (run?_exact.mp read).1, run?_append read⟩

def optional (reader : Text → Option (α × Text)) (text : Text) : Option α × Text :=
  match reader text with
  | some (value, rest) => (some value, rest)
  | none => (none, text)

theorem optional_suffix {reader : Text → Option (α × Text)} (text : Text)
    (suffix : ∀ value rest, reader text = some (value, rest) → rest <:+ text) :
    (optional reader text).2 <:+ text := by
  unfold optional
  split
  · rename_i value rest read; exact suffix value rest read
  · exact List.suffix_rfl

def splitLast (mark : Char) : Text → Option (Text × Text)
  | [] => none
  | c :: text =>
    match splitLast mark text with
    | some (before, behind) => some (c :: before, behind)
    | none => if c = mark then some ([], text) else none

theorem splitLast_none {mark : Char} {text : Text} : splitLast mark text = none ↔ mark ∉ text := by
  induction text with
  | nil => simp [splitLast]
  | cons c text ih =>
    cases found : splitLast mark text with
    | none =>
      have free := ih.mp found
      by_cases same : c = mark
      · simp [splitLast, found, same]
      · simp [splitLast, found, same, free, Ne.symm same]
    | some parts =>
      have held : mark ∈ text := by
        by_cases held : mark ∈ text
        · exact held
        · rw [ih.mpr held] at found; cases found
      simp [splitLast, found, held]

theorem splitLast_append {mark : Char} (before : Text) {behind : Text} (free : mark ∉ behind) :
    splitLast mark (before ++ mark :: behind) = some (before, behind) := by
  induction before with
  | nil => simp [splitLast, splitLast_none.mpr free]
  | cons c before ih => simp [splitLast, ih]

theorem splitLast_exact {mark : Char} {text before behind : Text} :
    splitLast mark text = some (before, behind) ↔ text = before ++ mark :: behind ∧ mark ∉ behind := by
  constructor
  · intro found
    induction text generalizing before with
    | nil => cases found
    | cons c text ih =>
      rw [splitLast] at found
      split at found
      · rename_i parts
        cases found
        exact ⟨by simp [(ih parts).1], (ih parts).2⟩
      · rename_i missing
        split at found
        · rename_i same
          cases found
          exact ⟨by simp [same], splitLast_none.mp missing⟩
        · cases found
  · rintro ⟨rfl, free⟩
    exact splitLast_append before free

def dropTrailing (mark : Char) (text : Text) : Text := (text.reverse.dropWhile (· == mark)).reverse

theorem dropTrailing_begins (mark : Char) (text : Text) : dropTrailing mark text <+: text := by
  unfold dropTrailing
  rw [← List.reverse_suffix, List.reverse_reverse]
  exact List.dropWhile_suffix _

theorem dropTrailing_last (mark : Char) (text front : Text) : dropTrailing mark text ≠ front ++ [mark] := by
  intro ends
  have reversed := congrArg List.reverse ends
  simp only [dropTrailing, List.reverse_reverse, List.reverse_append, List.reverse_cons,
    List.reverse_nil, List.nil_append, List.singleton_append] at reversed
  have := List.head?_dropWhile_not (· == mark) text.reverse
  rw [reversed] at this
  simp at this

end Text
end Intrinsics
