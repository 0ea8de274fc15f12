import Intrinsics.Text.Basic

namespace Intrinsics.Text

def lineComment? (text : Text) : Option (Text × Text) :=
  match text with
  | '/' :: '/' :: rest => some (rest.takeWhile (· != '\n'), rest.dropWhile (· != '\n'))
  | _ => none

-- An unclosed comment is no comment, and its marks are read as symbols.
def blockBody? : Text → Option (Text × Text)
  | [] => none
  | '*' :: '/' :: rest => some ([], rest)
  | c :: rest => (blockBody? rest).map fun (body, rest) => (c :: body, rest)

def blockComment? (text : Text) : Option (Text × Text) :=
  match text with
  | '/' :: '*' :: rest => blockBody? rest
  | _ => none

-- A backslash takes the next character with it, but neither a newline nor the end of the
-- text; a newline without a backslash is allowed.
def quotedBody? (quote : Char) : Text → Option (Text × Text)
  | [] => none
  | c :: rest =>
    if c = quote then some ([], rest)
    else if c = '\\' then
      match rest with
      | [] => none
      | d :: rest =>
        if d = '\n' then none else (quotedBody? quote rest).map fun (body, rest) => (c :: d :: body, rest)
    else (quotedBody? quote rest).map fun (body, rest) => (c :: body, rest)

def quoted? (quote : Char) (text : Text) : Option (Text × Text) :=
  match text with
  | c :: rest => if c = quote then quotedBody? quote rest else none
  | [] => none

theorem lineComment?_append {text body rest : Text} (read : lineComment? text = some (body, rest)) :
    text = '/' :: '/' :: (body ++ rest) := by
  unfold lineComment? at read
  split at read
  · cases read; simp
  · cases read

theorem blockBody?_append {text body rest : Text} (read : blockBody? text = some (body, rest)) :
    text = body ++ '*' :: '/' :: rest := by
  fun_induction blockBody? text generalizing body with
  | case1 => cases read
  | case2 rest => cases read; rfl
  | case3 c tail _ ih =>
    obtain ⟨parts, found, same⟩ := Option.map_eq_some_iff.mp read
    cases same
    simp [ih found]

theorem blockComment?_append {text body rest : Text} (read : blockComment? text = some (body, rest)) :
    text = '/' :: '*' :: (body ++ '*' :: '/' :: rest) := by
  unfold blockComment? at read
  split at read
  · rw [blockBody?_append read]
  · cases read

theorem quotedBody?_append {quote : Char} {text body rest : Text}
    (read : quotedBody? quote text = some (body, rest)) : text = body ++ quote :: rest := by
  fun_induction quotedBody? quote text generalizing body with
  | case1 => cases read
  | case2 tail => cases read; rfl
  | case3 | case4 => cases read
  | case5 d tail _ _ ih =>
    obtain ⟨parts, found, same⟩ := Option.map_eq_some_iff.mp read
    cases same
    simp [ih found]
  | case6 c tail _ _ ih =>
    obtain ⟨parts, found, same⟩ := Option.map_eq_some_iff.mp read
    cases same
    simp [ih found]

theorem quoted?_append {quote : Char} {text body rest : Text}
    (read : quoted? quote text = some (body, rest)) : text = quote :: (body ++ quote :: rest) := by
  unfold quoted? at read
  split at read
  · split at read
    · rename_i same
      rw [quotedBody?_append read, same]
    · cases read
  · cases read

end Intrinsics.Text
