import Intrinsics.Text.Basic

namespace Intrinsics
open Text

-- A path as it is written. Paths are shown to the user, so they are joined and cut as
-- text and never put into a normal form.
abbrev Path := Text

namespace Path

def push (path part : Path) : Path :=
  if part.head? = some '/' then part
  else if path.isEmpty || path.getLast? = some '/' then path ++ part
  else path ++ '/' :: part

-- The path up to its last component: separators at the end go, and so do components that
-- only say `here`, except for one that begins the path. The root keeps its separator.
def trimmed (path : Path) : Path :=
  match _ : dropTrailing '/' path with
  | [] => if path.isEmpty then [] else ['/']
  | c :: rest =>
    match _ : splitLast '/' (c :: rest) with
    | some (front, ['.']) => trimmed (front ++ ['/'])
    | _ => c :: rest
termination_by path.length
decreasing_by
  rename_i body cut
  have shorter := (dropTrailing_begins '/' path).length_le
  rw [body, (splitLast_exact.mp cut).1] at shorter
  simp at shorter ⊢
  omega

def fileName? (path : Path) : Option Text :=
  let path := trimmed path
  let name := ((splitLast '/' path).map Prod.snd).getD path
  if name = [] ∨ name = ['.'] ∨ name = ['.', '.'] then none else some name

def parent? (path : Path) : Option Path :=
  let path := trimmed path
  if path = [] ∨ path = ['/'] then none
  else
    match splitLast '/' path with
    | some (front, _) => some (trimmed (front ++ ['/']))
    | none => some []

-- A dot at the start opens no extension.
def splitExtension (name : Text) : Text × Option Text :=
  match splitLast '.' name with
  | some (c :: stem, extension) => (c :: stem, some extension)
  | _ => (name, none)

def extension? (path : Path) : Option Text := do
  let name ← fileName? path
  (splitExtension name).2

def withExtension (extension : Text) (path : Path) : Path :=
  match fileName? path with
  | none => path
  | some name =>
    let front := (trimmed path).take ((trimmed path).length - name.length)
    front ++ (splitExtension name).1 ++ '.' :: extension

def segments (path : Path) : List Text := (path.splitOn '/').filter (!·.isEmpty)

def isAbsolute (path : Path) : Bool := path.head? = some '/'

theorem trimmed_length (path : Path) : (trimmed path).length ≤ path.length := by
  fun_induction trimmed path with
  | case1 path body empty => simp
  | case2 path body held =>
    cases path with
    | nil => simp at held
    | cons c path => simp
  | case3 path c rest body front cut ih =>
    have shorter := (dropTrailing_begins '/' path).length_le
    rw [body, (splitLast_exact.mp cut).1] at shorter
    simp at shorter ih
    omega
  | case4 path c rest body =>
    have shorter := (dropTrailing_begins '/' path).length_le
    rwa [body] at shorter

theorem trimmed_last (path front : Path) (ends : trimmed path = front ++ ['/']) : front = [] := by
  fun_induction trimmed path with
  | case1 => simp at ends
  | case2 =>
    have := congrArg List.length ends
    simpa using this
  | case3 _ _ _ _ _ _ ih => exact ih ends
  | case4 path c rest body => exact absurd (body.trans ends) (dropTrailing_last '/' path front)

theorem parent?_shorter {path parent : Path} (lies : parent? path = some parent) :
    parent.length < path.length := by
  have shorter := trimmed_length path
  simp only [parent?] at lies
  split at lies
  · cases lies
  · rename_i inner
    split at lies
    · rename_i front name cut
      cases lies
      have whole := (splitLast_exact.mp cut).1
      have named : name ≠ [] := by
        rintro rfl
        have root := trimmed_last path front whole
        subst root
        exact inner (.inr whole)
      have := List.length_pos_iff.mpr named
      have cutLength := trimmed_length (front ++ ['/'])
      rw [whole] at shorter
      simp at shorter cutLength
      omega
    · cases lies
      have := List.length_pos_iff.mpr fun empty => inner (.inl empty)
      simp
      omega

end Path
end Intrinsics
