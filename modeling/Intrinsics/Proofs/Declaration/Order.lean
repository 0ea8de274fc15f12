import Intrinsics.Proofs.Declaration.MemberForms
import Intrinsics.Proofs.Scan.Lines

namespace Intrinsics
open Text

-- No two forms apply to one text. What a form reads is what reading in the usual order gives, and
-- a declaration tells the form it was read from, so the order has nothing to decide.

def Declaration.form : Declaration → Form
  | .importing _ => .importing
  | .classHeader _ => .classHeader
  | .interfaceHeader _ => .interfaceHeader
  | .method _ => .method
  | .getter _ | .setter _ => .accessor
  | .property _ => .property

section Reading

variable {form : Form} {text rest : Text} {declaration : Declaration}

theorem Form.read?_form (read : form.read? text = some (declaration, rest)) : declaration.form = form := by
  cases form with
  | accessor =>
    obtain ⟨word, signature, same⟩ := accessor?_worded read
    rw [same]
    cases word <;> rfl
  | importing | classHeader | interfaceHeader | method | property =>
    obtain ⟨⟨_, _⟩, _, same⟩ := Option.map_eq_some_iff.mp read
    cases same
    rfl

-- A method begins with a blank or with the first letter of a member, and no header does.
theorem method_apart {signature : Signature} (read : method? text = some (signature, rest)) :
    importing? text = none ∧ classHeader? text = none ∧ interfaceHeader? text = none := by
  obtain ⟨front, line, back, _, whole⟩ := method?_parts read
  obtain ⟨c, tail, shape, initial⟩ := line.starts (back.text ++ rest)
  have apart : ∀ letter, isBlank letter = false → isMemberInitial letter = false → Stops (· == letter) text := by
    intro letter unblank other
    rw [whole, shape]
    refine front.stops_append ?_ (stops_cons.mpr ?_)
    · intro d blank
      apply beq_eq_false_iff_ne.mpr
      rintro rfl
      rw [unblank] at blank
      cases blank
    · apply beq_eq_false_iff_ne.mpr
      rintro rfl
      rw [other] at initial
      cases initial
  exact headers_none (apart 'i' rfl rfl) (apart 'd' rfl rfl) (apart 'c' rfl rfl)

theorem Declaration.read?_of_form (read : form.read? text = some (declaration, rest)) :
    Declaration.read? text = some (declaration, rest) := by
  cases form with
  | importing =>
    obtain ⟨⟨_, _⟩, found, same⟩ := Option.map_eq_some_iff.mp read
    cases same
    obtain ⟨line, rfl, rfl⟩ := importing?_parts found
    exact Declaration.read?_import line rest
  | classHeader =>
    obtain ⟨⟨_, _⟩, found, same⟩ := Option.map_eq_some_iff.mp read
    cases same
    obtain ⟨line, rfl, rfl⟩ := classHeader?_parts found
    exact Declaration.read?_class line rest
  | interfaceHeader =>
    obtain ⟨⟨_, _⟩, found, same⟩ := Option.map_eq_some_iff.mp read
    cases same
    obtain ⟨line, _, whole⟩ := interfaceHeader?_parts found
    obtain ⟨noImport, noClass⟩ := line.apart rest
    rw [← whole] at noImport noClass
    simp [Declaration.read?, readAmong?, Form.order, Form.read?, noImport, noClass, found]
  | method =>
    obtain ⟨⟨_, _⟩, found, same⟩ := Option.map_eq_some_iff.mp read
    cases same
    obtain ⟨noImport, noClass, noInterface⟩ := method_apart found
    simp [Declaration.read?, readAmong?, Form.order, Form.read?, noImport, noClass, noInterface, found]
  | accessor =>
    obtain ⟨head, word, space, behind, whole⟩ := accessor_headed read
    have starts := (head.line (some (word, space))).starts behind
    have noMethod := method?_accessor (head.line (some (word, space))) behind rfl
    change text = (head.line (some (word, space))).text ++ behind at whole
    rw [← whole] at starts noMethod
    obtain ⟨noImport, noClass, noInterface⟩ := member_apart starts
    change accessor? text = _ at read
    simp [Declaration.read?, readAmong?, Form.order, Form.read?, noImport, noClass, noInterface, noMethod, read]
  | property =>
    obtain ⟨⟨_, _⟩, found, same⟩ := Option.map_eq_some_iff.mp read
    cases same
    obtain ⟨line, rfl, rfl⟩ := property?_parts found
    exact Declaration.read?_property line rest

end Reading

-- At most one form applies to a text, so the forms can be tried in any order.
theorem forms_exclusive (text : Text) :
    (∀ first second : Form, (first.read? text).isSome → (second.read? text).isSome → first = second) ∧
    (∀ forms : List Form, forms.Perm Form.order → Declaration.readAmong? forms text = Declaration.read? text) := by
  constructor
  · intro first second one other
    obtain ⟨⟨declaration, rest⟩, read⟩ := Option.isSome_iff_exists.mp one
    obtain ⟨⟨found, behind⟩, again⟩ := Option.isSome_iff_exists.mp other
    have same := (Declaration.read?_of_form read).symm.trans (Declaration.read?_of_form again)
    cases same
    rw [← Form.read?_form read, Form.read?_form again]
  · intro forms permuted
    cases among : Declaration.readAmong? forms text with
    | some taken =>
      obtain ⟨declaration, rest⟩ := taken
      obtain ⟨form, _, read⟩ := List.exists_of_findSome?_eq_some among
      exact (Declaration.read?_of_form read).symm
    | none =>
      have refused := List.findSome?_eq_none_iff.mp among
      apply Eq.symm
      apply List.findSome?_eq_none_iff.mpr
      intro form member
      exact refused form (permuted.mem_iff.mpr member)

-- A method by the name of `get`, which the last form to be tried is not kept from.
theorem forms_exclusive_get :
    Form.order.reverse.Perm Form.order ∧
      Declaration.readAmong? Form.order.reverse " function get (x)".toList =
        some (.method ⟨⟨.exposed, false⟩, "get".toList, "x".toList, none⟩, []) := by
  have permuted := List.reverse_perm Form.order
  refine ⟨permuted, ?_⟩
  rw [(forms_exclusive " function get (x)".toList).2 _ permuted]
  decide

end Intrinsics
