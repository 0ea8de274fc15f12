import Intrinsics.Disk.Sources
import Intrinsics.Text.Utf8
import Mathlib.Tactic.SplitIfs

namespace Intrinsics

-- Names are compared by code points, which is the order of their bytes.

namespace Utf8

-- The bytes of a character, with the digits of its number taken off one at a time.
theorem encodeChar_eq (c : Char) : String.utf8EncodeChar c =
    if c.toNat ≤ 0x7F then [.ofNat c.toNat]
    else if c.toNat ≤ 0x7FF then [.ofNat (c.toNat / 64 % 32 + 0xC0), .ofNat (c.toNat % 64 + 0x80)]
    else if c.toNat ≤ 0xFFFF then
      [.ofNat (c.toNat / 64 / 64 % 16 + 0xE0), .ofNat (c.toNat / 64 % 64 + 0x80), .ofNat (c.toNat % 64 + 0x80)]
    else
      [.ofNat (c.toNat / 64 / 64 / 64 % 8 + 0xF0), .ofNat (c.toNat / 64 / 64 % 64 + 0x80),
        .ofNat (c.toNat / 64 % 64 + 0x80), .ofNat (c.toNat % 64 + 0x80)] := by
  simp only [Nat.div_div_eq_div_mul]
  rfl

theorem byte_cons_lt {m n : Nat} (low : m < 256) (high : n < 256) {left right : List UInt8} :
    UInt8.ofNat m :: left < UInt8.ofNat n :: right ↔ m < n ∨ m = n ∧ left < right := by
  have first : (UInt8.ofNat m).toNat = m := by
    rw [UInt8.toNat_ofNat']
    omega
  have second : (UInt8.ofNat n).toNat = n := by
    rw [UInt8.toNat_ofNat']
    omega
  rw [List.cons_lt_cons_iff, UInt8.lt_iff_toNat_lt, ← UInt8.toNat_inj, first, second]

theorem toNat_bound (c : Char) : c.toNat < 0x110000 := by
  have valid := c.valid
  change c.toNat < _ ∨ _ ∧ c.toNat < _ at valid
  omega

-- A longer form begins with a greater byte. Two forms of one length are told apart by the first
-- digit in which they differ.
theorem encodeChar_lt {c d : Char} (lower : c.toNat < d.toNat) (left right : List UInt8) :
    String.utf8EncodeChar c ++ left < String.utf8EncodeChar d ++ right := by
  have bound := toNat_bound d
  rw [encodeChar_eq c, encodeChar_eq d]
  split_ifs <;> simp (disch := omega) only [List.cons_append, List.nil_append, byte_cons_lt] <;> omega

theorem encode_cons (c : Char) (text : Text) : encode (c :: text) = String.utf8EncodeChar c ++ encode text := rfl

theorem nil_lt_encode (c : Char) (text : Text) : [] < encode (c :: text) := by
  rw [encode_cons]
  cases bytes : String.utf8EncodeChar c with
  | nil =>
    have size := String.length_utf8EncodeChar c
    rw [bytes] at size
    exact absurd size.symm (Nat.ne_of_gt c.utf8Size_pos)
  | cons first later => exact List.nil_lt_cons first _

end Utf8

open Utf8

theorem notAfter_cases (left right : Text) :
    (notAfter left right = true ∧ (left = right ∨ encode left < encode right)) ∨
      (notAfter left right = false ∧ encode right < encode left) := by
  induction left generalizing right with
  | nil =>
    cases right with
    | nil => exact .inl ⟨rfl, .inl rfl⟩
    | cons d right => exact .inl ⟨rfl, .inr (nil_lt_encode d right)⟩
  | cons c left ih =>
    cases right with
    | nil => exact .inr ⟨rfl, nil_lt_encode c left⟩
    | cons d right =>
      rw [encode_cons, encode_cons, notAfter]
      by_cases same : c = d
      · rw [if_pos same, ← same]
        rcases ih right with ⟨before, equal | lower⟩ | ⟨behind, lower⟩
        · exact .inl ⟨before, .inl (by rw [equal])⟩
        · exact .inl ⟨before, .inr (List.append_left_lt lower)⟩
        · exact .inr ⟨behind, List.append_left_lt lower⟩
      · rw [if_neg same]
        have other : c.toNat ≠ d.toNat := fun equal => same (Char.toNat_inj.mp equal)
        rcases Nat.lt_or_gt_of_ne other with lower | higher
        · exact .inl ⟨decide_eq_true lower, .inr (encodeChar_lt lower _ _)⟩
        · exact .inr ⟨decide_eq_false (Nat.lt_asymm higher), encodeChar_lt higher _ _⟩

theorem notAfter_iff {left right : Text} : notAfter left right = true ↔ encode left ≤ encode right := by
  rcases notAfter_cases left right with ⟨before, equal | lower⟩ | ⟨behind, lower⟩
  · subst equal
    simp [before]
  · simp [before, List.le_of_lt lower]
  · simp [behind, lower]

namespace Disk

theorem sorted_perm (names : List Text) : (sorted names).Perm names := List.mergeSort_perm names notAfter

-- Names that are all different come in the strict order of their bytes.
theorem sorted_ordered {names : List Text} (single : names.Nodup) :
    (sorted names).Pairwise fun left right => encode left < encode right := by
  have chained : ∀ a b c : Text, notAfter a b = true → notAfter b c = true → notAfter a c = true := by
    intro a b c first second
    exact notAfter_iff.mpr (List.le_trans (notAfter_iff.mp first) (notAfter_iff.mp second))
  have total : ∀ a b : Text, (notAfter a b || notAfter b a) = true := by
    intro a b
    rw [Bool.or_eq_true, notAfter_iff, notAfter_iff]
    exact List.le_total _ _
  have different : (sorted names).Nodup := (sorted_perm names).nodup_iff.mpr single
  refine (List.pairwise_mergeSort chained total names).imp₂ ?_ different
  intro left right before other
  rcases notAfter_cases left right with ⟨_, equal | lower⟩ | ⟨behind, _⟩
  · exact absurd equal other
  · exact lower
  · rw [before] at behind
    cases behind

end Disk
end Intrinsics
