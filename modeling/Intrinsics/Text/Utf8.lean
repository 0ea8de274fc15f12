import Intrinsics.Text.Basic

namespace Intrinsics.Utf8

def encode (text : Text) : List UInt8 := text.flatMap String.utf8EncodeChar

def isTail (b : UInt8) : Bool := 0x80 ≤ b && b ≤ 0xBF

-- The bytes allowed after the first byte of a longer character. The first of them is
-- bounded more tightly where a longer form of a shorter character, a surrogate or a
-- number beyond the last code point would begin. None: the byte begins no longer character.
def followers (first : UInt8) : Option (List (UInt8 → Bool)) :=
  if 0xC2 ≤ first && first ≤ 0xDF then some [isTail]
  else if first == 0xE0 then some [fun b => 0xA0 ≤ b && b ≤ 0xBF, isTail]
  else if first == 0xED then some [fun b => 0x80 ≤ b && b ≤ 0x9F, isTail]
  else if 0xE1 ≤ first && first ≤ 0xEF then some [isTail, isTail]
  else if first == 0xF0 then some [fun b => 0x90 ≤ b && b ≤ 0xBF, isTail, isTail]
  else if 0xF1 ≤ first && first ≤ 0xF3 then some [isTail, isTail, isTail]
  else if first == 0xF4 then some [fun b => 0x80 ≤ b && b ≤ 0x8F, isTail, isTail]
  else none

def takeFollowers : List (UInt8 → Bool) → List UInt8 → List UInt8 × List (UInt8 → Bool) × List UInt8
  | bound :: bounds, b :: bytes =>
    if bound b then
      let (taken, left, rest) := takeFollowers bounds bytes
      (b :: taken, left, rest)
    else ([], bound :: bounds, b :: bytes)
  | bounds, bytes => ([], bounds, bytes)

-- Payload bits: a first byte with n tails keeps 6 - n of them, a tail keeps six.
def codePoint (first : UInt8) (tails : List UInt8) : Nat :=
  tails.foldl (fun n b => n * 64 + b.toNat % 64) (first.toNat % Nat.pow 2 (6 - tails.length))

def readChar : List UInt8 → Option Char × List UInt8
  | [] => (none, [])
  | first :: bytes =>
    if first < 0x80 then (some (Char.ofNat first.toNat), bytes)
    else
      match followers first with
      | none => (none, bytes)
      | some bounds =>
        match takeFollowers bounds bytes with
        | (tails, [], rest) => (some (Char.ofNat (codePoint first tails)), rest)
        | (_, _ :: _, rest) => (none, rest)

theorem takeFollowers_length (bounds : List (UInt8 → Bool)) (bytes : List UInt8) :
    (takeFollowers bounds bytes).2.2.length ≤ bytes.length := by
  fun_induction takeFollowers bounds bytes with
  | case1 => simp_all; omega
  | case2 => simp
  | case3 => simp

theorem readChar_shorter (first : UInt8) (bytes : List UInt8) :
    (readChar (first :: bytes)).2.length < (first :: bytes).length := by
  rw [readChar]
  split
  · simp
  · split
    · simp
    · rename_i bounds _
      have bound := takeFollowers_length bounds bytes
      split
      · rename_i tails rest whole
        rw [whole] at bound
        exact Nat.lt_succ_of_le bound
      · rename_i tails missing left rest part
        rw [part] at bound
        exact Nat.lt_succ_of_le bound

def pieces : List UInt8 → List (Option Char)
  | [] => []
  | first :: bytes => (readChar (first :: bytes)).1 :: pieces (readChar (first :: bytes)).2
termination_by bytes => bytes.length
decreasing_by exact readChar_shorter first bytes

-- A source is read whatever its bytes: each bad piece becomes a replacement character.
def decodeLossy (bytes : List UInt8) : Text := (pieces bytes).map (·.getD '\uFFFD')

def decode? (bytes : List UInt8) : Option Text := (pieces bytes).mapM id

end Intrinsics.Utf8
