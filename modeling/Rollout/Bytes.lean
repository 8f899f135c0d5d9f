/-!
# Bytes

What files, pipes and requests carry. Text goes over as UTF-8; bytes that are not UTF-8 have no
text. The hexadecimal form is two lower case digits a byte.
-/

namespace Rollout

abbrev Bytes := List UInt8

namespace Bytes

/-- The UTF-8 form of a text. -/
def ofText (s : String) : Bytes := s.toUTF8.data.toList

/-- The text whose UTF-8 form the bytes are, if there is one. -/
def text? (b : Bytes) : Option String := String.fromUTF8? ⟨b.toArray⟩

theorem text?_ofText (s : String) : text? (ofText s) = some s := by
  have h : (⟨(ofText s).toArray⟩ : ByteArray) = s.toUTF8 := by simp [ofText]
  have hv : ByteArray.IsValidUTF8 (⟨(ofText s).toArray⟩ : ByteArray) := h ▸ s.isValidUTF8
  simp only [text?, String.fromUTF8?, hv, dite_true]
  congr 1

def hexDigit (n : Nat) : Char :=
  if n < 10 then Char.ofNat (48 + n) else Char.ofNat (87 + n)

def hexByte (b : UInt8) : List Char := [hexDigit (b.toNat / 16), hexDigit (b.toNat % 16)]

/-- Two digits a byte. -/
def hex (b : Bytes) : String := String.ofList (b.flatMap hexByte)

def hexValue? (c : Char) : Option Nat :=
  if '0' ≤ c ∧ c ≤ '9' then some (c.toNat - 48)
  else if 'a' ≤ c ∧ c ≤ 'f' then some (c.toNat - 87)
  else if 'A' ≤ c ∧ c ≤ 'F' then some (c.toNat - 55)
  else none

def ofHexDigits? : List Char → Option Bytes
  | [] => some []
  | [_] => none
  | a :: b :: rest => do
    let hi ← hexValue? a
    let lo ← hexValue? b
    let tail ← ofHexDigits? rest
    return UInt8.ofNat (16 * hi + lo) :: tail

/-- Reads the hexadecimal form back; digits may be of either case. -/
def ofHex? (s : String) : Option Bytes := ofHexDigits? s.toList

end Bytes
end Rollout
