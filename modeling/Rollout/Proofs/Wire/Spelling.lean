import Rollout.Wire.Record

/-!
# Spellings

A number may take more bytes on the wire than it needs, and so may the key and the length of a record. So a
record has many spellings, of which the bytes it is written as are one. Every spelling is read as its record,
whatever follows it.
-/

namespace Rollout.Wire

namespace Varint

/-- The bytes give the number seven bits at a time, lowest first; the last of them may add nothing. -/
inductive Digits : Nat → Bytes → Prop
  | last {n} (h : n < 128) : Digits n [UInt8.ofNat n]
  | more {n b} (h : Digits (n / 128) b) : Digits n (UInt8.ofNat (n % 128 + 128) :: b)

/-- The bytes are a number, as any writer may put it: of 64 bits at most, and ten bytes at most. -/
structure Spells (n : Nat) (b : Bytes) : Prop where
  digits : Digits n b
  width : b.length ≤ 10
  small : n < limit

theorem Digits.ne_nil {n : Nat} {b : Bytes} (h : Digits n b) : b ≠ [] := by
  cases h <;> simp

theorem Digits.decodeWithin {n width : Nat} {b : Bytes} (h : Digits n b) (hwidth : b.length ≤ width)
    (rest : Bytes) : decodeWithin width (b ++ rest) = some (n, rest) := by
  induction h generalizing width with
  | @last n h =>
    obtain ⟨width, rfl⟩ : ∃ k, width = k + 1 := ⟨width - 1, by simp at hwidth; omega⟩
    have hbyte : (UInt8.ofNat n).toNat = n := by simp [UInt8.toNat_ofNat']; omega
    simp [Varint.decodeWithin, hbyte, h]
  | @more n b _ ih =>
    obtain ⟨width, rfl⟩ : ∃ k, width = k + 1 := ⟨width - 1, by simp at hwidth; omega⟩
    have hbyte : (UInt8.ofNat (n % 128 + 128)).toNat = n % 128 + 128 := by
      simp [UInt8.toNat_ofNat']; omega
    have hhigh : ¬ n % 128 + 128 < 128 := by omega
    have hrest : Varint.decodeWithin width (b ++ rest) = some (n / 128, rest) :=
      ih (by simpa using hwidth)
    simp only [List.cons_append, Varint.decodeWithin, hbyte, hhigh, ite_false, hrest, Option.map_some,
      Option.some.injEq, Prod.mk.injEq, and_true]
    omega

theorem Spells.decode {n : Nat} {b : Bytes} (h : Spells n b) (rest : Bytes) :
    decode (b ++ rest) = some (n, rest) := by
  rw [Varint.decode, h.digits.decodeWithin h.width, Option.filter_some, if_pos (decide_eq_true h.small)]

theorem digits_encode (n : Nat) : Digits n (encode n) := by
  fun_induction encode n with
  | case1 n h => exact .last h
  | case2 n _ ih => exact .more ih

theorem length_encode_le {width n : Nat} (h : n < capacity (width + 1)) :
    (encode n).length ≤ width + 1 := by
  induction width generalizing n with
  | zero =>
    have hsmall : n < 128 := h
    rw [encode, if_pos hsmall]
    simp
  | succ width ih =>
    rw [encode]
    split
    · simp
    · have hrest : (encode (n / 128)).length ≤ width + 1 := ih (Nat.div_lt_of_lt_mul h)
      simpa using hrest

theorem spells_encode {n : Nat} (h : n < limit) : Spells n (encode n) := by
  have hwide : limit ≤ capacity 10 := by decide
  exact ⟨digits_encode n, length_encode_le (Nat.lt_of_lt_of_le h hwide), h⟩

end Varint

/-- How many field numbers there are, with nought. -/
def numberLimit : Nat := 536870912

/-- The bytes are the key of a record. -/
structure KeySpells (number : Nat) (layout : Layout) (b : Bytes) : Prop where
  positive : 0 < number
  small : number < numberLimit
  spells : Varint.Spells (8 * number + layout.number) b

/-- The bytes are the record, as any writer may put it. No spelling of a group is needed. -/
inductive Record.Spells : Record → Bytes → Prop
  | varint {number key n b} (hkey : KeySpells number .varint key) (h : Varint.Spells n b) :
      Spells ⟨number, .varint (UInt64.ofNat n)⟩ (key ++ b)
  | fixed64 {number key} {v : Vector UInt8 8} (hkey : KeySpells number .fixed64 key) :
      Spells ⟨number, .fixed64 v⟩ (key ++ v.toList)
  | delimited {number key length b} (hkey : KeySpells number .delimited key)
      (h : Varint.Spells b.length length) : Spells ⟨number, .delimited b⟩ (key ++ (length ++ b))
  | fixed32 {number key} {v : Vector UInt8 4} (hkey : KeySpells number .fixed32 key) :
      Spells ⟨number, .fixed32 v⟩ (key ++ v.toList)

variable {number limit : Nat} {layout : Layout} {r : Record} {b : Bytes}

theorem Layout.number_lt (l : Layout) : l.number < 8 := by cases l <;> decide

theorem KeySpells.readKey (h : KeySpells number layout b) (rest : Bytes) :
    readKey (b ++ rest) = .ok (number, layout, rest) := by
  have hlayout := layout.number_lt
  have hnumber : number < 536870912 := h.small
  have hfits : ¬ 4294967296 ≤ 8 * number + layout.number := by omega
  have hlow : (8 * number + layout.number) % 8 = layout.number := by omega
  have hhigh : (8 * number + layout.number) / 8 = number := by omega
  simp only [Wire.readKey, h.spells.decode, hfits, ite_false, hlow, Layout.ofNumber?_number, hhigh,
    Nat.ne_of_gt h.positive]

theorem KeySpells.ne_nil (h : KeySpells number layout b) : b ≠ [] := h.spells.digits.ne_nil

theorem Record.Spells.ne_nil (h : r.Spells b) : b ≠ [] := by
  cases h with
  | varint hkey => simp [hkey.ne_nil]
  | fixed64 hkey => simp [hkey.ne_nil]
  | delimited hkey => simp [hkey.ne_nil]
  | fixed32 hkey => simp [hkey.ne_nil]

theorem Record.Spells.readRecord (h : r.Spells b) (rest : Bytes) :
    readRecord limit (b ++ rest) = .ok (r, rest) := by
  cases h with
  | varint hkey h =>
    simp only [Wire.readRecord, List.append_assoc, hkey.readKey, readPlain, h.decode]
  | fixed64 hkey =>
    simp [Wire.readRecord, hkey.readKey, readPlain, Vector.toList]
  | delimited hkey h =>
    simp [Wire.readRecord, hkey.readKey, readPlain, h.decode]
  | fixed32 hkey =>
    simp [Wire.readRecord, hkey.readKey, readPlain, Vector.toList]

theorem recordsOf_nil : recordsOf limit [] = ([], none) := by
  rw [recordsOf]
  simp

theorem Record.Spells.recordsOf (h : r.Spells b) (rest : Bytes) :
    recordsOf limit (b ++ rest) =
      (r :: (recordsOf limit rest).1, (recordsOf limit rest).2) := by
  have hne : (b ++ rest).isEmpty = false := by simp [h.ne_nil]
  rw [Wire.recordsOf, hne]
  simp only [Bool.false_eq_true, ite_false]
  split
  · next reason hread => simp [h.readRecord] at hread
  · next r' rest' hread =>
    rw [h.readRecord] at hread
    cases hread
    rfl

end Rollout.Wire
