import Rollout.Yaml.Cursor

/-!
# Characters of a text

A text that holds only characters YAML allows is read from its UTF-8 form character by character.
-/

namespace Rollout.Yaml

/-! ## The bytes of one character -/

theorem utf8Width_lead₁ {v : Nat} (h : v < 128) : utf8Width (UInt8.ofNat v) = 1 := by
  revert v
  decide

theorem utf8Width_lead₂ {v : Nat} (h : v < 32) : utf8Width (UInt8.ofNat (v + 192)) = 2 := by
  revert v
  decide

theorem utf8Width_lead₃ {v : Nat} (h : v < 16) : utf8Width (UInt8.ofNat (v + 224)) = 3 := by
  revert v
  decide

theorem utf8Width_lead₄ {v : Nat} (h : v < 8) : utf8Width (UInt8.ofNat (v + 240)) = 4 := by
  revert v
  decide

theorem continuation_tail {v : Nat} (h : v < 64) :
    continuation (UInt8.ofNat (v + 128)) = some v := by
  revert v
  decide

theorem toNat_lead₁ {v : Nat} (h : v < 128) : (UInt8.ofNat v).toNat = v := by
  revert v
  decide

theorem toNat_lead₂ {v : Nat} (h : v < 32) : (UInt8.ofNat (v + 192) &&& 0x1F).toNat = v := by
  revert v
  decide

theorem toNat_lead₃ {v : Nat} (h : v < 16) : (UInt8.ofNat (v + 224) &&& 0x0F).toNat = v := by
  revert v
  decide

theorem toNat_lead₄ {v : Nat} (h : v < 8) : (UInt8.ofNat (v + 240) &&& 0x07).toNat = v := by
  revert v
  decide

variable {c : Char} {cs : List Char} {v : Nat}

theorem surrogate_of_isAllowed (h : isAllowed v = true) :
    ((0xD800 ≤ v && v ≤ 0xDFFF) || 0x10FFFF < v) = false := by
  simp only [isAllowed, Bool.or_eq_true, Bool.and_eq_true, beq_iff_eq, decide_eq_true_eq] at h
  simp only [Bool.or_eq_false_iff, Bool.and_eq_false_iff, decide_eq_false_iff_not]
  omega

variable {lead b₁ b₂ b₃ : UInt8} {v₀ v₁ v₂ v₃ : Nat}

theorem utf8Value_one (hlead : lead.toNat = v) (hallowed : isAllowed v = true) :
    utf8Value 1 lead [] = .ok v := by
  have hchar := surrogate_of_isAllowed hallowed
  simp [utf8Value, hlead, hchar, hallowed]

theorem utf8Value_two (h₀ : (lead &&& 0x1F).toNat = v₀) (h₁ : continuation b₁ = some v₁)
    (hvalue : 64 * v₀ + v₁ = v) (hmin : 0x80 ≤ v) (hallowed : isAllowed v = true) :
    utf8Value 2 lead [b₁] = .ok v := by
  have hchar := surrogate_of_isAllowed hallowed
  have hlong : ¬ v < 0x80 := by omega
  simp [utf8Value, -UInt8.toNat_and, h₀, h₁, hvalue, hlong, hchar, hallowed]

theorem utf8Value_three (h₀ : (lead &&& 0x0F).toNat = v₀) (h₁ : continuation b₁ = some v₁)
    (h₂ : continuation b₂ = some v₂) (hvalue : 64 * (64 * v₀ + v₁) + v₂ = v) (hmin : 0x800 ≤ v)
    (hallowed : isAllowed v = true) : utf8Value 3 lead [b₁, b₂] = .ok v := by
  have hchar := surrogate_of_isAllowed hallowed
  have hlong : ¬ v < 0x800 := by omega
  simp [utf8Value, -UInt8.toNat_and, h₀, h₁, h₂, hvalue, hlong, hchar, hallowed]

theorem utf8Value_four (h₀ : (lead &&& 0x07).toNat = v₀) (h₁ : continuation b₁ = some v₁)
    (h₂ : continuation b₂ = some v₂) (h₃ : continuation b₃ = some v₃)
    (hvalue : 64 * (64 * (64 * v₀ + v₁) + v₂) + v₃ = v) (hmin : 0x10000 ≤ v)
    (hallowed : isAllowed v = true) : utf8Value 4 lead [b₁, b₂, b₃] = .ok v := by
  have hchar := surrogate_of_isAllowed hallowed
  have hlong : ¬ v < 0x10000 := by omega
  simp [utf8Value, -UInt8.toNat_and, h₀, h₁, h₂, h₃, hvalue, hlong, hchar, hallowed]

/-- One step of `decode`: the lead announces the bytes behind it, and they make up a character. -/
theorem decode_step {offset width : Nat} {tail rest : Bytes} (hwidth : utf8Width lead = width)
    (htail : tail.length + 1 = width) (hvalue : utf8Value width lead tail = .ok v) :
    decode offset (lead :: tail ++ rest) =
      (Char.ofNat v :: (decode (offset + width) rest).1, (decode (offset + width) rest).2) := by
  have hlength : tail.length = width - 1 := by omega
  have hpos : (width == 0) = false := by
    rw [beq_eq_false_iff_ne]
    omega
  rw [List.cons_append, decode]
  simp only [hwidth, hpos, Bool.false_eq_true, if_false]
  rw [List.take_left' hlength, List.drop_left' hlength, hvalue]

theorem exists_decode_char (offset : Nat) (rest : Bytes) (h : isAllowed c.toNat = true) :
    ∃ width, decode offset (String.utf8EncodeChar c ++ rest) =
      (c :: (decode (offset + width) rest).1, (decode (offset + width) rest).2) := by
  have hmax := surrogate_of_isAllowed h
  simp only [Bool.or_eq_false_iff, decide_eq_false_iff_not] at hmax
  obtain ⟨v, hv⟩ : ∃ v, c.toNat = v := ⟨_, rfl⟩
  have hc : c = Char.ofNat v := by rw [← hv, Char.ofNat_toNat]
  rw [hv] at h hmax
  rw [← Char.toNat_val] at hv
  simp only [String.utf8EncodeChar, hv]
  subst hc
  split
  · exact ⟨1, decode_step (utf8Width_lead₁ (by omega)) rfl
      (utf8Value_one (toNat_lead₁ (by omega)) h)⟩
  split
  · exact ⟨2, decode_step (utf8Width_lead₂ (by omega)) rfl
      (utf8Value_two (toNat_lead₂ (by omega)) (continuation_tail (by omega)) (by omega) (by omega)
        h)⟩
  split
  · exact ⟨3, decode_step (utf8Width_lead₃ (by omega)) rfl
      (utf8Value_three (toNat_lead₃ (by omega)) (continuation_tail (by omega))
        (continuation_tail (by omega)) (by omega) (by omega) h)⟩
  · exact ⟨4, decode_step (utf8Width_lead₄ (by omega)) rfl
      (utf8Value_four (toNat_lead₄ (by omega)) (continuation_tail (by omega))
        (continuation_tail (by omega)) (continuation_tail (by omega)) (by omega) (by omega) h)⟩

/-! ## All characters -/

theorem decode_flatMap (offset : Nat) (h : ∀ c ∈ cs, isAllowed c.toNat = true) :
    decode offset (cs.flatMap String.utf8EncodeChar) = (cs, none) := by
  induction cs generalizing offset with
  | nil => rw [List.flatMap_nil, decode]
  | cons c rest ih =>
    obtain ⟨width, hstep⟩ := exists_decode_char offset (rest.flatMap String.utf8EncodeChar)
      (h c List.mem_cons_self)
    rw [List.flatMap_cons, hstep, ih _ fun d hd => h d (List.mem_cons_of_mem c hd)]

theorem ofText_eq (s : String) : Bytes.ofText s = s.toList.flatMap String.utf8EncodeChar := by
  unfold Bytes.ofText String.toUTF8
  conv => lhs; rw [← String.ofList_toList (s := s)]
  rw [String.toByteArray_ofList]
  unfold List.utf8Encode
  rw [List.data_toByteArray]

theorem readable_ofText {s : String} (h : ∀ c ∈ s.toList, isAllowed c.toNat = true) :
    readable (.ofText s) = (s.toList, none) := by
  unfold readable
  rw [ofText_eq, decode_flatMap 0 h]

end Rollout.Yaml
