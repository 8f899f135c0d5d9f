import Rollout.Bytes

/-!
# Numbers on the wire

A number takes seven bits a byte, lowest first, and every byte but the last has its high bit set. A
number has at most 64 bits. Any writer's bytes are accepted, also with more bytes than are needed.
-/

namespace Rollout.Wire.Varint

def encode (n : Nat) : Bytes :=
  if n < 128 then [UInt8.ofNat n] else UInt8.ofNat (n % 128 + 128) :: encode (n / 128)
termination_by n
decreasing_by omega

/-- The number at the start and the bytes behind it; at most `width` bytes belong to it. -/
def decodeWithin : (width : Nat) → Bytes → Option (Nat × Bytes)
  | 0, _ => none
  | _ + 1, [] => none
  | width + 1, b :: rest =>
    if b.toNat < 128 then some (b.toNat, rest)
    else (decodeWithin width rest).map fun (n, rest) => (b.toNat - 128 + 128 * n, rest)

/-- Numbers have at most 64 bits. -/
def limit : Nat := 18446744073709551616

/-- The number at the start, and the bytes behind it. -/
def decode (b : Bytes) : Option (Nat × Bytes) :=
  (decodeWithin 10 b).filter (·.1 < limit)

/-- How many numbers there is room for in `width` bytes. -/
def capacity : (width : Nat) → Nat
  | 0 => 1
  | width + 1 => 128 * capacity width

theorem length_lt_of_decodeWithin {width n : Nat} {b rest : Bytes}
    (h : decodeWithin width b = some (n, rest)) : rest.length < b.length := by
  induction width generalizing b n with
  | zero => simp [decodeWithin] at h
  | succ width ih =>
    cases b with
    | nil => simp [decodeWithin] at h
    | cons c tail =>
      rw [decodeWithin] at h
      split at h
      · simp at h
        simp [← h.2]
      · simp only [Option.map_eq_some_iff, Prod.exists, Prod.mk.injEq] at h
        obtain ⟨m, r, hr, _, rfl⟩ := h
        have := ih hr
        simp
        omega

theorem length_lt_of_decode {n : Nat} {b rest : Bytes} (h : decode b = some (n, rest)) :
    rest.length < b.length := by
  simp only [decode, Option.filter_eq_some_iff] at h
  exact length_lt_of_decodeWithin h.1

end Rollout.Wire.Varint
