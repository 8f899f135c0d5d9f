import Rollout.Wire.Varint

/-!
# Records

A message is a row of records, each with the number of the field it belongs to and a payload in one of
five layouts. What a payload means is for the message to say; a record whose number the message does
not know can be passed over all the same. A group, a layout of old, is passed over to its end.
-/

namespace Rollout.Wire

/-- The layouts, as a key names them. -/
inductive Layout where
  | varint
  | fixed64
  | delimited
  | groupStart
  | groupEnd
  | fixed32
  deriving DecidableEq, Repr

namespace Layout

def number : Layout → Nat
  | varint => 0
  | fixed64 => 1
  | delimited => 2
  | groupStart => 3
  | groupEnd => 4
  | fixed32 => 5

def ofNumber? : Nat → Option Layout
  | 0 => some varint
  | 1 => some fixed64
  | 2 => some delimited
  | 3 => some groupStart
  | 4 => some groupEnd
  | 5 => some fixed32
  | _ => none

theorem ofNumber?_number (l : Layout) : ofNumber? l.number = some l := by cases l <;> rfl

def text : Layout → String
  | varint => "Varint"
  | fixed64 => "SixtyFourBit"
  | delimited => "LengthDelimited"
  | groupStart => "StartGroup"
  | groupEnd => "EndGroup"
  | fixed32 => "ThirtyTwoBit"

end Layout

inductive Reason where
  | badVarint
  | badKey (key : Nat)
  | badLayout (number : Nat)
  | fieldZero
  | wrongLayout (given expected : Layout)
  | underflow
  | unexpectedGroupEnd
  | tooDeep
  | notText
  deriving DecidableEq, Repr

def Reason.text : Reason → String
  | badVarint => "invalid varint"
  | badKey key => s!"invalid key value: {key}"
  | badLayout number => s!"invalid wire type value: {number}"
  | fieldZero => "invalid tag value: 0"
  | wrongLayout given expected => s!"invalid wire type: {given.text} (expected {expected.text})"
  | underflow => "buffer underflow"
  | unexpectedGroupEnd => "unexpected end group tag"
  | tooDeep => "recursion limit reached"
  | notText => "invalid string value: data is not UTF-8 encoded"

inductive Payload where
  | varint (n : UInt64)
  | fixed64 (b : Vector UInt8 8)
  | delimited (b : Bytes)
  | fixed32 (b : Vector UInt8 4)
  /-- A group, whatever it holds. -/
  | group
  deriving DecidableEq

structure Record where
  number : Nat
  payload : Payload
  deriving DecidableEq

def Payload.layout : Payload → Layout
  | varint _ => .varint
  | fixed64 _ => .fixed64
  | delimited _ => .delimited
  | fixed32 _ => .fixed32
  | group => .groupStart

/-! ## Writing -/

def encodeKey (number : Nat) (layout : Layout) : Bytes := Varint.encode (8 * number + layout.number)

def Payload.encode (number : Nat) : Payload → Bytes
  | varint n => Varint.encode n.toNat
  | fixed64 b => b.toList
  | delimited b => Varint.encode b.length ++ b
  | fixed32 b => b.toList
  | group => encodeKey number .groupEnd

def Record.encode (r : Record) : Bytes :=
  encodeKey r.number r.payload.layout ++ r.payload.encode r.number

/-! ## Reading -/

/-- The field number and the layout that start a record. -/
def readKey (b : Bytes) : Except Reason (Nat × Layout × Bytes) :=
  match Varint.decode b with
  | none => .error .badVarint
  | some (key, rest) =>
    if 4294967296 ≤ key then .error (.badKey key)
    else match Layout.ofNumber? (key % 8) with
      | none => .error (.badLayout (key % 8))
      | some layout => if key / 8 = 0 then .error .fieldZero else .ok (key / 8, layout, rest)

/-- The payload behind a key that starts no group. -/
def readPlain (layout : Layout) (b : Bytes) : Except Reason (Payload × Bytes) :=
  match layout with
  | .varint =>
    match Varint.decode b with
    | none => .error .badVarint
    | some (n, rest) => .ok (.varint (UInt64.ofNat n), rest)
  | .fixed64 =>
    if h : 8 ≤ b.length then .ok (.fixed64 ⟨(b.take 8).toArray, by simp [h]⟩, b.drop 8)
    else .error .underflow
  | .delimited =>
    match Varint.decode b with
    | none => .error .badVarint
    | some (n, rest) =>
      if n ≤ rest.length then .ok (.delimited (rest.take n), rest.drop n) else .error .underflow
  | .fixed32 =>
    if h : 4 ≤ b.length then .ok (.fixed32 ⟨(b.take 4).toArray, by simp [h]⟩, b.drop 4)
    else .error .underflow
  | .groupStart | .groupEnd => .error .unexpectedGroupEnd

theorem length_lt_of_readKey {n : Nat} {l : Layout} {b rest : Bytes}
    (h : readKey b = .ok (n, l, rest)) : rest.length < b.length := by
  simp only [readKey] at h
  split at h
  · simp at h
  · next hd =>
    split at h
    · simp at h
    · split at h
      · simp at h
      · split at h
        · simp at h
        · simp only [Except.ok.injEq, Prod.mk.injEq] at h
          exact h.2.2 ▸ Varint.length_lt_of_decode hd

theorem length_le_of_readPlain {l : Layout} {p : Payload} {b rest : Bytes}
    (h : readPlain l b = .ok (p, rest)) : rest.length ≤ b.length := by
  unfold readPlain at h
  split at h
  · split at h
    · simp at h
    · next hd =>
      simp only [Except.ok.injEq, Prod.mk.injEq] at h
      exact h.2 ▸ Nat.le_of_lt (Varint.length_lt_of_decode hd)
  · split at h
    · simp only [Except.ok.injEq, Prod.mk.injEq] at h
      simp [← h.2]
    · simp at h
  · split at h
    · simp at h
    · next hd =>
      have := Varint.length_lt_of_decode hd
      split at h
      · simp only [Except.ok.injEq, Prod.mk.injEq] at h
        simp [← h.2]
        omega
      · simp at h
  · split at h
    · simp only [Except.ok.injEq, Prod.mk.injEq] at h
      simp [← h.2]
    · simp at h
  · simp at h
  · simp at h

/-- Past the end of the outermost of the open groups, of which `opened` are the field numbers,
innermost first. Fewer than `limit` groups may be open where a field stands. -/
def skipGroups (limit : Nat) (opened : List Nat) (b : Bytes) : Except Reason Bytes :=
  match opened with
  | [] => .ok b
  | number :: outer =>
    match _hk : readKey b with
    | .error r => .error r
    | .ok (n, layout, rest) =>
      if layout = .groupEnd then
        if n = number then skipGroups limit outer rest else .error .unexpectedGroupEnd
      else if limit ≤ outer.length + 1 then .error .tooDeep
      else if layout = .groupStart then skipGroups limit (n :: number :: outer) rest
      else match _hp : readPlain layout rest with
        | .error r => .error r
        | .ok (_, rest') => skipGroups limit (number :: outer) rest'
termination_by b.length
decreasing_by
  · exact length_lt_of_readKey _hk
  · exact length_lt_of_readKey _hk
  · exact Nat.lt_of_le_of_lt (length_le_of_readPlain _hp) (length_lt_of_readKey _hk)

theorem length_le_of_skipGroups {limit : Nat} {opened : List Nat} {b rest : Bytes}
    (h : skipGroups limit opened b = .ok rest) : rest.length ≤ b.length := by
  fun_induction skipGroups limit opened b with
  | case1 => simp_all
  | case2 => simp at h
  | case3 _ _ _ _ hk ih => exact Nat.le_trans (ih h) (Nat.le_of_lt (length_lt_of_readKey hk))
  | case4 => simp at h
  | case5 => simp at h
  | case6 _ _ _ _ _ _ hk _ ih =>
    exact Nat.le_trans (ih h) (Nat.le_of_lt (length_lt_of_readKey hk))
  | case7 => simp at h
  | case8 _ _ _ _ _ _ hk _ _ _ _ _ hp ih =>
    exact Nat.le_trans (ih h)
      (Nat.le_trans (length_le_of_readPlain hp) (Nat.le_of_lt (length_lt_of_readKey hk)))

/-- The record at the start; `limit` bounds the nesting of groups. -/
def readRecord (limit : Nat) (b : Bytes) : Except Reason (Record × Bytes) :=
  match readKey b with
  | .error r => .error r
  | .ok (number, .groupStart, rest) =>
    match skipGroups limit [number] rest with
    | .error r => .error r
    | .ok rest => .ok (⟨number, .group⟩, rest)
  | .ok (number, layout, rest) =>
    match readPlain layout rest with
    | .error r => .error r
    | .ok (payload, rest) => .ok (⟨number, payload⟩, rest)

theorem length_lt_of_readRecord {limit : Nat} {r : Record} {b rest : Bytes}
    (h : readRecord limit b = .ok (r, rest)) : rest.length < b.length := by
  unfold readRecord at h
  split at h
  · simp at h
  · next hk =>
    split at h
    · simp at h
    · next hs =>
      simp only [Except.ok.injEq, Prod.mk.injEq] at h
      exact h.2 ▸ Nat.lt_of_le_of_lt (length_le_of_skipGroups hs) (length_lt_of_readKey hk)
  · next hk =>
    split at h
    · simp at h
    · next hp =>
      simp only [Except.ok.injEq, Prod.mk.injEq] at h
      exact h.2 ▸ Nat.lt_of_le_of_lt (length_le_of_readPlain hp) (length_lt_of_readKey hk)

/-- The records of a message, and why there are no more if it is not the end of the message. -/
def recordsOf (limit : Nat) (b : Bytes) : List Record × Option Reason :=
  if b.isEmpty then ([], none)
  else match _h : readRecord limit b with
    | .error reason => ([], some reason)
    | .ok (r, rest) =>
      let (records, ending) := recordsOf limit rest
      (r :: records, ending)
termination_by b.length
decreasing_by exact length_lt_of_readRecord _h

end Rollout.Wire
