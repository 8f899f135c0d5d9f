import Rollout.Wire.Record

/-!
# Messages

How values are laid out as records. A message type is a list of fields, each of which knows where its
part of a value is kept: writing takes the parts in the order of the list and leaves out what is
default, reading starts from the default value and lets every record change its field. So a number that
no field has is passed over, a part that comes twice is replaced, and lists and inner messages grow.
-/

namespace Rollout.Wire

/-- Why bytes are no message: what is wrong, and the fields it is in, innermost first. -/
structure Problem where
  reason : Reason
  path : List String := []
  deriving DecidableEq, Repr

namespace Problem

def text (p : Problem) : String :=
  "failed to decode Protobuf message: " ++ String.join (p.path.map (· ++ ": ")) ++ p.reason.text

def inside (field : String) (p : Problem) : Problem := { p with path := p.path ++ [field] }

end Problem

/-- A field of values of type `α`. -/
structure Field (α : Type) where
  name : String
  number : Nat
  write : α → List Payload
  /-- Changes a value by one payload; `limit` is how deep groups may nest in what it holds. -/
  read : (limit : Nat) → Payload → α → Except Problem α

structure Message (α : Type) where
  name : String
  empty : α
  fields : List (Field α)

namespace Message

variable {α : Type}

def records (m : Message α) (a : α) : List Record :=
  m.fields.flatMap fun f => (f.write a).map fun p => ⟨f.number, p⟩

def encode (m : Message α) (a : α) : Bytes := (m.records a).flatMap Record.encode

def take (m : Message α) (limit : Nat) (a : α) (r : Record) : Except Problem α :=
  match m.fields.find? (·.number == r.number) with
  | none => .ok a
  | some f => (f.read limit r.payload a).mapError (Problem.inside s!"{m.name}.{f.name}")

/-- The value after all records of some bytes. -/
def merge (m : Message α) (limit : Nat) (a : α) (b : Bytes) : Except Problem α := do
  let (records, ending) := recordsOf limit b
  let a ← records.foldlM (m.take limit) a
  match ending with
  | none => return a
  | some reason => throw { reason }

/-- How deep groups and messages may nest in all. -/
def depthLimit : Nat := 100

def decode (m : Message α) (b : Bytes) : Except Problem α := m.merge depthLimit m.empty b

end Message

/-! ## Single values -/

/-- How a single value is laid out. A field with the default value is not written. -/
structure Scalar (β : Type) where
  default : β
  write : β → Payload
  read : Payload → Except Reason β

namespace Scalar

def wrong {β : Type} (p : Payload) (expected : Layout) : Except Reason β :=
  .error (.wrongLayout p.layout expected)

def uint64 : Scalar UInt64 where
  default := 0
  write := .varint
  read
    | .varint n => .ok n
    | p => wrong p .varint

/-- A number with a sign takes all 64 bits; of what is read the lower 32 count. -/
def int32 : Scalar Int32 where
  default := 0
  write n := .varint n.toInt64.toUInt64
  read
    | .varint n => .ok n.toUInt32.toInt32
    | p => wrong p .varint

def bool : Scalar Bool where
  default := false
  write b := .varint (if b then 1 else 0)
  read
    | .varint n => .ok (n != 0)
    | p => wrong p .varint

def bytes : Scalar Bytes where
  default := []
  write := .delimited
  read
    | .delimited b => .ok b
    | p => wrong p .delimited

def text : Scalar String where
  default := ""
  write s := .delimited (.ofText s)
  read
    | .delimited b =>
      match b.text? with
      | some s => .ok s
      | none => .error .notText
    | p => wrong p .delimited

end Scalar

namespace Field

variable {α β : Type}

def plain (reason : Except Reason β) : Except Problem β := reason.mapError fun r => { reason := r }

/-- A single value, written unless it is the default. -/
def one [DecidableEq β] (s : Scalar β) (name : String) (number : Nat) (get : α → β)
    (set : β → α → α) : Field α where
  name
  number
  write a := if get a = s.default then [] else [s.write (get a)]
  read _ p a := return set (← plain (s.read p)) a

def many (s : Scalar β) (name : String) (number : Nat) (get : α → List β) (set : List β → α → α) :
    Field α where
  name
  number
  write a := (get a).map s.write
  read _ p a := return set (get a ++ [← plain (s.read p)]) a

def inner (p : Payload) : Except Problem Bytes :=
  match p with
  | .delimited b => .ok b
  | p => plain (Scalar.wrong p .delimited)

/-- An inner message that may be absent. -/
def optional (m : Message β) (name : String) (number : Nat) (get : α → Option β)
    (set : Option β → α → α) : Field α where
  name
  number
  write a := ((get a).map fun b => .delimited (m.encode b)).toList
  read limit p a := do
    let b ← m.merge (limit - 1) ((get a).getD m.empty) (← inner p)
    return set (some b) a

def repeated (m : Message β) (name : String) (number : Nat) (get : α → List β)
    (set : List β → α → α) : Field α where
  name
  number
  write a := (get a).map fun b => .delimited (m.encode b)
  read limit p a := do
    let b ← m.merge (limit - 1) m.empty (← inner p)
    return set (get a ++ [b]) a

end Field
end Rollout.Wire
