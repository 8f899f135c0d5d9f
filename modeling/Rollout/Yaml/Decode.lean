import Rollout.Decimal.Shortest
import Rollout.Yaml.Core
import Rollout.Yaml.Node
import Rollout.Text.Quoted

/-!
# Values from documents

Decoders take a node to a value or to the first reason why it has none, in document order. An alias is
followed where its value is wanted, at most a hundred times as often as the document has parts, and
collections nest at most 128 deep. The path and place of a refused value are part of the reason.
-/

namespace Rollout.Yaml

/-- Decoding reads one document and counts the aliases it follows. -/
abbrev Decode (α : Type) := ReaderT Document (StateT Nat (Except Problem)) α

/-- Where a decoder is: how deep collections may still nest, and the path from the root. -/
structure Position where
  depth : Nat := 128
  path : String := ""

abbrev Decoder (α : Type) := Position → Node → Decode α

namespace Position

def key (p : Position) (name : String) : Position :=
  { p with path := if p.path.isEmpty then name else p.path ++ "." ++ name }

def index (p : Position) (i : Nat) : Position := { p with path := s!"{p.path}[{i}]" }

/-- Below a key that is no plain text. -/
def unknown (p : Position) : Position :=
  { p with path := if p.path.isEmpty then "?" else p.path ++ ".?" }

end Position

namespace Decode

variable {α : Type}

def refuse (message : String) (p : Position) (m : Mark) : Decode α :=
  throw (.value message p.path (some m))

/-- The document is malformed from here on. -/
def broken : Decode α := do
  throw ((← read).problem.getD .endOfStream)

/-- Counts an alias followed. -/
def jump : Decode Unit := do
  let n ← get
  let d ← read
  if d.size * 100 < n + 1 then throw .tooManyAliases
  set (n + 1)

/-- The node itself, or the node that an alias stands for. -/
def target (node : Node) : Decode Node :=
  match node with
  | .reference _ anchor => do
    jump
    match (← read).resolve? anchor with
    | some node => return node
    | none => broken
  | .broken => broken
  | node => return node

/-- The position inside a collection. -/
def enter (p : Position) (m : Mark) : Decode Position :=
  match p.depth with
  | 0 => throw (.tooDeep m)
  | d + 1 => return { p with depth := d }

end Decode

def plainKind (s : String) : String :=
  match plainOf s with
  | .null => "unit value"
  | .bool b => if b then "boolean \x60true\x60" else "boolean \x60false\x60"
  | .int n => s!"integer \x60{n}\x60"
  | .real x => "floating point \x60" ++ Decimal.floatText x ++ "\x60"
  | .text => "string " ++ Text.quoted s

def nodeKind : Node → String
  | .scalar _ none .plain s => plainKind s
  | .scalar _ _ _ s => "string " ++ Text.quoted s
  | .sequence _ _ _ => "sequence"
  | .mapping _ _ _ => "map"
  | _ => "unit value"

/-- Refuses a node of the wrong kind. -/
def wrongKind {α : Type} (expected : String) (p : Position) (node : Node) : Decode α :=
  Decode.refuse s!"invalid type: {nodeKind node}, expected {expected}" p node.mark

mutual

def hasBroken : Node → Bool
  | .sequence _ _ items => anyBroken items
  | .mapping _ _ pairs => anyPairBroken pairs
  | .broken => true
  | _ => false

def anyBroken : List Node → Bool
  | [] => false
  | n :: rest => hasBroken n || anyBroken rest

def anyPairBroken : List (Node × Node) → Bool
  | [] => false
  | (k, v) :: rest => hasBroken k || hasBroken v || anyPairBroken rest

end

namespace Decoder

variable {α ρ : Type}

/-- The text of any single value, whatever it stands for otherwise. -/
def text : Decoder String := fun p node => do
  match ← Decode.target node with
  | .scalar _ _ _ s => return s
  | node => wrongKind "a string" p node

/-- A text that `read` understands. -/
def parsed (read : String → Except String α) : Decoder α := fun p node => do
  match ← Decode.target node with
  | .scalar m _ _ s =>
    match read s with
    | .ok a => return a
    | .error message => Decode.refuse message p m
  | node => wrongKind "a string" p node

/-- A truth value; quoted text is none. -/
def bool : Decoder Bool := fun p node => do
  match ← Decode.target node with
  | .scalar m tag style s =>
    let node := Node.scalar m tag style s
    let literal := style == .plain || (style == .block && tag == some "tag:yaml.org,2002:bool")
    match if literal then Plain.bool? s else none with
    | some b => return b
    | none => wrongKind "a boolean" p node
  | node => wrongKind "a boolean" p node

def isAbsent : Node → Bool
  | .scalar _ tag .plain s => if tag.isNone then s.isEmpty || Plain.isNull s else false
  | .void _ => true
  | _ => false

def option (inner : Decoder α) : Decoder (Option α) := fun p node => do
  let node ← Decode.target node
  match node with
  | .scalar m (some "tag:yaml.org,2002:null") .plain s =>
    if Plain.isNull s then return none
    else Decode.refuse s!"invalid value: string {Text.quoted s}, expected null" p m
  | _ => if isAbsent node then return none else return some (← inner p node)

/-- Does an empty value stand for an empty collection? -/
def isEmptyCollection : Node → Bool
  | .scalar _ _ .plain s => s.isEmpty
  | .void _ => true
  | _ => false

def items (inner : Decoder α) (p : Position) : Nat → List Node → Decode (List α)
  | _, [] => return []
  | i, n :: rest => do
    let a ← inner (p.index i) n
    return a :: (← items inner p (i + 1) rest)

def list (inner : Decoder α) : Decoder (List α) := fun p node => do
  let node ← Decode.target node
  match node with
  | .sequence m _ nodes => items inner (← Decode.enter p m) 0 nodes
  | _ => if isEmptyCollection node then return [] else wrongKind "a sequence" p node

/-- A key, and the position of its value. -/
def key (expected : String) (p : Position) (node : Node) : Decode (String × Position) := do
  match ← Decode.target node with
  | .scalar _ _ _ s =>
    match node with
    | .scalar _ _ _ _ => return (s, p.key s)
    | _ => return (s, p.unknown)
  | other => wrongKind expected p other

/-- A field of a record: its name, and how its value changes a record. -/
structure Field (ρ : Type) where
  name : String
  put : Decoder (ρ → ρ)

def Field.of {α ρ : Type} (name : String) (decoder : Decoder α) (put : α → ρ → ρ) : Field ρ :=
  ⟨name, fun p node => return put (← decoder p node)⟩

/-- Reads the pairs of a record. Unknown names are passed over, known ones stand once. -/
def pairs (fields : List (Field ρ)) (p : Position) (m : Mark) (seen : List String) (r : ρ) :
    List (Node × Node) → Decode ρ
  | [] => return r
  | (k, v) :: rest => do
    let (name, inner) ← key "field identifier" p k
    match fields.find? (·.name == name) with
    | none =>
      if hasBroken v then Decode.broken
      pairs fields p m seen r rest
    | some field =>
      if seen.contains name then Decode.refuse s!"duplicate field \x60{name}\x60" p m
      let change ← field.put inner v
      pairs fields p m (name :: seen) (change r) rest

/-- A record: all pairs are read before it is asked which field is missing. -/
def record (expected : String) (fields : List (Field ρ)) (empty : ρ)
    (finish : ρ → Except String α) : Decoder α := fun p node => do
  let node ← Decode.target node
  let close (r : ρ) : Decode α :=
    match finish r with
    | .ok a => return a
    | .error name => Decode.refuse s!"missing field \x60{name}\x60" p node.mark
  match node with
  | .mapping m _ ps => close (← pairs fields (← Decode.enter p m) m [] empty ps)
  | _ => if isEmptyCollection node then close empty else wrongKind expected p node

def required (name : String) : Option α → Except String α
  | some a => .ok a
  | none => .error name

def enumError (names : List String) (s : String) : String :=
  s!"unknown variant \x60{s}\x60, expected " ++
    " or ".intercalate (names.map fun n => "\x60" ++ n ++ "\x60")

/-- A local tag's name. -/
def localTag? : Option String → Option String
  | none => none
  | some tag =>
    match tag.toList with
    | '!' :: rest => some (String.ofList rest)
    | _ => none

/-- One of several names, as text or as a tag on nothing. -/
def oneOf (names : List (String × α)) : Decoder α := fun p node => do
  let choose (s : String) (m : Mark) : Decode α :=
    match names.lookup s with
    | some a => return a
    | none => Decode.refuse (enumError (names.map (·.1)) s) p m
  let node ← Decode.target node
  match node with
  | .scalar m tag style s =>
    match localTag? tag with
    | none => choose s m
    | some name =>
      let a ← choose name m
      if style == .plain && (s.isEmpty || Plain.isNull s) then return a
      else Decode.refuse s!"invalid value: string {Text.quoted s}, expected unit" p m
  | .mapping m tag _ | .sequence m tag _ =>
    match localTag? tag with
    | none =>
      Decode.refuse s!"invalid type: {nodeKind node}, expected a YAML tag starting with '!'" p m
    | some name =>
      let _ ← choose name m
      wrongKind "unit" p node
  | _ => throw .endOfStream

end Decoder

/-- Decodes the root of a document, which has to be well formed to its end. -/
def Document.decode {α : Type} (d : Document) (decoder : Decoder α) : Except Problem α := do
  let (a, _) ← (decoder {} d.root).run d |>.run 0
  match d.problem with
  | some problem => throw problem
  | none => return a

/-- Decodes the only document of a text. -/
def decodeOnly {α : Type} (decoder : Decoder α) (documents : List Document) : Except Problem α :=
  match documents with
  | [] => .error .endOfStream
  | d :: rest => do
    let a ← d.decode decoder
    if rest.isEmpty then return a else throw .severalDocuments

end Rollout.Yaml
