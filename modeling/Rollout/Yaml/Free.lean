import Rollout.Value
import Rollout.Yaml.Decode

/-!
# Free-form values

Documents whose shape is not known beforehand: data values (`Decoder.value`, `Decoder.data`), and YAML
trees with tags and keys of any kind (`Tree`).
-/

namespace Rollout.Yaml

/-- What a single value stands for; a tag of the core schema overrides how it looks. -/
def meaning (tag : Option String) (style : Style) (s : String) : Except String Plain :=
  let bad (expected : String) : Except String Plain :=
    .error s!"invalid value: string {Text.quoted s}, expected {expected}"
  match tag with
  | none => .ok (if style == .plain then plainOf s else .text)
  | some tag =>
    if tag == "tag:yaml.org,2002:bool" then
      match Plain.bool? s with
      | some b => .ok (.bool b)
      | none => bad "a boolean"
    else if tag == "tag:yaml.org,2002:int" then
      match Plain.int? s.toList with
      | some n => .ok (.int n)
      | none => bad "an integer"
    else if tag == "tag:yaml.org,2002:float" then
      match Plain.real? s.toList with
      | some x => .ok (.real x)
      | none => bad "a float"
    else if tag == "tag:yaml.org,2002:null" then
      if Plain.isNull s then .ok .null else bad "null"
    else .ok .text

def anyData : String := "any valid JSON value"

def scalarValue (tag : Option String) (style : Style) (s : String) : Except String Value :=
  match Decoder.localTag? tag with
  | some _ => .error s!"invalid type: enum, expected {anyData}"
  | none =>
    match meaning tag style s with
    | .error message => .error message
    | .ok .null => .ok .null
    | .ok (.bool b) => .ok (.bool b)
    | .ok (.int n) =>
      if Number.isWhole n then .ok (.number (.whole n))
      else .error "JSON number out of range"
    | .ok (.real x) => .ok (if x.isFinite then .number (.real x) else .null)
    | .ok .text => .ok (.text s)

namespace Decoder

/-- A data value; `depth` is how deep collections may still nest. -/
def valueAt (path : String) (node : Node) : (depth : Nat) → Decode Value
  | 0 => do
    match ← Decode.target node with
    | .scalar m tag style s =>
      match scalarValue tag style s with
      | .ok v => return v
      | .error message => Decode.refuse message { path } m
    | .void _ => return .null
    | node => throw (.tooDeep node.mark)
  | depth + 1 => do
    match ← Decode.target node with
    | .scalar m tag style s =>
      match scalarValue tag style s with
      | .ok v => return v
      | .error message => Decode.refuse message { path } m
    | .sequence m tag nodes =>
      if (localTag? tag).isSome then
        Decode.refuse s!"invalid type: enum, expected {anyData}" { path } m
      let values ← nodes.mapIdx (fun i n => (i, n)) |>.mapM fun (i, n) =>
        valueAt (Position.index { path } i).path n depth
      return .list values
    | .mapping m tag pairs =>
      if (localTag? tag).isSome then
        Decode.refuse s!"invalid type: enum, expected {anyData}" { path } m
      let fields ← pairs.mapM fun (k, v) => do
        let (name, inner) ← key "a string" { path } k
        return (name, ← valueAt inner.path v depth)
      return .object (Data.ofPairs fields)
    | .void _ => return .null
    | _ => Decode.broken

def value : Decoder Value := fun p node => valueAt p.path node p.depth

def dataPairs (p : Position) : List (Node × Node) → Decode (List (String × Value))
  | [] => return []
  | (k, v) :: rest => do
    let (name, inner) ← key "a string" p k
    let v ← value inner v
    return (name, v) :: (← dataPairs p rest)

def data : Decoder Data := fun p node => do
  let node ← Decode.target node
  match node with
  | .mapping m _ pairs => return Data.ofPairs (← dataPairs (← Decode.enter p m) pairs)
  | _ => if isEmptyCollection node then return [] else wrongKind "a map" p node

end Decoder

inductive Tree where
  | null
  | bool (b : Bool)
  | int (n : Int)
  | real (x : Float)
  | text (s : String)
  | list (items : List Tree)
  | map (pairs : List (Tree × Tree))
  | tagged (tag : String) (inner : Tree)

namespace Tree

def sameReal (x y : Float) : Bool := x == y || (x.isNaN && y.isNaN)

mutual

/-- Are two trees the same key? Mappings are, whatever the order of their pairs. -/
def same : Tree → Tree → Bool
  | null, null => true
  | bool a, bool b => a == b
  | int a, int b => a == b
  | real a, real b => sameReal a b
  | text a, text b => a == b
  | list a, list b => sameList a b
  | map a, map b => a.length == b.length && samePairs a b
  | tagged s a, tagged t b => s == t && same a b
  | _, _ => false

def sameList : List Tree → List Tree → Bool
  | [], [] => true
  | a :: as, b :: bs => same a b && sameList as bs
  | _, _ => false

/-- Is every pair of the first list in the second? -/
def samePairs : List (Tree × Tree) → List (Tree × Tree) → Bool
  | [], _ => true
  | (k, v) :: rest, other => samePairIn k v other && samePairs rest other

def samePairIn (k v : Tree) : List (Tree × Tree) → Bool
  | [] => false
  | (k', v') :: rest => (same k k' && same v v') || samePairIn k v rest

end

end Tree

def scalarTree (tag : Option String) (style : Style) (s : String) : Except String Tree :=
  match meaning tag style s with
  | .error message => .error message
  | .ok .null => .ok .null
  | .ok (.bool b) => .ok (.bool b)
  | .ok (.int n) =>
    if Number.isWhole n then .ok (.int n)
    else .error s!"invalid type: integer \x60{n}\x60 as i128, expected any YAML value"
  | .ok (.real x) => .ok (.real x)
  | .ok .text => .ok (.text s)

namespace Decoder

/-- Wraps a tree in its local tag, if it has one. -/
def tagTree (tag : Option String) (p : Position) (m : Mark) (t : Tree) : Decode Tree :=
  match localTag? tag with
  | none => return t
  | some "" => Decode.refuse "empty YAML tag is not allowed" p m
  | some name => return .tagged name t

/-- The pairs of a mapping, each key once. -/
def treePairs (p : Position) (m : Mark) (read : Node → Decode Tree) (seen : List (Tree × Tree)) :
    List (Node × Node) → Decode (List (Tree × Tree))
  | [] => return seen.reverse
  | (k, v) :: rest => do
    let k ← read k
    if seen.any (fun pair => k.same pair.1) then Decode.refuse "duplicate entry" p m
    let v ← read v
    treePairs p m read ((k, v) :: seen) rest

def treeAt (node : Node) : (depth : Nat) → Decode Tree
  | 0 => do
    match ← Decode.target node with
    | .scalar m tag style s => scalar m tag style s
    | .void _ => return .null
    | node => throw (.tooDeep node.mark)
  | depth + 1 => do
    match ← Decode.target node with
    | .scalar m tag style s => scalar m tag style s
    | .sequence m tag nodes =>
      let items ← nodes.mapM (treeAt · depth)
      tagTree tag {} m (.list items)
    | .mapping m tag pairs =>
      let ps ← treePairs {} m (treeAt · depth) [] pairs
      tagTree tag {} m (.map ps)
    | .void _ => return .null
    | _ => Decode.broken
where
  scalar (m : Mark) (tag : Option String) (style : Style) (s : String) : Decode Tree :=
    let core := if (localTag? tag).isSome then none else tag
    match scalarTree core style s with
    | .ok t => tagTree tag {} m t
    | .error message => Decode.refuse message {} m

def tree : Decoder Tree := fun p node => treeAt node p.depth

end Decoder
end Rollout.Yaml
