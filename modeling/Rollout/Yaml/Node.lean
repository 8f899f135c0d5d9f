import Rollout.Yaml.Token

/-!
# Documents as trees

What the tokens of a document denote. An alias stays an alias: it names an anchor of its document and
is resolved where its value is wanted. Where a document is malformed the tree has a `broken` node: a
reader that gets that far fails, one that has failed before has its own reason.
-/

namespace Rollout.Yaml

inductive Node where
  | scalar (mark : Mark) (tag : Option String) (style : Style) (text : String)
  | sequence (mark : Mark) (tag : Option String) (items : List Node)
  | mapping (mark : Mark) (tag : Option String) (pairs : List (Node × Node))
  | reference (mark : Mark) (anchor : Nat)
  /-- Nothing at all: the document of an empty text. -/
  | void (mark : Mark)
  | broken

namespace Node

def mark : Node → Mark
  | scalar m _ _ _ => m
  | sequence m _ _ => m
  | mapping m _ _ => m
  | reference m _ => m
  | void m => m
  | broken => {}

end Node

/-- An anchored node: the number of its anchor, and when it started among the document's nodes. -/
structure Anchored where
  anchor : Nat
  started : Nat
  node : Node

structure Document where
  root : Node
  problem : Option Problem
  anchored : List Anchored
  /-- How many values and ends of collections the document has. -/
  size : Nat

namespace Document

/-- The node an alias stands for: of the nodes with that anchor the one that started last. -/
def resolve? (d : Document) (anchor : Nat) : Option Node :=
  let found := d.anchored.filter (·.anchor == anchor)
  (found.foldl (fun best a =>
    match best with
    | some (b : Anchored) => if b.started < a.started then some a else best
    | none => some a) none).map Anchored.node

end Document
end Rollout.Yaml
