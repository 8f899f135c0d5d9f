/-!
# Data values

The free-form data a cluster file may attach to a node: null, truth values, numbers, text, lists and
objects. An object's keys are sorted and each key stands once.
-/

namespace Rollout

/-- A number keeps its kind: whole numbers from -2^63 to 2^64-1 are whole, others are reals. -/
inductive Number where
  | whole (n : Int)
  | real (x : Float)
  deriving Inhabited

namespace Number

def least : Int := -9223372036854775808

/-- The whole numbers end before this one. -/
def limit : Int := 18446744073709551616

def isWhole (n : Int) : Bool := decide (least ≤ n) && decide (n < limit)

end Number

inductive Value where
  | null
  | bool (b : Bool)
  | number (n : Number)
  | text (s : String)
  | list (items : List Value)
  | object (fields : List (String × Value))
  deriving Inhabited

/-- Named values, sorted by name in code point order. -/
abbrev Data := List (String × Value)

namespace Data

/-- Puts a value under a name; an earlier value of that name goes. -/
def insert (name : String) (v : Value) : Data → Data
  | [] => [(name, v)]
  | (k, w) :: rest =>
    if name < k then (name, v) :: (k, w) :: rest
    else if name == k then (name, v) :: rest
    else (k, w) :: insert name v rest

/-- The data of a list of pairs, later ones first in force. -/
def ofPairs (pairs : List (String × Value)) : Data :=
  pairs.foldl (fun d p => insert p.1 p.2 d) []

end Data
end Rollout
