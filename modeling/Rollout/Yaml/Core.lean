import Rollout.Decimal.Reading

/-!
# Plain values

What a plain value stands for in the core schema of YAML 1.2: null, a truth value, a whole number, a
real, or its own text. Digits behind a leading zero are text.
-/

namespace Rollout.Yaml

inductive Plain where
  | null
  | bool (b : Bool)
  | int (n : Int)
  | real (x : Float)
  | text

namespace Plain

def isNull (s : String) : Bool := s == "null" || s == "Null" || s == "NULL" || s == "~"

def bool? (s : String) : Option Bool :=
  if s == "true" || s == "True" || s == "TRUE" then some true
  else if s == "false" || s == "False" || s == "FALSE" then some false
  else none

def isDigitBelow (base : Nat) (c : Char) : Option Nat :=
  let v :=
    if '0' ≤ c && c ≤ '9' then c.toNat - 48
    else if 'a' ≤ c && c ≤ 'f' then c.toNat - 87
    else if 'A' ≤ c && c ≤ 'F' then c.toNat - 55
    else 99
  if v < base then some v else none

def digits? (base : Nat) (cs : List Char) : Option Nat :=
  if cs.isEmpty then none
  else (cs.mapM (isDigitBelow base)).map (·.foldl (fun n d => base * n + d) 0)

/-- Digits with a leading zero, sign or not. -/
def isZeroPadded (cs : List Char) : Bool :=
  let body := match cs with
    | c :: rest => if c == '-' || c == '+' then rest else cs
    | [] => []
  match body with
  | '0' :: c :: rest => (c :: rest).all Decimal.isDigit
  | _ => false

def based? : List Char → Option (Option Nat)
  | '0' :: 'x' :: rest => some (digits? 16 rest)
  | '0' :: 'o' :: rest => some (digits? 8 rest)
  | '0' :: 'b' :: rest => some (digits? 2 rest)
  | _ => none

/-- A number without its sign; only decimal ones may not be padded. -/
def magnitude? (padded : Bool) (cs : List Char) : Option Nat :=
  match based? cs with
  | some result => result
  | none => if padded then none else digits? 10 cs

/-- Whole numbers go from `-intDepth` (2^127) to below `intLimit` (2^128). -/
def intDepth : Nat := 170141183460469231731687303715884105728

def intLimit : Nat := 340282366920938463463374607431768211456

def int? (cs : List Char) : Option Int :=
  let padded := isZeroPadded cs
  match cs with
  | '-' :: rest =>
    (magnitude? padded rest).bind fun n => if n ≤ intDepth then some (-(n : Int)) else none
  | '+' :: rest => (magnitude? padded rest).bind fun n => if n < intLimit then some n else none
  | _ => (magnitude? padded cs).bind fun n => if n < intLimit then some n else none

def infinity : Float := 1.0 / 0.0

def real? (cs : List Char) : Option Float :=
  let body := match cs with
    | '+' :: rest => rest
    | _ => cs
  let s := String.ofList body
  if s == ".inf" || s == ".Inf" || s == ".INF" then some infinity
  else if s == "-.inf" || s == "-.Inf" || s == "-.INF" then
    if cs.head? == some '+' then none else some (-infinity)
  else if s == ".nan" || s == ".NaN" || s == ".NAN" then
    if cs.head? == some '+' then none else some (0.0 / 0.0)
  else match cs, body with
    | '+' :: _, '+' :: _ => none
    | '+' :: _, '-' :: _ => none
    | _, _ => Decimal.float? body

end Plain

/-- What a plain value stands for. -/
def plainOf (s : String) : Plain :=
  if s.isEmpty || Plain.isNull s then .null
  else match Plain.bool? s with
    | some b => .bool b
    | none =>
      match Plain.int? s.toList with
      | some n => .int n
      | none =>
        if Plain.isZeroPadded s.toList then .text
        else match Plain.real? s.toList with
          | some x => .real x
          | none => .text

end Rollout.Yaml
