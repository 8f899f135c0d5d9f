import Rollout.Bytes

/-!
# JSON texts

Reading what another program says about itself in JSON.
-/

namespace Rollout

inductive JsonValue where
  | null
  | bool (b : Bool)
  /-- A number as it is written. -/
  | number (digits : List Char)
  | text (s : List Char)
  | list (items : List JsonValue)
  /-- The fields in the order of the text; a name may stand twice. -/
  | object (fields : List (List Char × JsonValue))

namespace JsonValue

def isSpace (c : Char) : Bool := c == ' ' || c == '\n' || c == '\t' || c == '\r'

def skipSpace (cs : List Char) : List Char := cs.dropWhile isSpace

def isDigit (c : Char) : Bool := '0' ≤ c && c ≤ '9'

/-- One or more digits, and what follows. -/
def digits? (cs : List Char) : Option (List Char × List Char) :=
  let ds := cs.takeWhile isDigit
  if ds.isEmpty then none else some (ds, cs.dropWhile isDigit)

/-- An integer without needless zeros. -/
def whole? (cs : List Char) : Option (List Char × List Char) :=
  match cs with
  | '0' :: rest => if rest.head?.any isDigit then none else some (['0'], rest)
  | cs => digits? cs

def fraction? (cs : List Char) : Option (List Char × List Char) :=
  match cs with
  | '.' :: rest => (digits? rest).map fun (ds, rest) => ('.' :: ds, rest)
  | cs => some ([], cs)

def exponent? (cs : List Char) : Option (List Char × List Char) :=
  match cs with
  | e :: rest =>
    if e == 'e' || e == 'E' then
      match rest with
      | '+' :: rest => (digits? rest).map fun (ds, rest) => (e :: '+' :: ds, rest)
      | '-' :: rest => (digits? rest).map fun (ds, rest) => (e :: '-' :: ds, rest)
      | rest => (digits? rest).map fun (ds, rest) => (e :: ds, rest)
    else some ([], e :: rest)
  | [] => some ([], [])

def number? (cs : List Char) : Option (List Char × List Char) := do
  let (sign, cs) := match cs with
    | '-' :: rest => (['-'], rest)
    | cs => ([], cs)
  let (a, cs) ← whole? cs
  let (b, cs) ← fraction? cs
  let (c, cs) ← exponent? cs
  return (sign ++ a ++ b ++ c, cs)

def unit? (cs : List Char) : Option (Nat × List Char) :=
  if cs.length < 4 then none
  else do
    let values ← (cs.take 4).mapM Bytes.hexValue?
    return (values.foldl (fun n v => 16 * n + v) 0, cs.drop 4)

/-- The character of an escape by code, which may take two units. -/
def escapedUnit? (cs : List Char) : Option (Char × List Char) := do
  let (n, rest) ← unit? cs
  if 0xD800 ≤ n && n < 0xDC00 then
    match rest with
    | '\\' :: 'u' :: rest =>
      let (m, rest) ← unit? rest
      if 0xDC00 ≤ m && m < 0xE000 then
        return (Char.ofNat (0x10000 + 0x400 * (n - 0xD800) + (m - 0xDC00)), rest)
      else none
    | _ => none
  else if 0xDC00 ≤ n && n < 0xE000 then none
  else return (Char.ofNat n, rest)

def escape? (c : Char) : Option Char :=
  if c == '"' || c == '\\' || c == '/' then some c
  else if c == 'b' then some '\x08'
  else if c == 'f' then some '\x0c'
  else if c == 'n' then some '\n'
  else if c == 'r' then some '\r'
  else if c == 't' then some '\t'
  else none

/-- The rest of a text in quotes. -/
def text? (cs : List Char) : (fuel : Nat) → Option (List Char × List Char)
  | 0 => none
  | fuel + 1 =>
    match cs with
    | [] => none
    | '"' :: rest => some ([], rest)
    | '\\' :: 'u' :: rest => do
      let (c, rest) ← escapedUnit? rest
      let (s, rest) ← text? rest fuel
      return (c :: s, rest)
    | '\\' :: e :: rest => do
      let c ← escape? e
      let (s, rest) ← text? rest fuel
      return (c :: s, rest)
    | c :: rest =>
      if c.toNat < 0x20 then none
      else do
        let (s, rest) ← text? rest fuel
        return (c :: s, rest)

mutual

def value? (cs : List Char) : (fuel : Nat) → Option (JsonValue × List Char)
  | 0 => none
  | fuel + 1 =>
    match skipSpace cs with
    | 'n' :: 'u' :: 'l' :: 'l' :: rest => some (.null, rest)
    | 't' :: 'r' :: 'u' :: 'e' :: rest => some (.bool true, rest)
    | 'f' :: 'a' :: 'l' :: 's' :: 'e' :: rest => some (.bool false, rest)
    | '"' :: rest => (text? rest (rest.length + 1)).map fun (s, rest) => (.text s, rest)
    | '[' :: rest =>
      match skipSpace rest with
      | ']' :: rest => some (.list [], rest)
      | rest => (items? rest fuel).map fun (items, rest) => (.list items, rest)
    | '{' :: rest =>
      match skipSpace rest with
      | '}' :: rest => some (.object [], rest)
      | rest => (fields? rest fuel).map fun (fields, rest) => (.object fields, rest)
    | cs => (number? cs).map fun (n, rest) => (.number n, rest)

def items? (cs : List Char) : (fuel : Nat) → Option (List JsonValue × List Char)
  | 0 => none
  | fuel + 1 => do
    let (v, rest) ← value? cs fuel
    match skipSpace rest with
    | ',' :: rest =>
      let (vs, rest) ← items? rest fuel
      return (v :: vs, rest)
    | ']' :: rest => return ([v], rest)
    | _ => none

def fields? (cs : List Char) : (fuel : Nat) → Option (List (List Char × JsonValue) × List Char)
  | 0 => none
  | fuel + 1 => do
    let (name, rest) ← match skipSpace cs with
      | '"' :: rest => text? rest (rest.length + 1)
      | _ => none
    let rest ← match skipSpace rest with
      | ':' :: rest => some rest
      | _ => none
    let (v, rest) ← value? rest fuel
    match skipSpace rest with
    | ',' :: rest =>
      let (fs, rest) ← fields? rest fuel
      return ((name, v) :: fs, rest)
    | '}' :: rest => return ([(name, v)], rest)
    | _ => none

end

def parse? (b : Bytes) : Option JsonValue := do
  let cs := (← b.text?).toList
  let (v, rest) ← value? cs (cs.length + 1)
  if (skipSpace rest).isEmpty then return v else none

end JsonValue
end Rollout
