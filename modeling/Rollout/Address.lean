/-!
# Network addresses

IPv4 and IPv6 addresses in their usual notations. Reading takes exactly the notations of RFC 4291
(no leading zeros in a dotted part, at most four digits in a group, `::` for at least one group);
writing gives the one canonical form: lower case, the first longest run of two or more zero groups
as `::`, and a dotted tail for addresses that stand for an IPv4 address.
-/

namespace Rollout

inductive Address where
  | v4 (a b c d : UInt8)
  /-- The eight groups, first to last. -/
  | v6 (groups : Vector UInt16 8)
  deriving DecidableEq, Repr

namespace Address

def isDigit (c : Char) : Bool := '0' ≤ c && c ≤ '9'

def digitValue (c : Char) : Nat :=
  if isDigit c then c.toNat - 48
  else if 'a' ≤ c && c ≤ 'f' then c.toNat - 87
  else c.toNat - 55

def isHexDigit (c : Char) : Bool :=
  isDigit c || ('a' ≤ c && c ≤ 'f') || ('A' ≤ c && c ≤ 'F')

/-- One part of a dotted address: up to three digits, no leading zero, below 256. -/
def readOctet (s : List Char) : Option (UInt8 × List Char) :=
  let digits := s.takeWhile isDigit
  let value := digits.foldl (fun n c => 10 * n + digitValue c) 0
  if digits.isEmpty || 3 < digits.length || 255 < value then none
  else if 1 < digits.length && digits.head? == some '0' then none
  else some (UInt8.ofNat value, s.dropWhile isDigit)

def readDot : List Char → Option (List Char)
  | '.' :: rest => some rest
  | _ => none

def readDotted (s : List Char) : Option ((UInt8 × UInt8 × UInt8 × UInt8) × List Char) := do
  let (a, s) ← readOctet s
  let (b, s) ← readOctet (← readDot s)
  let (c, s) ← readOctet (← readDot s)
  let (d, s) ← readOctet (← readDot s)
  return ((a, b, c, d), s)

/-- One group: one to four hexadecimal digits. -/
def readGroup (s : List Char) : Option (UInt16 × List Char) :=
  let digits := s.takeWhile isHexDigit
  if digits.isEmpty || 4 < digits.length then none
  else some (UInt16.ofNat (digits.foldl (fun n c => 16 * n + digitValue c) 0),
    s.dropWhile isHexDigit)

def pair (hi lo : UInt8) : UInt16 := UInt16.ofNat (256 * hi.toNat + lo.toNat)

/-- A colon, but not in front of the first group. -/
def readColon (first : Bool) (s : List Char) : Option (List Char) :=
  if first then some s
  else match s with
    | ':' :: rest => some rest
    | _ => none

/-- What a dotted tail contributes: two groups. -/
def readTail (first : Bool) (s : List Char) : Option (List UInt16 × List Char) := do
  let ((a, b, c, d), rest) ← readDotted (← readColon first s)
  return ([pair a b, pair c d], rest)

/-- At most `limit` groups with colons between them; a dotted tail counts for two and ends them. The
flag says whether there was one. -/
def readGroups (limit : Nat) (first : Bool) (s : List Char) : List UInt16 × Bool × List Char :=
  match limit with
  | 0 => ([], false, s)
  | limit + 1 =>
    match if 0 < limit then readTail first s else none with
    | some (tail, rest) => (tail, true, rest)
    | none =>
      match (readColon first s).bind readGroup with
      | none => ([], false, s)
      | some (g, rest) =>
        let (more, dotted, rest) := readGroups limit false rest
        (g :: more, dotted, rest)

/-- Eight groups from any list: zeros are put between `front` and `back`. -/
def ofParts (front back : List UInt16) : Address :=
  let middle := List.replicate (8 - front.length - back.length) (0 : UInt16)
  let all := front ++ middle ++ back
  .v6 (Vector.ofFn fun i => (all[i.val]?).getD 0)

def readV6 (s : List Char) : Option (Address × List Char) :=
  let (front, dotted, rest) := readGroups 8 true s
  if front.length == 8 then some (ofParts front [], rest)
  else if dotted then none
  else match rest with
    | ':' :: ':' :: rest =>
      let (back, _, rest) := readGroups (7 - front.length) true rest
      some (ofParts front back, rest)
    | _ => none

def parse? (s : String) : Option Address :=
  match readDotted s.toList with
  | some ((a, b, c, d), rest) => if rest.isEmpty then some (.v4 a b c d) else none
  | none =>
    match readV6 s.toList with
    | some (address, []) => some address
    | _ => none

def dotted (a b c d : UInt8) : String := s!"{a}.{b}.{c}.{d}"

/-- Start and length of the first longest run of zeros. -/
def longestZeros (gs : List UInt16) : Nat × Nat :=
  let rec go (i start run : Nat) (best : Nat × Nat) : List UInt16 → Nat × Nat
    | [] => best
    | g :: rest =>
      if g == 0 then
        let start := if run == 0 then i else start
        let best := if best.2 < run + 1 then (start, run + 1) else best
        go (i + 1) start (run + 1) best rest
      else go (i + 1) 0 0 best rest
  go 0 0 0 (0, 0) gs

def groupText (g : UInt16) : String := String.ofList (Nat.toDigits 16 g.toNat)

def joinGroups (gs : List UInt16) : String := ":".intercalate (gs.map groupText)

def v6Text (gs : List UInt16) : String :=
  let byte (n : UInt16) := UInt8.ofNat n.toNat
  match gs with
  | [0, 0, 0, 0, 0, 0xffff, hi, lo] =>
    "::ffff:" ++ dotted (byte (hi / 256)) (byte (hi % 256)) (byte (lo / 256)) (byte (lo % 256))
  | _ =>
    let (start, run) := longestZeros gs
    if 1 < run then joinGroups (gs.take start) ++ "::" ++ joinGroups (gs.drop (start + run))
    else joinGroups gs

def text : Address → String
  | .v4 a b c d => dotted a b c d
  | .v6 groups => v6Text groups.toList

end Address
end Rollout
