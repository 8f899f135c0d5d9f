/-!
# Shortest decimals

The decimal with the fewest digits that reads back as a given double, of several the nearest. A double
is `m * 2 ^ q`; the reals that round to it form an interval, closed when `m` is even. For each number of
digits the two neighbours of the value on that decimal grid are tried; if a grid has a point in the
interval, one of these two lies in it.
-/

namespace Rollout.Decimal

/-- A finite double without its sign: `m * 2 ^ q`. -/
structure Binary where
  m : Nat
  q : Int
  deriving Repr

/-- Fields of the double with these bits. -/
def binaryOfBits (bits : Nat) : Binary :=
  let fraction : Nat := bits % 4503599627370496
  let exponent : Nat := bits / 4503599627370496 % 2048
  if exponent = 0 then ⟨fraction, -1074⟩ else ⟨4503599627370496 + fraction, (exponent : Int) - 1075⟩

/-- `num / den` as natural numbers times a power of two and one of ten. -/
def scale (n : Nat) (two ten : Int) : Nat × Nat :=
  let up (b : Nat) (e : Int) := if 0 ≤ e then Nat.pow b e.toNat else 1
  let down (b : Nat) (e : Int) := if e < 0 then Nat.pow b (-e).toNat else 1
  (n * up 2 two * up 10 ten, down 2 two * down 10 ten)

/-- Does `d * 10 ^ e` round to the double? The interval ends half a unit away, on the lower side a
quarter if the value is the least of its binade. -/
def roundsTo (b : Binary) (d : Nat) (e : Int) : Bool :=
  let least := b.m == 4503599627370496 && b.q != -1074
  -- all in quarters of a unit: value 4m, ends 4m + 2 and 4m - 2 or 4m - 1
  let (num, den) := scale (4 * d) (-b.q) e
  let high := (4 * b.m + 2) * den
  let low := (4 * b.m - (if least then 1 else 2)) * den
  if b.m % 2 == 0 then low ≤ num && num ≤ high else low < num && num < high

/-- The neighbours of the value on the grid of multiples of `10 ^ e`, and the distances to them over a
common denominator. -/
def neighbours (b : Binary) (e : Int) : Nat × Nat × Nat :=
  let (num, den) := scale b.m b.q (-e)
  let lower := num / den
  (lower, num - lower * den, (lower + 1) * den - num)

/-- The nearest point of the grid that rounds to the double; of two equally near the even one. -/
def onGrid (b : Binary) (e : Int) : Option Nat :=
  let (lower, below, above) := neighbours b e
  let lowerOk := roundsTo b lower e && lower != 0
  let upperOk := roundsTo b (lower + 1) e
  match lowerOk, upperOk with
  | true, true =>
    if below < above then some lower
    else if above < below then some (lower + 1)
    else some (if lower % 2 == 0 then lower else lower + 1)
  | true, false => some lower
  | false, true => some (lower + 1)
  | false, false => none

/-- The first of the exponents `top`, `top - 1`, … whose grid has a point; `fuel` grids are tried. -/
def searchFrom (b : Binary) (top : Int) : (fuel : Nat) → Nat × Int
  | 0 => (b.m, 0)
  | fuel + 1 =>
    match onGrid b top with
    | some d => (d, top)
    | none => searchFrom b (top - 1) fuel

/-- The position of the first digit: the greatest `e` with `10 ^ e ≤ value`. -/
def magnitude (b : Binary) : Int :=
  let estimate : Int := (((Nat.log2 b.m : Int) + b.q) * 30103) / 100000
  let atLeast (e : Int) :=
    let (num, den) := scale b.m b.q (-e)
    den ≤ num
  if atLeast (estimate + 1) then estimate + 1
  else if atLeast estimate then estimate
  else estimate - 1

def stripZeros (d : Nat) (e : Int) : (fuel : Nat) → Nat × Int
  | 0 => (d, e)
  | fuel + 1 => if d != 0 && d % 10 == 0 then stripZeros (d / 10) (e + 1) fuel else (d, e)

/-- The shortest digits of a positive double and the exponent of the last digit. -/
def shortest (b : Binary) : Nat × Int :=
  let (d, e) := searchFrom b (magnitude b + 1) 20
  stripZeros d e 20

def digitText (d : Nat) : String := toString d

/-- Positional from `10 ^ -5` to below `10 ^ 16`, always with a point; else with an exponent. -/
def positiveText (b : Binary) : String :=
  let (d, e) := shortest b
  let digits := (digitText d).toList
  let n : Int := digits.length
  let point := n + e
  if 0 ≤ e && point ≤ 16 then
    String.ofList (digits ++ List.replicate e.toNat '0') ++ ".0"
  else if 0 < point && point ≤ 16 then
    String.ofList (digits.take point.toNat ++ '.' :: digits.drop point.toNat)
  else if -5 < point && point ≤ 0 then
    "0." ++ String.ofList (List.replicate (-point).toNat '0' ++ digits)
  else
    let exponent := "e" ++ toString (point - 1)
    match digits with
    | [c] => String.singleton c ++ exponent
    | c :: rest => String.ofList (c :: '.' :: rest) ++ exponent
    | [] => "0" ++ exponent

def floatText (x : Float) : String :=
  let bits := x.toBits.toNat
  let sign := if 9223372036854775808 ≤ bits then "-" else ""
  let b := binaryOfBits bits
  sign ++ (if b.m == 0 then "0.0" else positiveText b)

end Rollout.Decimal
