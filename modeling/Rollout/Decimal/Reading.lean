/-!
# Reading decimals

A decimal number with an optional sign, point and exponent, and the double nearest to it.
-/

namespace Rollout.Decimal

structure Scientific where
  negative : Bool
  digits : Nat
  /-- How many digits there are, leading zeros included. -/
  count : Nat
  exponent : Int
  deriving Repr

def isDigit (c : Char) : Bool := '0' ≤ c && c ≤ '9'

def digitsValue (cs : List Char) : Nat := cs.foldl (fun n c => 10 * n + (c.toNat - 48)) 0

def takeSign : List Char → Bool × List Char
  | '-' :: rest => (true, rest)
  | '+' :: rest => (false, rest)
  | rest => (false, rest)

/-- The exponent behind the digits, if one is there; nothing else may follow. -/
def exponentOf? : List Char → Option Int
  | [] => some 0
  | c :: rest =>
    if c == 'e' || c == 'E' then
      let (negative, digits) := takeSign rest
      if digits.isEmpty || !digits.all isDigit then none
      else
        let n : Int := digitsValue digits
        some (if negative then -n else n)
    else none

/-- Reads a decimal: digits, a point with or without digits on either side, an exponent. -/
def scientific? (s : List Char) : Option Scientific := do
  let (negative, s) := takeSign s
  let whole := s.takeWhile isDigit
  let rest := s.dropWhile isDigit
  let (fraction, rest) := match rest with
    | '.' :: rest => (rest.takeWhile isDigit, rest.dropWhile isDigit)
    | rest => ([], rest)
  if whole.isEmpty && fraction.isEmpty then none
  let exponent ← exponentOf? rest
  return ⟨negative, digitsValue (whole ++ fraction), whole.length + fraction.length,
    exponent - fraction.length⟩

namespace Scientific

/-- The nearest double; nothing if it is too large to be finite. -/
def toFloat? (s : Scientific) : Option Float :=
  let sign (x : Float) := if s.negative then -x else x
  if s.digits = 0 then some (sign 0.0)
  else if 400 < s.exponent then none
  else if s.exponent < -400 - (s.count : Int) then some (sign 0.0)
  else
    let x := Float.ofScientific s.digits (s.exponent < 0) s.exponent.natAbs
    if x.isFinite then some (sign x) else none

end Scientific

/-- The finite double a text denotes. -/
def float? (s : List Char) : Option Float := (scientific? s).bind Scientific.toFloat?

end Rollout.Decimal
