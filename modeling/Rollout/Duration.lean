/-!
# Durations

Spans of time in nanoseconds, and their written form: the largest unit of which there is a whole
one, with the exact decimal fraction (`1.5s`, `250ms`, `1.5µs`, `0ns`).
-/

namespace Rollout

/-- A span of time in nanoseconds. Sums have no bound here. In the program a sum of 2⁶⁴ seconds or more is a
panic, which none of its budgets comes near. -/
abbrev Duration := Nat

/-- A point in time: nanoseconds since the start of the clock. -/
abbrev Instant := Nat

namespace Duration

def millis (n : Nat) : Duration := n * 1000000
def seconds (n : Nat) : Duration := n * 1000000000

/-- The `places` digits of a fraction, without the zeros at the end. -/
def fraction (n places : Nat) : String :=
  let digits := (toString n).toList
  let padded := List.replicate (places - digits.length) '0' ++ digits
  let kept := (padded.reverse.dropWhile (· == '0')).reverse
  if kept.isEmpty then "" else "." ++ String.ofList kept

def inUnit (d : Duration) (places : Nat) (unit : String) : String :=
  toString (d / Nat.pow 10 places) ++ fraction (d % Nat.pow 10 places) places ++ unit

def text (d : Duration) : String :=
  if 1000000000 ≤ d then inUnit d 9 "s"
  else if 1000000 ≤ d then inUnit d 6 "ms"
  else if 1000 ≤ d then inUnit d 3 "µs"
  else inUnit d 0 "ns"

end Duration
end Rollout
