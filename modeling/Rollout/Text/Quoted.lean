import Rollout.Text.Category

/-!
# Quoted text

How a message shows a text that came from outside: in double quotes, with every character that
would end the quotes or that cannot be seen written as an escape.
-/

namespace Rollout.Text

/-- A number in base sixteen, lower case, without leading zeros. -/
def hexDigits (n : Nat) : String := String.ofList (Nat.toDigits 16 n)

def quotedChar (c : Char) : String :=
  if c == '"' then "\\\""
  else if c == '\\' then "\\\\"
  else if c == '\n' then "\\n"
  else if c == '\t' then "\\t"
  else if c == '\r' then "\\r"
  else if c == '\x00' then "\\0"
  else if 0x20 ≤ c.toNat && c.toNat < 0x7f then String.singleton c
  else if isPrintable c && !continuesGrapheme c then String.singleton c
  else "\\u\x7b" ++ hexDigits c.toNat ++ "\x7d"

def quoted (s : String) : String :=
  "\"" ++ String.join (s.toList.map quotedChar) ++ "\""

end Rollout.Text
