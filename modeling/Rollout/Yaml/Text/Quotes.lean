import Rollout.Yaml.Text.Plain

/-!
# Quoted values

In single quotes a quote is written twice and nothing else is special; in double quotes a backslash
starts an escape. White space is folded as in plain values, but an escaped line break leaves nothing.
-/

namespace Rollout.Yaml

/-- What an escape stands for: a character, or a code of so many hexadecimal digits. -/
inductive Escape where
  | char (c : Char)
  | code (digits : Nat)
  deriving DecidableEq, Repr

def escape? (c : Char) : Option Escape :=
  match c with
  | '0' => some (.char '\x00')
  | 'a' => some (.char '\x07')
  | 'b' => some (.char '\x08')
  | 't' => some (.char '\t')
  | '\t' => some (.char '\t')
  | 'n' => some (.char '\n')
  | 'v' => some (.char '\x0b')
  | 'f' => some (.char '\x0c')
  | 'r' => some (.char '\r')
  | 'e' => some (.char '\x1b')
  | ' ' => some (.char ' ')
  | '"' => some (.char '"')
  | '/' => some (.char '/')
  | '\\' => some (.char '\\')
  | 'N' => some (.char '\u0085')
  | '_' => some (.char '\u00a0')
  | 'L' => some (.char '\u2028')
  | 'P' => some (.char '\u2029')
  | 'x' => some (.code 2)
  | 'u' => some (.code 4)
  | 'U' => some (.code 8)
  | _ => none

/-- The value of exactly `n` hexadecimal digits. -/
def hexCode? (n : Nat) (cs : List Char) : Option Nat :=
  let digits := cs.take n
  if digits.length < n then none
  else (digits.mapM Bytes.hexValue?).map (·.foldl (fun v d => 16 * v + d) 0)

def quotedContext : String := "while parsing a quoted scalar"

def codeChar (n : Nat) : Option Char :=
  if (0xD800 ≤ n && n ≤ 0xDFFF) || 0x10FFFF < n then none else some (Char.ofNat n)

def skipColumns (m : Mark) (n : Nat) : Mark :=
  { m with index := m.index + n, column := m.column + n }

/-- Reads on in a quoted value, up to and with the closing quote. -/
def quotedFrom (single : Bool) (start : Mark) (r : Reading) (m : Mark) (cs : List Char) :
    Except Problem (Reading × Cursor) :=
  match cs with
  | [] =>
    .error (.malformed "found unexpected end of stream" m
      (some ("while scanning a quoted scalar", start)))
  | c :: rest =>
    if (⟨c :: rest, m⟩ : Cursor).atDocumentMarker then
      .error (.malformed "found unexpected document indicator" m
        (some ("while scanning a quoted scalar", start)))
    else if c == '\r' && rest.head? == some '\n' then
      quotedFrom single start (r.addBreak '\n') (m.nextLine 2) rest.tail
    else if isBreak c then quotedFrom single start (r.addBreak c) (m.nextLine 1) rest
    else if isSpaceOrTab c then quotedFrom single start (r.addBlank c) m.next rest
    else if single && c == '\'' then
      if rest.head? == some '\'' then
        quotedFrom single start (r.addChar '\'') (skipColumns m 2) rest.tail
      else .ok (r.addChars [], ⟨rest, m.next⟩)
    else if !single && c == '"' then .ok (r.addChars [], ⟨rest, m.next⟩)
    else if !single && c == '\\' then
      match rest with
      | [] =>
        .error (.malformed "found unknown escape character" m (some (quotedContext, start)))
      | e :: after =>
        if e == '\r' && after.head? == some '\n' then
          quotedFrom single start { r.addChars [] with gap := .breaks [] [] } (m.next.nextLine 2)
            after.tail
        else if isBreak e then
          quotedFrom single start { r.addChars [] with gap := .breaks [] [] } (m.next.nextLine 1)
            after
        else match escape? e with
          | none =>
            .error (.malformed "found unknown escape character" m (some (quotedContext, start)))
          | some (.char ch) => quotedFrom single start (r.addChar ch) (skipColumns m 2) after
          | some (.code n) =>
            match hexCode? n after with
            | none =>
              .error (.malformed "did not find expected hexdecimal number" (skipColumns m 2)
                (some (quotedContext, start)))
            | some value =>
              match codeChar value with
              | none =>
                .error (.malformed "found invalid Unicode character escape code" (skipColumns m 2)
                  (some (quotedContext, start)))
              | some ch =>
                quotedFrom single start (r.addChar ch) (skipColumns m (n + 2)) (after.drop n)
    else quotedFrom single start (r.addChar c) m.next rest
termination_by cs.length
decreasing_by all_goals (simp; try omega)

/-- Reads a quoted value from its opening quote on. -/
def readQuoted (single : Bool) (c : Cursor) : Except Problem (String × Cursor) := do
  let (r, rest) ← quotedFrom single c.mark {} c.mark.next c.rest.tail
  return (r.text, rest)

end Rollout.Yaml
