import Rollout.Yaml.Text.Gap

/-!
# Plain values

A value without quotes ends at a `: `, at a comment, at a document marker, at a line that is indented
less than its block, and inside brackets at a bracket or comma. White space at its end is not part of
it.
-/

namespace Rollout.Yaml

/-- Characters with a meaning of their own inside brackets. -/
def isFlowIndicator (c : Char) : Bool :=
  c == ',' || c == '[' || c == ']' || c == '{' || c == '}'

/-- What has been read of a value, last character first, and the white space after it. -/
structure Reading where
  read : List Char := []
  gap : Gap := .empty
  deriving Repr

namespace Reading

def text (r : Reading) : String := String.ofList r.read.reverse

/-- The next character of a word; the white space before it is settled. -/
def addChar (r : Reading) (c : Char) : Reading :=
  ⟨c :: (r.gap.fold.reverse ++ r.read), .empty⟩

def addChars (r : Reading) (cs : List Char) : Reading :=
  ⟨cs.reverse ++ (r.gap.fold.reverse ++ r.read), .empty⟩

def addBlank (r : Reading) (c : Char) : Reading := { r with gap := r.gap.addBlank c }

def addBreak (r : Reading) (c : Char) : Reading := { r with gap := r.gap.addBreak c }

end Reading

/-- Does a plain value end at the white space in front of these characters? -/
def endsAtGap (flow : Bool) (indent : Nat) (gap : Gap) (c : Cursor) : Bool :=
  (gap.hasBreak && !flow && c.column < indent) || c.atDocumentMarker ||
  (!gap.isEmpty && c.rest.head? == some '#')

/-- Does a plain value end in front of these characters, wherever they stand? -/
def endsPlain (flow : Bool) : List Char → Bool
  | ':' :: rest => endsWord rest
  | c :: _ => flow && isFlowIndicator c
  | [] => true

/-- A colon inside brackets that neither separates nor belongs to a word. -/
def badColon (flow : Bool) : List Char → Bool
  | ':' :: ch :: _ => flow && (isFlowIndicator ch || ch == '?')
  | _ => false

/-- Reads on in a plain value that belongs to a block of this indentation. -/
def plainFrom (flow : Bool) (indent : Nat) (start : Mark) (r : Reading) (m : Mark) :
    List Char → Except Problem (Reading × Cursor)
  | [] => .ok (r, ⟨[], m⟩)
  | '\r' :: '\n' :: rest => plainFrom flow indent start (r.addBreak '\n') (m.nextLine 2) rest
  | c :: rest =>
    if isBreak c then plainFrom flow indent start (r.addBreak c) (m.nextLine 1) rest
    else if isSpaceOrTab c then
      if c == '\t' && r.gap.hasBreak && m.column < indent then
        .error (.malformed "found a tab character that violates indentation" m
          (some ("while scanning a plain scalar", start)))
      else plainFrom flow indent start (r.addBlank c) m.next rest
    else if endsAtGap flow indent r.gap ⟨c :: rest, m⟩ then .ok (r, ⟨c :: rest, m⟩)
    else if badColon flow (c :: rest) then
      .error (.malformed "found unexpected ':'" m (some ("while scanning a plain scalar", start)))
    else if endsPlain flow (c :: rest) then .ok (r, ⟨c :: rest, m⟩)
    else plainFrom flow indent start (r.addChar c) m.next rest

/-- Reads a plain value. The flag says whether a line break was read behind it. -/
def readPlain (flow : Bool) (indent : Nat) (c : Cursor) :
    Except Problem (String × Bool × Cursor) := do
  let (r, c) ← plainFrom flow indent c.mark {} c.mark c.rest
  return (r.text, r.gap.hasBreak, c)

end Rollout.Yaml
