import Rollout.Bytes
import Rollout.Yaml.Mark

/-!
# Reading characters

The characters of a YAML text with the place of the first one left. A text is UTF-8
and holds no control characters but tabs and line breaks.
-/

namespace Rollout.Yaml

def isBreak (c : Char) : Bool :=
  c == '\n' || c == '\r' || c == '\u0085' || c == '\u2028' || c == '\u2029'

def isSpaceOrTab (c : Char) : Bool := c == ' ' || c == '\t'

/-- Blank, line break, or the end of the text. -/
def endsWord : List Char → Bool
  | [] => true
  | c :: _ => isSpaceOrTab c || isBreak c

def endsLine : List Char → Bool
  | [] => true
  | c :: _ => isBreak c

/-- The characters of names: of anchors, directives and tag handles. -/
def isNameChar (c : Char) : Bool :=
  ('0' ≤ c && c ≤ '9') || ('a' ≤ c && c ≤ 'z') || ('A' ≤ c && c ≤ 'Z') || c == '_' || c == '-'

/-- What a line break stands for in a value: a carriage return, a line feed, the two together and a
next-line character are one line feed, the two Unicode separators stay. -/
def breakText (c : Char) : List Char :=
  if c == '\u2028' || c == '\u2029' then [c] else ['\n']

structure Cursor where
  rest : List Char
  mark : Mark := {}
  deriving Repr

namespace Cursor

def column (c : Cursor) : Nat := c.mark.column

def skip (c : Cursor) : Cursor := ⟨c.rest.tail, c.mark.next⟩

def skipBreak (c : Cursor) : Cursor :=
  match c.rest with
  | '\r' :: '\n' :: rest => ⟨rest, c.mark.nextLine 2⟩
  | ch :: rest => if isBreak ch then ⟨rest, c.mark.nextLine 1⟩ else c
  | [] => c

def skipMany : Nat → Cursor → Cursor
  | 0, c => c
  | n + 1, c => skipMany n c.skip

/-- Past all characters that satisfy `p`; none of them is a line break. -/
def skipWhile (p : Char → Bool) (c : Cursor) : Cursor :=
  skipMany (c.rest.takeWhile p).length c

def skipBlanks (c : Cursor) : Cursor := c.skipWhile isSpaceOrTab

def skipComment (c : Cursor) : Cursor :=
  match c.rest with
  | '#' :: _ => c.skipWhile (!isBreak ·)
  | _ => c

/-- Does a document marker (`---` or `...`) stand here, at the start of a line? -/
def atDocumentMarker (c : Cursor) : Bool :=
  c.column == 0 && match c.rest with
    | '-' :: '-' :: '-' :: rest => endsWord rest
    | '.' :: '.' :: '.' :: rest => endsWord rest
    | _ => false

end Cursor

/-- The characters YAML allows in a text. -/
def isAllowed (n : Nat) : Bool :=
  n == 0x09 || n == 0x0A || n == 0x0D || (0x20 ≤ n && n ≤ 0x7E) || n == 0x85 ||
  (0xA0 ≤ n && n ≤ 0xD7FF) || (0xE000 ≤ n && n ≤ 0xFFFD) || (0x10000 ≤ n && n ≤ 0x10FFFF)

/-- The number of bytes that a leading byte announces. -/
def utf8Width (b : UInt8) : Nat :=
  if b < 0x80 then 1
  else if b &&& 0xE0 == 0xC0 then 2
  else if b &&& 0xF0 == 0xE0 then 3
  else if b &&& 0xF8 == 0xF0 then 4
  else 0

def continuation (b : UInt8) : Option Nat :=
  if b &&& 0xC0 == 0x80 then some (b &&& 0x3F).toNat else none

/-- The code point of a sequence of `width` bytes, or why it is none. -/
def utf8Value (width : Nat) (lead : UInt8) (tail : List UInt8) : Except String Nat :=
  let first := match width with
    | 1 => lead.toNat
    | 2 => (lead &&& 0x1F).toNat
    | 3 => (lead &&& 0x0F).toNat
    | _ => (lead &&& 0x07).toNat
  if tail.length + 1 < width then .error "incomplete UTF-8 octet sequence"
  else match tail.mapM continuation with
    | none => .error "invalid trailing UTF-8 octet"
    | some values =>
      let n := values.foldl (fun n v => 64 * n + v) first
      if (width == 2 && n < 0x80) || (width == 3 && n < 0x800) || (width == 4 && n < 0x10000) then
        .error "invalid length of a UTF-8 sequence"
      else if (0xD800 ≤ n && n ≤ 0xDFFF) || 0x10FFFF < n then .error "invalid Unicode character"
      else if !isAllowed n then .error "control characters are not allowed"
      else .ok n

/-- The characters of a text from byte `offset` on, and why there are no more if it ends in bytes that
are none. -/
def decode (offset : Nat) : Bytes → List Char × Option Problem
  | [] => ([], none)
  | lead :: rest =>
    let width := utf8Width lead
    if width == 0 then ([], some (.unreadable "invalid leading UTF-8 octet" offset))
    else match utf8Value width lead (rest.take (width - 1)) with
      | .error problem => ([], some (.unreadable problem offset))
      | .ok n =>
        let (chars, problem) := decode (offset + width) (rest.drop (width - 1))
        (Char.ofNat n :: chars, problem)
termination_by b => b.length
decreasing_by all_goals (simp only [List.length_drop, List.length_cons]; omega)

/-- How many bytes are looked at together: a bad byte hides the whole part it is in. -/
def readerPart : Nat := 16384

/-- The characters that can be read, and what ends them if it is not the end of the text. -/
def readable (b : Bytes) : List Char × Option Problem :=
  match decode 0 b with
  | (_, some (.unreadable problem offset)) =>
    ((decode 0 (b.take (offset / readerPart * readerPart))).1, some (.unreadable problem offset))
  | result => result

end Rollout.Yaml
