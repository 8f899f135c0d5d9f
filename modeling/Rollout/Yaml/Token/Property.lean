import Rollout.Yaml.Token
import Rollout.Yaml.Cursor

/-!
# Anchors, tags and directives

The tokens that start with `&`, `*`, `!` or, in the first column, `%`.
-/

namespace Rollout.Yaml

def takeName (c : Cursor) : List Char × Cursor := (c.rest.takeWhile isNameChar, c.skipWhile isNameChar)

/-- What may follow an anchor or alias. -/
def endsAnchor : List Char → Bool
  | [] => true
  | c :: rest => endsWord (c :: rest) || "?:,]\x7d%@\x60".toList.contains c

/-- Reads an anchor or alias behind its indicator. -/
def readAnchor (context : String) (c : Cursor) : Except Problem (String × Cursor) :=
  let start := c.mark
  let (name, c) := takeName c.skip
  if name.isEmpty || !endsAnchor c.rest then
    .error (.malformed "did not find expected alphabetic or numeric character" c.mark
      (some (context, start)))
  else .ok (String.ofList name, c)

/-- The characters of a tag; more of them between angle brackets. -/
def isUriChar (verbatim : Bool) (c : Char) : Bool :=
  isNameChar c || ";/?:@&=+$.%!~*'()".toList.contains c || (verbatim && ",[]".toList.contains c)

def tagContext (directive : Bool) : String :=
  if directive then "while parsing a %TAG directive" else "while parsing a tag"

/-- The bytes of a run of escapes `%XX` that make up one character. -/
def uriEscape (directive : Bool) (start : Mark) (c : Cursor) : Except Problem (Char × Cursor) := do
  let context := some (tagContext directive, start)
  let octet (c : Cursor) : Except Problem (UInt8 × Cursor) :=
    match c.rest with
    | '%' :: a :: b :: _ =>
      match Bytes.hexValue? a, Bytes.hexValue? b with
      | some hi, some lo => .ok (UInt8.ofNat (16 * hi + lo), c.skip.skip.skip)
      | _, _ => .error (.malformed "did not find URI escaped octet" c.mark context)
    | _ => .error (.malformed "did not find URI escaped octet" c.mark context)
  let (lead, c) ← octet c
  let width := utf8Width lead
  if width == 0 then throw (.malformed "found an incorrect leading UTF-8 octet" c.mark context)
  let more : Nat → Except Problem (List UInt8 × Cursor) := fun n =>
    n.rec (.ok ([], c)) fun _ previous => do
      let (octets, c) ← previous
      let (b, c) ← octet c
      if (continuation b).isNone then
        throw (.malformed "found an incorrect trailing UTF-8 octet" c.mark context)
      return (octets ++ [b], c)
  let (tail, c) ← more (width - 1)
  match Bytes.text? (lead :: tail) with
  | some s => return (s.toList.headD ' ', c)
  | none => throw (.malformed "found an incorrect trailing UTF-8 octet" c.mark context)

/-- Reads the characters of a tag; each step takes at least one, so `fuel` is how many are left. -/
def uriFrom (verbatim directive : Bool) (start : Mark) (read : List Char) (c : Cursor) :
    (fuel : Nat) → Except Problem (List Char × Cursor)
  | 0 => .ok (read.reverse, c)
  | fuel + 1 =>
    match c.rest with
    | ch :: _ =>
      if !isUriChar verbatim ch then .ok (read.reverse, c)
      else if ch == '%' then do
        let (ch, c) ← uriEscape directive start c
        uriFrom verbatim directive start (ch :: read) c fuel
      else uriFrom verbatim directive start (ch :: read) c.skip fuel
    | [] => .ok (read.reverse, c)

/-- Reads a tag's text after `head`, which counts as part of it. -/
def readUri (verbatim directive : Bool) (head : List Char) (start : Mark) (c : Cursor) :
    Except Problem (String × Cursor) := do
  let (chars, c) ← uriFrom verbatim directive start [] c c.rest.length
  if head.isEmpty && chars.isEmpty then
    throw (.malformed "did not find expected tag URI" c.mark (some (tagContext directive, start)))
  return (String.ofList (head.tail ++ chars), c)

/-- Reads `!`, `!name` or `!name!`. -/
def readHandle (directive : Bool) (start : Mark) (c : Cursor) :
    Except Problem (List Char × Cursor) := do
  let context := some (tagContext directive, start)
  match c.rest with
  | '!' :: _ =>
    let (name, c) := takeName c.skip
    match c.rest with
    | '!' :: _ => return ('!' :: name ++ ['!'], c.skip)
    | _ =>
      if directive && !name.isEmpty then
        throw (.malformed "did not find expected '!'" c.mark context)
      return ('!' :: name, c)
  | _ => throw (.malformed "did not find expected '!'" c.mark context)

def endsTag (flow : Bool) : List Char → Bool
  | ',' :: _ => flow
  | rest => endsWord rest

def tagParts (start : Mark) (c : Cursor) : Except Problem (String × String × Cursor) := do
  match c.rest with
  | '!' :: '<' :: _ =>
    let (suffix, c) ← readUri true false [] start c.skip.skip
    match c.rest with
    | '>' :: _ => return ("", suffix, c.skip)
    | _ =>
      throw (.malformed "did not find the expected '>'" c.mark (some ("while scanning a tag", start)))
  | _ =>
    let (handle, c) ← readHandle false start c
    if 1 < handle.length && handle.getLast? == some '!' then
      let (suffix, c) ← readUri false false [] start c
      return (String.ofList handle, suffix, c)
    else
      let (suffix, c) ← readUri false false handle start c
      if suffix.isEmpty then return ("", "!", c) else return ("!", suffix, c)

def readTag (flow : Bool) (c : Cursor) : Except Problem (Token.Kind × Cursor) := do
  let start := c.mark
  let (handle, suffix, c) ← tagParts start c
  if !endsTag flow c.rest then
    throw (.malformed "did not find expected whitespace or line break" c.mark
      (some ("while scanning a tag", start)))
  return (.tag handle suffix, c)

/-- A number of at most nine digits. -/
def readVersionNumber (start : Mark) (c : Cursor) : Except Problem (Nat × Cursor) :=
  let isDigit (c : Char) := '0' ≤ c && c ≤ '9'
  let digits := c.rest.takeWhile isDigit
  let context := some ("while scanning a %YAML directive", start)
  if 9 < digits.length then
    .error (.malformed "found extremely long version number" c.mark context)
  else if digits.isEmpty then
    .error (.malformed "did not find expected version number" c.mark context)
  else .ok (digits.foldl (fun n d => 10 * n + (d.toNat - 48)) 0, c.skipWhile isDigit)

def readVersion (start : Mark) (c : Cursor) : Except Problem (Token.Kind × Cursor) := do
  let (major, c) ← readVersionNumber start c.skipBlanks
  match c.rest with
  | '.' :: _ =>
    let (minor, c) ← readVersionNumber start c.skip
    return (.version major minor, c)
  | _ =>
    throw (.malformed "did not find expected digit or '.' character" c.mark
      (some ("while scanning a %YAML directive", start)))

def startsWithBlank : List Char → Bool
  | c :: _ => isSpaceOrTab c
  | [] => false

def readTagDirective (start : Mark) (c : Cursor) : Except Problem (Token.Kind × Cursor) := do
  let context := some ("while scanning a %TAG directive", start)
  let (handle, c) ← readHandle true start c.skipBlanks
  if !startsWithBlank c.rest then
    throw (.malformed "did not find expected whitespace" c.mark context)
  let (leading, c) ← readUri true true [] start c.skipBlanks
  if !endsWord c.rest then
    throw (.malformed "did not find expected whitespace or line break" c.mark context)
  return (.tagDirective (String.ofList handle) leading, c)

def readDirective (c : Cursor) : Except Problem (Token.Kind × Cursor) := do
  let start := c.mark
  let context := some ("while scanning a directive", start)
  let (name, c) := takeName c.skip
  if name.isEmpty then
    throw (.malformed "could not find expected directive name" c.mark context)
  if !endsWord c.rest then
    throw (.malformed "found unexpected non-alphabetical character" c.mark context)
  let (kind, c) ←
    if name == "YAML".toList then readVersion start c
    else if name == "TAG".toList then readTagDirective start c
    else throw (.malformed "found unknown directive name" c.mark context)
  let c := c.skipBlanks.skipComment
  if !endsLine c.rest then
    throw (.malformed "did not find expected comment or line break" c.mark context)
  return (kind, c.skipBreak)

end Rollout.Yaml
