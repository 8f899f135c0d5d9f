import Rollout.Yaml.Text.Plain

/-!
# Block values

A value of whole lines after `|` (literal) or `>` (folded). All lines are indented alike; the header
may say by how much and what becomes of the line breaks at the end. Folding joins lines as elsewhere,
but lines that start with a blank stay apart.
-/

namespace Rollout.Yaml

/-- What becomes of the line breaks at the end: one is kept, none, or all. -/
inductive Chomp where
  | clip
  | strip
  | keep
  deriving DecidableEq, Repr

structure BlockHeader where
  chomp : Chomp := .clip
  /-- How much deeper than the parent, if the header says so. -/
  indent : Option Nat := none
  deriving Repr

def blockContext (start : Mark) : Option (String × Mark) := some ("while scanning a block scalar", start)

def chomp? : List Char → Option Chomp
  | '+' :: _ => some .keep
  | '-' :: _ => some .strip
  | _ => none

/-- The indentation a header gives; zero is none. -/
def headerIndent (start : Mark) (c : Cursor) : Except Problem (Option Nat × Cursor) :=
  match c.rest with
  | ch :: _ =>
    if ch == '0' then
      .error (.malformed "found an indentation indicator equal to 0" c.mark (blockContext start))
    else if '1' ≤ ch && ch ≤ '9' then .ok (some (ch.toNat - 48), c.skip)
    else .ok (none, c)
  | [] => .ok (none, c)

/-- The header, in either order. -/
def readHeader (start : Mark) (c : Cursor) : Except Problem (BlockHeader × Cursor) := do
  match chomp? c.rest with
  | some chomp =>
    let (indent, c) ← headerIndent start c.skip
    return (⟨chomp, indent⟩, c)
  | none =>
    let (indent, c) ← headerIndent start c
    match indent, chomp? c.rest with
    | some _, some chomp => return (⟨chomp, indent⟩, c.skip)
    | _, _ => return (⟨.clip, indent⟩, c)

/-- The greatest column that the blank lines at the start and the first line with content begin at;
nothing if a tab stands where an indentation has to be. -/
def deepest (column most : Nat) : List Char → Option Nat
  | [] => some (max column most)
  | '\r' :: '\n' :: rest => deepest 0 (max column most) rest
  | c :: rest =>
    if c == ' ' then deepest (column + 1) most rest
    else if c == '\t' then none
    else if isBreak c then deepest 0 (max column most) rest
    else some (max column most)

structure BlockText where
  /-- Lines read so far, last character first. -/
  read : List Char := []
  /-- The break behind the last line with content, and those of the empty lines after it. -/
  lastBreak : List Char := []
  emptyBreaks : List Char := []
  /-- Did the last line with content start with a blank? -/
  blankLead : Bool := false
  deriving Repr

namespace BlockText

/-- A line with content follows, starting with `c`. -/
def startLine (literal : Bool) (b : BlockText) (c : Char) : BlockText :=
  let blank := isSpaceOrTab c
  let joint :=
    if !literal && b.lastBreak == ['\n'] && !b.blankLead && !blank then
      (if b.emptyBreaks.isEmpty then [' '] else [])
    else b.lastBreak
  { read := (joint ++ b.emptyBreaks).reverse ++ b.read, blankLead := blank }

def addChar (b : BlockText) (c : Char) : BlockText := { b with read := c :: b.read }

def endLine (b : BlockText) (c : Char) : BlockText := { b with lastBreak := breakText c }

def addEmpty (b : BlockText) (c : Char) : BlockText :=
  { b with emptyBreaks := b.emptyBreaks ++ breakText c }

def result (chomp : Chomp) (b : BlockText) : String :=
  let tail := match chomp with
    | .strip => []
    | .clip => b.lastBreak
    | .keep => b.lastBreak ++ b.emptyBreaks
  String.ofList (b.read.reverse ++ tail)

end BlockText

/-- Reads lines indented by `indent`. `inside` says whether a line with content is being read. -/
def blockFrom (literal : Bool) (indent : Nat) (start : Mark) (inside : Bool) (b : BlockText)
    (m : Mark) : List Char → Except Problem (BlockText × Cursor)
  | [] => .ok (b, ⟨[], m⟩)
  | '\r' :: '\n' :: rest =>
    blockFrom literal indent start false (if inside then b.endLine '\n' else b.addEmpty '\n')
      (m.nextLine 2) rest
  | c :: rest =>
    if isBreak c then
      blockFrom literal indent start false (if inside then b.endLine c else b.addEmpty c)
        (m.nextLine 1) rest
    else if inside then blockFrom literal indent start true (b.addChar c) m.next rest
    else if m.column < indent then
      if c == ' ' then blockFrom literal indent start false b m.next rest
      else if c == '\t' then
        .error (.malformed "found a tab character where an indentation space is expected" m
          (blockContext start))
      else .ok (b, ⟨c :: rest, m⟩)
    else if m.column == indent then
      blockFrom literal indent start true ((b.startLine literal c).addChar c) m.next rest
    else .ok (b, ⟨c :: rest, m⟩)

/-- The indentation of the lines: as the header says, else that of the deepest of the first lines,
but deeper than the parent. -/
def blockIndent (parent : Option Nat) (header : BlockHeader) (start : Mark) (c : Cursor) :
    Except Problem Nat :=
  match header.indent with
  | some more => .ok (parent.getD 0 + more)
  | none =>
    let least := match parent with
      | some column => column + 1
      | none => 1
    match deepest 0 0 c.rest with
    | some column => .ok (max column least)
    | none =>
      .error (.malformed "found a tab character where an indentation space is expected" c.mark
        (blockContext start))

/-- Reads a block value from its indicator on, inside a block at column `parent`. -/
def readBlock (literal : Bool) (parent : Option Nat) (c : Cursor) :
    Except Problem (String × Cursor) := do
  let start := c.mark
  let (header, c) ← readHeader start c.skip
  let c := c.skipBlanks.skipComment
  if !endsLine c.rest then
    throw (.malformed "did not find expected comment or line break" c.mark (blockContext start))
  let c := c.skipBreak
  let indent ← blockIndent parent header start c
  let (b, c) ← blockFrom literal indent start false {} c.mark c.rest
  return (b.result header.chomp, c)

end Rollout.Yaml
