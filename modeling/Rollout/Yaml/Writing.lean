import Rollout.Decimal.Shortest
import Rollout.Yaml.Core
import Rollout.Yaml.Cursor

/-!
# Writing YAML

Documents in block style: two blanks an indentation, lists at the column of their key, every text in the
plainest form that reads back as that text. A text is written plain if it may be, in single quotes if it
would read as something else, in double quotes if it has characters that have to be escaped, and as a
block of lines if it has line feeds.
-/

namespace Rollout.Yaml

inductive Output where
  | null
  | bool (b : Bool)
  | int (n : Int)
  | real (x : Float)
  | text (s : String)
  | list (items : List Output)
  | map (fields : List (String × Output))

/-- May the character be written as it is? -/
def isWritable (c : Char) : Bool :=
  let n := c.toNat
  n == 0x0A || (0x20 ≤ n && n ≤ 0x7E) || (0xA0 ≤ n && n ≤ 0xD7FF) ||
  (0xE000 ≤ n && n ≤ 0xFFFD && n != 0xFEFF) || 0x10000 ≤ n

/-- Does some character that satisfies `p` stand right before one that satisfies `q`? -/
def anyAdjacent (p q : Char → Bool) : List Char → Bool
  | a :: b :: rest => (p a && q b) || anyAdjacent p q (b :: rest)
  | _ => false

/-- Characters that mean something at the start of a value. -/
def leadsIndicator (cs : List Char) : Bool :=
  match cs with
  | '-' :: '-' :: '-' :: _ => true
  | '.' :: '.' :: '.' :: _ => true
  | c :: rest =>
    "#,[]\x7b\x7d&*!|>'\"%@\x60".toList.contains c ||
    ((c == '?' || c == ':' || c == '-') && (endsWord rest || rest.head? == some '\x00'))
  | [] => false

/-- Characters that mean something inside a value: a colon before, a number sign after white space. -/
def hasIndicator : List Char → Bool
  | a :: b :: rest =>
    (b == ':' && (endsWord rest || rest.head? == some '\x00')) ||
    (b == '#' && (endsWord [a] || a == '\x00')) || hasIndicator (b :: rest)
  | _ => false

namespace Written

def special (cs : List Char) : Bool := cs.any (!isWritable ·)

def multiline (cs : List Char) : Bool := cs.any isBreak

def isSpace (c : Char) : Bool := c == ' '

def edges (p : Char → Bool) (cs : List Char) : Bool :=
  cs.head?.any p || cs.getLast?.any p

/-- May the text be written without quotes? -/
def plainAllowed (cs : List Char) : Bool :=
  !special cs && !multiline cs && !edges isSpace cs && !leadsIndicator cs && !hasIndicator cs

def singleAllowed (cs : List Char) : Bool :=
  !special cs && !anyAdjacent isBreak isSpace cs && !anyAdjacent isSpace isBreak cs

def blockAllowed (cs : List Char) : Bool :=
  !special cs && !anyAdjacent isSpace isBreak cs && !cs.getLast?.any isSpace

end Written

inductive Form where
  | plain
  | single
  | double
  | block
  deriving DecidableEq, Repr

/-- Would the text read as anything but itself without quotes? -/
def isAmbiguous (s : String) : Bool :=
  match plainOf s with
  | .text => Plain.isZeroPadded s.toList
  | _ => true

/-- The form of a text; a key has to stay on one line. -/
def formOf (key : Bool) (s : String) : Form :=
  let cs := s.toList
  if cs.contains '\n' then
    if Written.blockAllowed cs && !key then .block else .double
  else if !isAmbiguous s && Written.plainAllowed cs then .plain
  else if Written.singleAllowed cs then .single
  else .double

def upperHex (n width : Nat) : List Char :=
  let digits := (Nat.toDigits 16 n).map Char.toUpper
  List.replicate (width - digits.length) '0' ++ digits

def escaped (c : Char) : List Char :=
  let n := c.toNat
  if c == '"' || c == '\\' then ['\\', c]
  else if isWritable c && !isBreak c then [c]
  else if n == 0x00 then ['\\', '0']
  else if n == 0x07 then ['\\', 'a']
  else if n == 0x08 then ['\\', 'b']
  else if n == 0x09 then ['\\', 't']
  else if n == 0x0A then ['\\', 'n']
  else if n == 0x0B then ['\\', 'v']
  else if n == 0x0C then ['\\', 'f']
  else if n == 0x0D then ['\\', 'r']
  else if n == 0x1B then ['\\', 'e']
  else if n == 0x85 then ['\\', 'N']
  else if n == 0x2028 then ['\\', 'L']
  else if n == 0x2029 then ['\\', 'P']
  else if n ≤ 0xFF then '\\' :: 'x' :: upperHex n 2
  else if n ≤ 0xFFFF then '\\' :: 'u' :: upperHex n 4
  else '\\' :: 'U' :: upperHex n 8

def blanks (n : Nat) : List Char := List.replicate n ' '

def doubleQuoted (cs : List Char) : List Char := '"' :: cs.flatMap escaped ++ ['"']

/-- In single quotes; a line after a line break is indented, also the closing quote. -/
def singleQuotedFrom (indent : Nat) (afterBreak : Bool) : List Char → List Char
  | [] => (if afterBreak then blanks indent else []) ++ ['\'']
  | c :: rest =>
    if isBreak c then c :: singleQuotedFrom indent true rest
    else
      (if afterBreak then blanks indent else []) ++
        (if c == '\'' then ['\'', '\''] else [c]) ++ singleQuotedFrom indent false rest

def singleQuoted (indent : Nat) (cs : List Char) : List Char :=
  '\'' :: singleQuotedFrom indent false cs

/-- Does the block keep line breaks at its end? -/
def keepsBreaks (cs : List Char) : Bool :=
  match cs.reverse with
  | [c] => isBreak c
  | c :: d :: _ => isBreak c && isBreak d
  | [] => false

/-- The header of a block: an indentation if the first line does not show it, and what becomes of the
line breaks at the end. -/
def blockHeader (cs : List Char) : List Char :=
  let hint := if cs.head?.any (fun c => c == ' ' || isBreak c) then ['2'] else []
  let chomp :=
    if !cs.getLast?.any isBreak then ['-']
    else if keepsBreaks cs then ['+'] else []
  '|' :: hint ++ chomp

def blockLines (indent : Nat) (afterBreak : Bool) : List Char → List Char
  | [] => []
  | c :: rest =>
    if isBreak c then c :: blockLines indent true rest
    else
      (if afterBreak then blanks indent else []) ++ c :: blockLines indent false rest

/-- A text and whether it leaves the line it is on. Lines after the first are indented by `indent`. -/
structure Piece where
  chars : List Char
  /-- Does the piece end with its line? -/
  endsLine : Bool := false
  /-- Would line breaks behind it be taken for its own? -/
  openEnded : Bool := false

def textPiece (key : Bool) (indent : Nat) (s : String) : Piece :=
  let cs := s.toList
  match formOf key s with
  | .plain => { chars := cs }
  | .single => { chars := singleQuoted indent cs }
  | .double => { chars := doubleQuoted cs }
  | .block =>
    { chars := blockHeader cs ++ '\n' :: blockLines indent true cs
      endsLine := cs.getLast?.any isBreak
      openEnded := keepsBreaks cs }

def floatText (x : Float) : String :=
  if x.isNaN then ".nan"
  else if x.isInf then (if x < 0 then "-.inf" else ".inf")
  else Decimal.floatText x

def endLine (p : Piece) : List Char := if p.endsLine then p.chars else p.chars ++ ['\n']

/-- The longest key, in bytes, that stands in front of its colon on one line. -/
def maxSimpleKey : Nat := 128

def isSimpleKey (s : String) : Bool := !s.toList.any isBreak && s.utf8ByteSize ≤ maxSimpleKey

mutual

/-- Writes a value behind what is already on the line (a key and colon, or a dash). Lists and mappings
start at column `indent`; texts of several lines are indented by `inner`. -/
def writeValue (afterKey : Bool) (listIndent mapIndent inner : Nat) : Output → List Char
  | .null => gap ++ "null\n".toList
  | .bool b => gap ++ (if b then "true\n" else "false\n").toList
  | .int n => gap ++ (toString n ++ "\n").toList
  | .real x => gap ++ (floatText x ++ "\n").toList
  | .text s => gap ++ endLine (textPiece false inner s)
  | .list [] => gap ++ "[]\n".toList
  | .map [] => gap ++ "\x7b\x7d\n".toList
  | .list (first :: rest) =>
    if afterKey then '\n' :: writeItems true listIndent (first :: rest)
    else gap ++ writeItems false listIndent (first :: rest)
  | .map (first :: rest) =>
    if afterKey then '\n' :: writeFields true mapIndent (first :: rest)
    else gap ++ writeFields false mapIndent (first :: rest)
where
  gap : List Char := [' ']

/-- The items of a list at column `indent`; the first may stand behind something on its line. -/
def writeItems (indentFirst : Bool) (indent : Nat) : List Output → List Char
  | [] => []
  | item :: rest =>
    (if indentFirst then blanks indent else []) ++ '-' ::
      writeValue false (indent + 2) (indent + 2) (indent + 2) item ++ writeItems true indent rest

def writeFields (indentFirst : Bool) (indent : Nat) : List (String × Output) → List Char
  | [] => []
  | (name, value) :: rest =>
    let lead := if indentFirst then blanks indent else []
    let key :=
      if isSimpleKey name then (textPiece true (indent + 2) name).chars ++ [':']
      else '?' :: ' ' :: endLine (textPiece false (indent + 2) name) ++ blanks indent ++ [':']
    lead ++ key ++ writeValue true indent (indent + 2) (indent + 2) value ++
      writeFields true indent rest

end

mutual

/-- Is the last text written one that keeps the line breaks behind it? -/
def endsOpen : Output → Bool
  | .text s => (textPiece false 0 s).openEnded
  | .list items => lastOpen items
  | .map fields => lastFieldOpen fields
  | _ => false

def lastOpen : List Output → Bool
  | [] => false
  | [item] => endsOpen item
  | _ :: rest => lastOpen rest

def lastFieldOpen : List (String × Output) → Bool
  | [] => false
  | [(_, value)] => endsOpen value
  | _ :: rest => lastFieldOpen rest

end

/-- The document of a value. -/
def Output.write (o : Output) : String :=
  let body := (writeValue false 0 0 2 o).tail
  String.ofList (body ++ (if endsOpen o then "...\n".toList else []))

end Rollout.Yaml
