import Rollout.Pattern.Matching
import Rollout.Pattern.Named

/-!
# Reading patterns

The notation of patterns: single characters, `.`, sets in brackets with ranges and set operations,
escapes, groups with flags, alternatives, repetitions and conditions on places. There are no references
back to groups and no conditions on what is ahead or behind.

A pattern is read from left to right with a stack of open groups; flags hold to the end of the group
they are set in.
-/

namespace Rollout.Pattern

structure Flags where
  ignoreCase : Bool := false
  multiLine : Bool := false
  dotAll : Bool := false
  crlf : Bool := false
  /-- Blanks and comments in the pattern mean nothing. -/
  loose : Bool := false
  unicode : Bool := true
  deriving DecidableEq, Repr

abbrev Read (α : Type) := Except String α

/-- Past blanks and comments, where they mean nothing. -/
def Flags.skip (f : Flags) (cs : List Char) : List Char :=
  if f.loose then go false cs else cs
where
  go (comment : Bool) : List Char → List Char
    | [] => []
    | c :: rest =>
      if comment then go (c != '\n') rest
      else if Text.isBlank c then go false rest
      else if c == '#' then go true rest
      else c :: rest

def Flags.fold (f : Flags) (s : CharSet) : CharSet := if f.ignoreCase then .folded s else s

/-! ## Escapes -/

/-- What a backslash and the characters behind it stand for. -/
inductive Escape where
  | single (c : Char)
  | set (s : CharSet)
  | look (l : Look)

def unclosed {α : Type} : Read α := .error "unclosed"

def isAsciiLetter (c : Char) : Bool := ('A' ≤ c && c ≤ 'Z') || ('a' ≤ c && c ≤ 'z')

def isAsciiDigit (c : Char) : Bool := '0' ≤ c && c ≤ '9'

def hexValue? (c : Char) : Option Nat :=
  if isAsciiDigit c then some (c.toNat - 48)
  else if 'a' ≤ c && c ≤ 'f' then some (c.toNat - 87)
  else if 'A' ≤ c && c ≤ 'F' then some (c.toNat - 55)
  else none

def hexChar (digits : List Char) : Read Char :=
  match digits.mapM hexValue? with
  | none => .error "invalid hexadecimal digit"
  | some [] => .error "hexadecimal literal empty"
  | some values =>
    let n := values.foldl (fun n v => 16 * n + v) 0
    if n < 0xD800 || (0xE000 ≤ n && n < 0x110000) then .ok (Char.ofNat n)
    else .error "hexadecimal literal is not a Unicode scalar value"

/-- A hexadecimal escape: `width` digits, or any number of them in braces. -/
def readHex (width : Nat) (cs : List Char) : Read (Char × List Char) :=
  match cs with
  | '{' :: rest =>
    let digits := rest.takeWhile (· != '}')
    match rest.dropWhile (· != '}') with
    | [] => .error "incomplete escape sequence"
    | _ :: rest => return (← hexChar digits, rest)
  | _ =>
    if cs.length < width then .error "incomplete escape sequence"
    else return (← hexChar (cs.take width), cs.drop width)

/-- The text in front of `mark` and the text behind it. -/
def splitAt? (mark : List Char) : List Char → Option (List Char × List Char)
  | [] => none
  | c :: rest =>
    if mark.isPrefixOf (c :: rest) then some ([], (c :: rest).drop mark.length)
    else (splitAt? mark rest).map fun (a, b) => (c :: a, b)

def namedSet? (name : List Char) : Option CharSet :=
  match splitAt? ['!', '='] name with
  | some (property, value) => (valueSet? property value).map .negated
  | none =>
    match (splitAt? [':'] name).orElse fun _ => splitAt? ['='] name with
    | some (property, value) => valueSet? property value
    | none => propertySet? name

def readProperty (f : Flags) (negated : Bool) (cs : List Char) : Read (Escape × List Char) := do
  let (name, rest) ← match cs with
    | [] => .error "incomplete escape sequence"
    | '{' :: rest =>
      match splitAt? ['}'] rest with
      | some x => pure x
      | none => .error "incomplete escape sequence"
    | '\\' :: _ => .error "invalid Unicode character class"
    | c :: rest => pure ([c], rest)
  if !f.unicode then throw "Unicode not allowed here"
  match namedSet? name with
  | none => .error "Unicode property not found"
  | some s =>
    let s := f.fold s
    return (.set (if negated then .negated s else s), rest)

def readPerl (f : Flags) (p : Property) (ascii : String) (negated : Bool) (rest : List Char) :
    Read (Escape × List Char) :=
  let s := if f.unicode then .property p else (asciiSet? ascii.toList).getD .empty
  if !negated then .ok (.set s, rest)
  else if f.unicode then .ok (.set (.negated s), rest)
  else .error "pattern can match invalid UTF-8"

/-- A word boundary that names its side in braces; without a name the braces are a repetition. -/
def readBoundary (cs : List Char) : Read (Escape × List Char) :=
  let isNameChar (c : Char) : Bool := isAsciiLetter c || c == '-'
  match cs with
  | '{' :: [] => .error "found either the beginning of a special word boundary or a repetition"
  | '{' :: c :: rest =>
    if !isNameChar c then .ok (.look .wordBoundary, cs)
    else match (c :: rest).dropWhile isNameChar with
      | '}' :: after =>
        let name := String.ofList ((c :: rest).takeWhile isNameChar)
        if name = "start" then .ok (.look .wordStart, after)
        else if name = "end" then .ok (.look .wordEnd, after)
        else if name = "start-half" then .ok (.look .wordStartHalf, after)
        else if name = "end-half" then .ok (.look .wordEndHalf, after)
        else .error "unrecognized special word boundary assertion"
      | _ => .error "special word boundary assertion is either unclosed or contains an invalid character"
  | _ => .ok (.look .wordBoundary, cs)

def readEscape (f : Flags) (cs : List Char) : Read (Escape × List Char) :=
  let single (c : Char) (rest : List Char) : Read (Escape × List Char) := .ok (.single c, rest)
  match cs with
  | [] => .error "incomplete escape sequence"
  | 'x' :: rest => do
    let (c, after) ← readHex 2 rest
    if !f.unicode && 0x80 ≤ c.toNat && rest.head? != some '{' then
      throw "pattern can match invalid UTF-8"
    single c after
  | 'u' :: rest => do let (c, rest) ← readHex 4 rest; single c rest
  | 'U' :: rest => do let (c, rest) ← readHex 8 rest; single c rest
  | 'p' :: rest => readProperty f false rest
  | 'P' :: rest => readProperty f true rest
  | 'd' :: rest => readPerl f .digit "digit" false rest
  | 'D' :: rest => readPerl f .digit "digit" true rest
  | 's' :: rest => readPerl f .space "space" false rest
  | 'S' :: rest => readPerl f .space "space" true rest
  | 'w' :: rest => readPerl f .word "word" false rest
  | 'W' :: rest => readPerl f .word "word" true rest
  | 'a' :: rest => single '\x07' rest
  | 'f' :: rest => single '\x0c' rest
  | 't' :: rest => single '\t' rest
  | 'n' :: rest => single '\n' rest
  | 'r' :: rest => single '\r' rest
  | 'v' :: rest => single '\x0b' rest
  | 'A' :: rest => .ok (.look .textStart, rest)
  | 'z' :: rest => .ok (.look .textEnd, rest)
  | 'b' :: rest => readBoundary rest
  | 'B' :: rest => .ok (.look .noWordBoundary, rest)
  | '<' :: rest => .ok (.look .wordStart, rest)
  | '>' :: rest => .ok (.look .wordEnd, rest)
  | c :: rest =>
    if isAsciiDigit c then .error "backreferences are not supported"
    else if c.toNat < 128 && !isAsciiLetter c then single c rest
    else .error "unrecognized escape sequence"

/-! ## Sets in brackets -/

/-- A class of ASCII such as `[:alpha:]`. -/
def readAsciiClass? (cs : List Char) : Option (CharSet × List Char) :=
  match cs with
  | '[' :: ':' :: rest =>
    let (negated, rest) := match rest with
      | '^' :: rest => (true, rest)
      | _ => (false, rest)
    match splitAt? [':', ']'] rest with
    | some (name, rest) =>
      (asciiSet? name).map fun s => (if negated then .negated s else s, rest)
    | none => none
  | _ => none

def readMember (f : Flags) (cs : List Char) : Read (Escape × List Char) := do
  match cs with
  | [] => unclosed
  | '\\' :: rest =>
    let (e, rest) ← readEscape f rest
    match e with
    | .look _ => .error "invalid escape sequence found in character class"
    | e => return (e, rest)
  | c :: rest =>
    if !f.unicode && 0x80 ≤ c.toNat then throw "Unicode not allowed here"
    return (.single c, rest)

def Escape.toSet : Escape → CharSet
  | single c => .single c
  | set s => s
  | look _ => .empty

def readRange (f : Flags) (cs : List Char) : Read (CharSet × List Char) := do
  let (first, rest) ← readMember f cs
  match f.skip rest with
  | [] => unclosed
  | '-' :: after =>
    match f.skip after with
    | ']' :: _ | '-' :: _ => return (first.toSet, f.skip rest)
    | after =>
      let (last, rest) ← readMember f after
      match first, last with
      | .single a, .single b =>
        if a ≤ b then return (.range a b, rest) else .error "invalid character class range"
      | _, _ => .error "invalid range boundary"
  | rest => return (first.toSet, rest)

/-- The operations on sets, by the character that is doubled. -/
def setOperation? (c : Char) : Option (CharSet → CharSet → CharSet) :=
  if c == '&' then some .inter
  else if c == '-' then some .minus
  else if c == '~' then some .differ
  else none

/-- The set so far: what is left of the last operation, and the members since. -/
structure OpenSet where
  negated : Bool
  pending : Option (CharSet × (CharSet → CharSet → CharSet)) := none
  members : CharSet := .empty

namespace OpenSet

def add (o : OpenSet) (s : CharSet) : OpenSet := { o with members := .union o.members s }

/-- The value of all that has been read. Before an operation both sides are folded. -/
def value (f : Flags) (o : OpenSet) : CharSet :=
  match o.pending with
  | none => o.members
  | some (left, op) => op (f.fold left) (f.fold o.members)

def close (f : Flags) (o : OpenSet) : CharSet :=
  let s := f.fold (o.value f)
  if o.negated then .negated s else s

end OpenSet

/-- The start of a set in brackets: dashes, and a closing bracket that comes first, are members. -/
def openSet (f : Flags) (cs : List Char) : OpenSet × List Char :=
  let cs := f.skip cs
  let (negated, cs) := match cs with
    | '^' :: rest => (true, f.skip rest)
    | _ => (false, cs)
  let dashes := cs.takeWhile (· == '-')
  let rest := f.skip (cs.dropWhile (· == '-'))
  if !dashes.isEmpty then ({ negated, members := .single '-' }, rest)
  else match rest with
    | ']' :: rest => ({ negated, members := .single ']' }, f.skip rest)
    | _ => ({ negated }, rest)

def readSet (f : Flags) (innermost : OpenSet) (outer : List OpenSet) (cs : List Char) :
    (fuel : Nat) → Read (CharSet × List Char)
  | 0 => unclosed
  | fuel + 1 => do
    match f.skip cs with
    | [] => unclosed
    | ']' :: rest =>
      match outer with
      | [] => return (innermost.close f, rest)
      | next :: outer => readSet f (next.add (innermost.close f)) outer rest fuel
    | '[' :: rest =>
      match readAsciiClass? ('[' :: rest) with
      | some (s, rest) => readSet f (innermost.add s) outer rest fuel
      | none =>
        let (o, rest) := openSet f rest
        readSet f o (innermost :: outer) rest fuel
    | c :: rest =>
      match if rest.head? == some c then setOperation? c else none with
      | some op =>
        readSet f { innermost with pending := some (innermost.value f, op), members := .empty }
          outer rest.tail fuel
      | none =>
        let (s, rest) ← readRange f (c :: rest)
        readSet f (innermost.add s) outer rest fuel

/-! ## Groups and repetitions -/

/-- A part of an alternative; a change of flags is none that can be repeated. -/
structure Part where
  pattern : Pattern
  repeatable : Bool := true

/-- An open group: finished alternatives, the parts of the current one, both last first, and the flags
outside. -/
structure Group where
  finished : List Pattern := []
  parts : List Part := []
  outside : Flags := {}

def Group.alternative (g : Group) : Pattern :=
  match g.parts.reverse.map (·.pattern) with
  | [] => .empty
  | p :: rest => rest.foldl .seq p

def Group.pattern (g : Group) : Pattern := g.finished.foldl (fun p q => .alt q p) g.alternative

structure Reader where
  rest : List Char
  flags : Flags := {}
  group : Group := {}
  outer : List Group := []
  names : List (List Char) := []

namespace Reader

def add (r : Reader) (p : Pattern) (rest : List Char) : Reader :=
  { r with rest, group := { r.group with parts := ⟨p, true⟩ :: r.group.parts } }

/-- How deep groups may nest. -/
def maxDepth : Nat := 250

def enter (r : Reader) (inside : Flags) (rest : List Char) : Reader :=
  { r with rest, flags := inside, group := { outside := r.flags }, outer := r.group :: r.outer }

def close (r : Reader) (rest : List Char) : Read Reader :=
  match r.outer with
  | [] => .error "unopened group"
  | g :: outer =>
    .ok ({ r with flags := r.group.outside, group := g, outer }.add r.group.pattern rest)

def nextAlternative (r : Reader) (rest : List Char) : Reader :=
  let g := r.group
  { r with rest, group := { g with finished := g.alternative :: g.finished, parts := [] } }

/-- Repeats the last part. A question mark behind a repetition does not change what is matched. -/
def repeated (r : Reader) (least : Nat) (most : Option Nat) (rest : List Char) : Read Reader :=
  match r.group.parts with
  | part :: parts =>
    if !part.repeatable then .error "repetition operator missing expression"
    else
      let rest := match rest with
        | '?' :: rest => rest
        | _ => rest
      .ok { r with
        rest
        group := { r.group with parts := ⟨.times part.pattern least most, true⟩ :: parts } }
  | [] => .error "repetition operator missing expression"

/-- A number in braces, with blanks around it. -/
def readCount (cs : List Char) : Read (Nat × List Char) :=
  let cs := cs.dropWhile Text.isBlank
  let digits := cs.takeWhile isAsciiDigit
  if digits.isEmpty then .error "decimal literal empty"
  else
    let n := digits.foldl (fun n d => 10 * n + (d.toNat - 48)) 0
    if n < 4294967296 then .ok (n, (cs.dropWhile isAsciiDigit).dropWhile Text.isBlank)
    else .error "decimal literal invalid"

def counted (r : Reader) (cs : List Char) : Read Reader := do
  if r.group.parts.head?.all (!·.repeatable) then throw "repetition operator missing expression"
  let (least, cs) ← readCount (r.flags.skip cs)
  match r.flags.skip cs with
  | '}' :: rest => r.repeated least (some least) rest
  | ',' :: rest =>
    match r.flags.skip rest with
    | '}' :: rest => r.repeated least none rest
    | rest =>
      let (most, rest) ← readCount rest
      match r.flags.skip rest with
      | '}' :: rest =>
        if most < least then .error "invalid repetition count range"
        else r.repeated least (some most) rest
      | _ => .error "unclosed counted repetition"
  | _ => .error "unclosed counted repetition"

def setFlag (f : Flags) (c : Char) (on : Bool) : Option Flags :=
  if c == 'i' then some { f with ignoreCase := on }
  else if c == 'm' then some { f with multiLine := on }
  else if c == 's' then some { f with dotAll := on }
  else if c == 'U' then some f
  else if c == 'u' then some { f with unicode := on }
  else if c == 'R' then some { f with crlf := on }
  else if c == 'x' then some { f with loose := on }
  else none

/-- Reads flags up to a colon or the end of the group. -/
def readFlags (f : Flags) (seen : List Char) : List Char → Read (Flags × List Char × List Char)
  | [] => .error "expected flag but got end of regex"
  | c :: rest =>
    if c == ':' || c == ')' then
      if seen.head? == some '-' then .error "dangling flag negation operator"
      else .ok (f, seen, c :: rest)
    else if c == '-' then
      if seen.contains '-' then .error "flag negation operator repeated"
      else readFlags f ('-' :: seen) rest
    else if seen.contains c then .error "duplicate flag"
    else match setFlag f c (!seen.contains '-') with
      | some f => readFlags f (c :: seen) rest
      | none => .error "unrecognized flag"

def isNameChar (first : Bool) (c : Char) : Bool :=
  let k := Text.category c
  c == '_' || k.group == 'L' || k == ⟨'N', 'l'⟩ ||
    (!first && (c == '.' || c == '[' || c == ']' || k.group == 'N'))

def named (r : Reader) (cs : List Char) : Read Reader :=
  match splitAt? ['>'] cs with
  | none => .error "unclosed capture group name"
  | some ([], _) => .error "empty capture group name"
  | some (c :: name, rest) =>
    if !isNameChar true c || !name.all (isNameChar false) then
      .error "invalid capture group character"
    else if r.names.contains (c :: name) then .error "duplicate capture group name"
    else .ok { r.enter r.flags rest with names := (c :: name) :: r.names }

def readGroup (r : Reader) (cs : List Char) : Read Reader := do
  if maxDepth ≤ r.outer.length then throw "exceed the maximum number of nested parentheses/brackets"
  match r.flags.skip cs with
  | '?' :: '=' :: _ | '?' :: '!' :: _ | '?' :: '<' :: '=' :: _ | '?' :: '<' :: '!' :: _ =>
    .error "look-around, including look-ahead and look-behind, is not supported"
  | '?' :: 'P' :: '<' :: rest | '?' :: '<' :: rest => r.named rest
  | '?' :: [] => .error "unclosed group"
  | '?' :: rest =>
    match ← readFlags r.flags [] rest with
    | (f, seen, ')' :: rest) =>
      if seen.isEmpty then .error "repetition operator missing expression"
      else
        return { r with
          rest
          flags := f
          group := { r.group with parts := ⟨.empty, false⟩ :: r.group.parts } }
    | (f, _, rest) => return r.enter f rest.tail
  | rest => return r.enter r.flags rest

def dot (f : Flags) : Read CharSet :=
  if !f.unicode then .error "pattern can match invalid UTF-8"
  else if f.dotAll then .ok (.property .any)
  else if f.crlf then .ok (.negated (.union (.single '\n') (.single '\r')))
  else .ok (.negated (.single '\n'))

def lineStart (f : Flags) : Look :=
  if !f.multiLine then .textStart else if f.crlf then .anyLineStart else .lineStart

def lineEnd (f : Flags) : Look :=
  if !f.multiLine then .textEnd else if f.crlf then .anyLineEnd else .lineEnd

/-- Reads the next construct; `c` is its first character. -/
def step (r : Reader) (c : Char) (rest : List Char) : Read Reader := do
  match c with
  | '(' => r.readGroup rest
  | ')' => r.close rest
  | '|' => return r.nextAlternative rest
  | '*' => r.repeated 0 none rest
  | '+' => r.repeated 1 none rest
  | '?' => r.repeated 0 (some 1) rest
  | '{' => r.counted rest
  | '[' =>
    let (o, after) := openSet r.flags rest
    let (s, rest) ← readSet r.flags o [] after (rest.length + 1)
    if !r.flags.unicode && o.negated then throw "pattern can match invalid UTF-8"
    return r.add (.set s) rest
  | '.' => return r.add (.set (← dot r.flags)) rest
  | '^' => return r.add (.look (lineStart r.flags)) rest
  | '$' => return r.add (.look (lineEnd r.flags)) rest
  | '\\' =>
    let (e, rest) ← readEscape r.flags rest
    match e with
    | .single c => return r.add (.set (r.flags.fold (.single c))) rest
    | .set s => return r.add (.set s) rest
    | .look l => return r.add (.look l) rest
  | c => return r.add (.set (r.flags.fold (.single c))) rest

/-- Reads on to the end. Each construct takes a character, so `fuel` is how many are left. -/
def readAll (r : Reader) : (fuel : Nat) → Read Pattern
  | 0 => unclosed
  | fuel + 1 => do
    match r.flags.skip r.rest with
    | [] => if r.outer.isEmpty then return r.group.pattern else .error "unclosed group"
    | c :: rest => (← r.step c rest).readAll fuel

end Reader

/-- How many steps a pattern may have. -/
def maxWeight : Nat := 327680

def parse (s : String) : Except String Pattern :=
  match ({ rest := s.toList } : Reader).readAll (s.length + 1) with
  | .ok p =>
    if maxWeight < p.weight then .error "Compiled regex exceeds size limit of 10485760 bytes."
    else .ok p
  | .error problem => .error ("regex parse error: " ++ problem)

end Rollout.Pattern
