import Rollout.Yaml.Text.Block
import Rollout.Yaml.Text.Quotes
import Rollout.Yaml.Token.Property

/-!
# The tokens of a text

Reading tokens one after the other. A value may turn out to be a key only when the colon behind it is
seen, so a place is kept in front of everything that may be a key (`Entry.place`); the colon fills it,
and places that stay empty are dropped. A key has to be on one line and short, and where the
indentation asks for a key it has to be one.

`Tokens` is the outcome: the tokens and, if the text is malformed, why. Tokens behind a place that was
still open when the fault was found are not handed out, for it is not known what they are.
-/

namespace Rollout.Yaml

inductive Entry where
  | token (t : Token)
  /-- A place for the start of a key, and perhaps of a mapping before it. -/
  | place (filled : List Token)

/-- The value that may turn out to be a key, on one level of brackets. -/
structure PossibleKey where
  place : Nat
  required : Bool
  mark : Mark
  deriving Repr

structure Reader where
  cursor : Cursor
  entries : Array Entry := #[]
  /-- Columns of the open blocks, innermost first. -/
  indents : List Nat := []
  /-- One for each level of brackets, innermost first. -/
  keys : List (Option PossibleKey) := [none]
  /-- May a key start here? -/
  keyAllowed : Bool := true

namespace Reader

def depth (r : Reader) : Nat := r.keys.length - 1

def inFlow (r : Reader) : Bool := r.depth != 0

def mark (r : Reader) : Mark := r.cursor.mark

def push (r : Reader) (kind : Token.Kind) (start stop : Mark) : Reader :=
  { r with entries := r.entries.push (.token ⟨kind, start, stop⟩) }

/-- The token of `n` characters that stands here. -/
def pushHere (r : Reader) (kind : Token.Kind) (n : Nat) : Reader :=
  let stop := r.cursor.skipMany n
  { r.push kind r.mark stop.mark with cursor := stop }

def missingColon (k : PossibleKey) (m : Mark) : Problem :=
  .malformed "could not find expected ':'" m (some ("while scanning a simple key", k.mark))

def maxKeyLength : Nat := 1024

/-- Is the possible key too long ago to be one? -/
def isStale (r : Reader) (k : PossibleKey) : Bool :=
  k.mark.line < r.mark.line || k.mark.index + maxKeyLength < r.mark.index

def dropStale (r : Reader) : Except Problem Reader := do
  let keep : Option PossibleKey → Except Problem (Option PossibleKey)
    | none => .ok none
    | some k =>
      if r.isStale k then
        if k.required then .error (missingColon k r.mark) else .ok none
      else .ok (some k)
  return { r with keys := ← r.keys.mapM keep }

/-- Nothing here can be the key that was possible. -/
def dropKey (r : Reader) : Except Problem Reader :=
  match r.keys with
  | some k :: rest =>
    if k.required then .error (missingColon k r.mark)
    else .ok { r with keys := none :: rest }
  | _ => .ok r

/-- What follows may be a key. -/
def saveKey (r : Reader) : Except Problem Reader := do
  if !r.keyAllowed then return r
  let required := !r.inFlow && r.indents.head? == some r.mark.column
  let r ← r.dropKey
  return { r with
    keys := some ⟨r.entries.size, required, r.mark⟩ :: r.keys.tail
    entries := r.entries.push (.place []) }

/-- The indents that are left at a column, and how many blocks end. -/
def closedAt (column : Nat) : List Nat → List Nat × Nat
  | [] => ([], 0)
  | i :: rest =>
    if column < i then
      let (left, n) := closedAt column rest
      (left, n + 1)
    else (i :: rest, 0)

def pushEnds (r : Reader) : Nat → Reader
  | 0 => r
  | n + 1 => (r.push .blockEnd r.mark r.mark).pushEnds n

/-- Ends the blocks that are indented more than this line. -/
def closeTo (r : Reader) (column : Nat) : Reader :=
  if r.inFlow then r
  else
    let (left, n) := closedAt column r.indents
    { r with indents := left }.pushEnds n

def closeAll (r : Reader) : Reader :=
  if r.inFlow then r
  else { r with indents := [] }.pushEnds r.indents.length

def deeper (r : Reader) (column : Nat) : Bool :=
  !r.inFlow && match r.indents with
    | [] => true
    | i :: _ => i < column

/-- Starts a block if this column is deeper than the block it is in. -/
def openBlock (r : Reader) (kind : Token.Kind) : Reader :=
  if r.deeper r.mark.column then
    { r.push kind r.mark r.mark with indents := r.mark.column :: r.indents }
  else r

/-- Past blanks, comments and line breaks. Tabs do not indent. -/
def skipToToken (r : Reader) : (fuel : Nat) → Reader
  | 0 => r
  | fuel + 1 =>
    let c := r.cursor
    let c := if c.mark.index == 0 && c.rest.head? == some '\ufeff' then c.skip else c
    let tabs := r.inFlow || !r.keyAllowed
    let c := (c.skipWhile fun ch => ch == ' ' || (tabs && ch == '\t')).skipComment
    match c.rest with
    | ch :: _ =>
      if isBreak ch then
        { r with cursor := c.skipBreak, keyAllowed := r.keyAllowed || !r.inFlow }.skipToToken fuel
      else { r with cursor := c }
    | [] => { r with cursor := c }

def plainError (problem : String) (m : Mark) : Problem := .malformed problem m none

def fetchStreamEnd (r : Reader) : Except Problem Reader := do
  let m := r.mark
  let m := if m.column == 0 then m else { m with line := m.line + 1, column := 0 }
  let r := { r with cursor := ⟨r.cursor.rest, m⟩ }
  let r ← r.closeAll.dropKey
  return { r.push .streamEnd m m with keyAllowed := false }

def fetchDirective (r : Reader) : Except Problem Reader := do
  let r ← r.closeAll.dropKey
  let (kind, c) ← readDirective r.cursor
  return { r.push kind r.mark c.mark with cursor := c, keyAllowed := false }

def fetchDocumentMarker (r : Reader) (kind : Token.Kind) : Except Problem Reader := do
  let r ← r.closeAll.dropKey
  return { r.pushHere kind 3 with keyAllowed := false }

def fetchFlowStart (r : Reader) (kind : Token.Kind) : Except Problem Reader := do
  let r ← r.saveKey
  return { r.pushHere kind 1 with keys := none :: r.keys, keyAllowed := true }

def fetchFlowEnd (r : Reader) (kind : Token.Kind) : Except Problem Reader := do
  let r ← r.dropKey
  let keys := if r.inFlow then r.keys.tail else r.keys
  return { r.pushHere kind 1 with keys, keyAllowed := false }

def fetchFlowEntry (r : Reader) : Except Problem Reader := do
  let r ← r.dropKey
  return { r.pushHere .flowEntry 1 with keyAllowed := true }

/-- The block an indicator opens; it must stand where a key could. -/
def enterBlock (r : Reader) (kind : Token.Kind) (problem : String) : Except Problem Reader :=
  if r.inFlow then .ok r
  else if r.keyAllowed then .ok (r.openBlock kind)
  else .error (plainError problem r.mark)

def fetchBlockEntry (r : Reader) : Except Problem Reader := do
  let r ← r.enterBlock .blockSequenceStart
    "block sequence entries are not allowed in this context"
  let r ← r.dropKey
  return { r.pushHere .blockEntry 1 with keyAllowed := true }

def fetchKey (r : Reader) : Except Problem Reader := do
  let r ← r.enterBlock .blockMappingStart "mapping keys are not allowed in this context"
  let r ← r.dropKey
  return { r.pushHere .key 1 with keyAllowed := !r.inFlow }

def fill (r : Reader) (k : PossibleKey) : Reader :=
  let key : Token := ⟨.key, k.mark, k.mark⟩
  if r.deeper k.mark.column then
    { r with
      entries := r.entries.setIfInBounds k.place
        (.place [⟨.blockMappingStart, k.mark, k.mark⟩, key])
      indents := k.mark.column :: r.indents }
  else { r with entries := r.entries.setIfInBounds k.place (.place [key]) }

def fetchValue (r : Reader) : Except Problem Reader := do
  match r.keys with
  | some k :: rest =>
    let r := r.fill k
    return { r.pushHere .value 1 with keys := none :: rest, keyAllowed := false }
  | _ =>
    let r ← r.enterBlock .blockMappingStart "mapping values are not allowed in this context"
    return { r.pushHere .value 1 with keyAllowed := !r.inFlow }

def fetchAnchor (r : Reader) (isAlias : Bool) : Except Problem Reader := do
  let r ← r.saveKey
  let context := if isAlias then "while scanning an alias" else "while scanning an anchor"
  let (name, c) ← readAnchor context r.cursor
  let kind := if isAlias then .reference name else .anchor name
  return { r.push kind r.mark c.mark with cursor := c, keyAllowed := false }

def fetchTag (r : Reader) : Except Problem Reader := do
  let r ← r.saveKey
  let (kind, c) ← readTag r.inFlow r.cursor
  return { r.push kind r.mark c.mark with cursor := c, keyAllowed := false }

def fetchBlockText (r : Reader) (literal : Bool) : Except Problem Reader := do
  let r ← r.dropKey
  let (text, c) ← readBlock literal r.indents.head? r.cursor
  return { r.push (.scalar text .block) r.mark c.mark with cursor := c, keyAllowed := true }

def fetchQuoted (r : Reader) (single : Bool) : Except Problem Reader := do
  let r ← r.saveKey
  let (text, c) ← readQuoted single r.cursor
  return { r.push (.scalar text .quoted) r.mark c.mark with cursor := c, keyAllowed := false }

def fetchPlain (r : Reader) : Except Problem Reader := do
  let r ← r.saveKey
  let least := match r.indents with
    | [] => 0
    | i :: _ => i + 1
  let (text, broken, c) ← readPlain r.inFlow least r.cursor
  return { r.push (.scalar text .plain) r.mark c.mark with cursor := c, keyAllowed := broken }

/-- Characters a plain value does not start with. -/
def isIndicator (c : Char) : Bool := "-?:,[]\x7b\x7d#&*!|>'\"%@\x60".toList.contains c

def startsPlain (flow : Bool) (cs : List Char) : Bool :=
  match cs with
  | [] => false
  | '-' :: rest => !startsWithBlank rest
  | c :: rest =>
    if c == '?' || c == ':' then !flow && !endsWord rest
    else !endsWord cs && !isIndicator c

def fetchHere (r : Reader) : Except Problem Reader :=
  let cs := r.cursor.rest
  let flow := r.inFlow
  let first := r.mark.column == 0
  match cs with
  | [] => r.fetchStreamEnd
  | c :: rest =>
    if first && c == '%' then r.fetchDirective
    else if r.cursor.atDocumentMarker then
      r.fetchDocumentMarker (if c == '-' then .documentStart else .documentEnd)
    else if c == '[' then r.fetchFlowStart .flowSequenceStart
    else if c == '{' then r.fetchFlowStart .flowMappingStart
    else if c == ']' then r.fetchFlowEnd .flowSequenceEnd
    else if c == '}' then r.fetchFlowEnd .flowMappingEnd
    else if c == ',' then r.fetchFlowEntry
    else if c == '-' && endsWord rest then r.fetchBlockEntry
    else if c == '?' && (flow || endsWord rest) then r.fetchKey
    else if c == ':' && (flow || endsWord rest) then r.fetchValue
    else if c == '*' then r.fetchAnchor true
    else if c == '&' then r.fetchAnchor false
    else if c == '!' then r.fetchTag
    else if c == '|' && !flow then r.fetchBlockText true
    else if c == '>' && !flow then r.fetchBlockText false
    else if c == '\'' then r.fetchQuoted true
    else if c == '"' then r.fetchQuoted false
    else if startsPlain flow cs then r.fetchPlain
    else
      .error (.malformed "found character that cannot start any token" r.mark
        (some ("while scanning for the next token", r.mark)))

def fetch (r : Reader) : Except Problem Reader := do
  let r := r.skipToToken (r.cursor.rest.length + 1)
  let r ← r.dropStale
  (r.closeTo r.mark.column).fetchHere

def ended (r : Reader) : Bool :=
  match r.entries.back? with
  | some (.token t) => t.kind == .streamEnd
  | _ => false

end Reader

/-- The tokens of a text, and the problem that ends them if it is not the end of the text. -/
structure Tokens where
  list : List Token
  problem : Option Problem

def Entry.tokens : Entry → List Token
  | token t => [t]
  | place filled => filled

def firstOpen (keys : List (Option PossibleKey)) : Option Nat :=
  (keys.filterMap (·.map PossibleKey.place)).min?

namespace Reader

/-- The tokens handed out when reading ends here. -/
def handOut (r : Reader) (problem : Option Problem) : Tokens :=
  let entries := r.entries.toList
  let known := match problem, firstOpen r.keys with
    | some _, some place => entries.take place
    | _, _ => entries
  ⟨known.flatMap Entry.tokens, problem⟩

/-- Reads on to the end. Each token takes a character, so `fuel` is how many are left. -/
def readAll (unreadable : Option Problem) (r : Reader) : (fuel : Nat) → Tokens
  | 0 => r.handOut none
  | fuel + 1 =>
    match r.fetch with
    | .error problem => r.handOut (some problem)
    | .ok r' =>
      if r'.ended then
        match unreadable with
        | some problem => r.handOut (some problem)
        | none => r'.handOut none
      else r'.readAll unreadable fuel

end Reader

/-- The tokens of the bytes of a text. -/
def tokensOf (b : Bytes) : Tokens :=
  let (chars, problem) := readable b
  ({ cursor := { rest := chars } } : Reader).readAll problem (chars.length + 1)

end Rollout.Yaml
