import Rollout.Yaml.Node
import Rollout.Yaml.Token.Reading

/-!
# The documents of a text

Building trees from tokens, by the grammar of YAML 1.2. Each function reads one construct and leaves
the tokens behind it; the state holds what is common to a document: its anchors, its tag directives and
the first problem. Once there is a problem nothing more is read.
-/

namespace Rollout.Yaml

structure Composing where
  tokens : List Token
  /-- Why there are no more tokens than these. -/
  ending : Option Problem
  problem : Option Problem := none
  tags : List (String × String) := []
  /-- The anchors of the document, each with the number that an alias to it gets. -/
  names : List (String × Nat) := []
  anchored : List Anchored := []
  size : Nat := 0

namespace Composing

/-- The token that stands here; running out of tokens is a problem. -/
def peek (s : Composing) : Option Token × Composing :=
  if s.problem.isSome then (none, s)
  else match s.tokens with
    | t :: _ => (some t, s)
    | [] => (none, { s with problem := some (s.ending.getD .endOfStream) })

def skip (s : Composing) : Composing := { s with tokens := s.tokens.tail }

def fail (s : Composing) (p : Problem) : Composing :=
  if s.problem.isSome then s else { s with problem := some p }

/-- Counts a value, or an end of a collection. -/
def count (s : Composing) : Composing := { s with size := s.size + 1 }

/-- The number a new anchor gets: how many different names there are. -/
def nameAnchor (s : Composing) (name : String) : Nat × Composing :=
  let n := s.names.length
  (n, { s with names := (name, n) :: s.names.filter (·.1 ≠ name) })

end Composing

/-- What precedes a node: an anchor, a tag, or both. -/
structure Properties where
  start : Mark
  anchor : Option String := none
  tag : Option (String × String) := none
  tagMark : Mark := start

def Properties.isEmpty (p : Properties) : Bool := p.anchor.isNone && p.tag.isNone

namespace Composing

def properties (s : Composing) (first : Token) : Properties × Composing :=
  let p : Properties := { start := first.start }
  match first.kind with
  | .anchor name =>
    let s := s.skip
    match s.peek with
    | (some ⟨.tag handle suffix, m, _⟩, s) =>
      ({ p with anchor := some name, tag := some (handle, suffix), tagMark := m }, s.skip)
    | (_, s) => ({ p with anchor := some name }, s)
  | .tag handle suffix =>
    let s := s.skip
    match s.peek with
    | (some ⟨.anchor name, _, _⟩, s) =>
      ({ p with anchor := some name, tag := some (handle, suffix) }, s.skip)
    | (_, s) => ({ p with tag := some (handle, suffix) }, s)
  | _ => (p, s)

def fullTag (s : Composing) (p : Properties) : Except Problem (Option String) :=
  match p.tag with
  | none => .ok none
  | some ("", suffix) => .ok (some suffix)
  | some (handle, suffix) =>
    match s.tags.lookup handle with
    | some leading => .ok (some (leading ++ suffix))
    | none =>
      .error (.malformed "found undefined tag handle" p.tagMark
        (some ("while parsing a node", p.start)))

/-- The tag `!` says that a value is text of no particular kind. -/
def scalarTag (tag : Option String) : Option String := if tag == some "!" then none else tag

/-- Starts an anchored node: its number, if it has an anchor, and when it started. -/
def start (s : Composing) (p : Properties) : Option (Nat × Nat) × Composing :=
  match p.anchor with
  | none => (none, s.count)
  | some name =>
    let (n, s) := s.nameAnchor name
    (some (n, s.size), s.count)

def finish (s : Composing) (started : Option (Nat × Nat)) (node : Node) : Node × Composing :=
  match started with
  | none => (node, s)
  | some (anchor, started) => (node, { s with anchored := ⟨anchor, started, node⟩ :: s.anchored })

/-- A value that is not written. -/
def empty (s : Composing) (m : Mark) : Node × Composing := (.scalar m none .plain "", s.count)

/-- Ends a list of items because of a problem. -/
def stop (s : Composing) (p : Problem) : List Node × Composing := ([.broken], s.fail p)

end Composing

open Composing in
mutual

/-- Reads a node; `block` allows block collections, `indentless` a sequence at its parent's column. -/
def composeNode (block indentless : Bool) (s : Composing) : (fuel : Nat) → Node × Composing
  | 0 => (.broken, s.fail .endOfStream)
  | fuel + 1 =>
    match s.peek with
    | (none, s) => (.broken, s)
    | (some ⟨.reference name, m, _⟩, s) =>
      match s.names.lookup name with
      | some n => (.reference m n, s.skip.count)
      | none => (.broken, s.fail (.unknownAnchor m))
    | (some first, s) =>
      let (p, s) := s.properties first
      match s.fullTag p with
      | .error problem => (.broken, s.fail problem)
      | .ok tag =>
        match s.peek with
        | (none, s) => (.broken, s)
        | (some t, s) =>
          let m := p.start
          match t.kind with
          | .blockEntry =>
            if indentless then
              let (started, s) := s.start p
              let (items, s) := composeIndentless s fuel
              s.finish started (.sequence m tag items)
            else composeMissing block p tag t s
          | .scalar text style =>
            let (started, s) := s.start p
            let style := if tag == some "!" then .plain else style
            s.skip.finish started (.scalar m (scalarTag tag) style text)
          | .flowSequenceStart =>
            let (started, s) := s.start p
            let (items, s) := composeFlowItems t.start true s.skip fuel
            s.finish started (.sequence m tag items)
          | .flowMappingStart =>
            let (started, s) := s.start p
            let (pairs, s) := composeFlowPairs t.start true s.skip fuel
            s.finish started (.mapping m tag pairs)
          | .blockSequenceStart =>
            if block then
              let (started, s) := s.start p
              let (items, s) := composeBlockItems t.start s.skip fuel
              s.finish started (.sequence m tag items)
            else composeMissing block p tag t s
          | .blockMappingStart =>
            if block then
              let (started, s) := s.start p
              let (pairs, s) := composeBlockPairs t.start s.skip fuel
              s.finish started (.mapping m tag pairs)
            else composeMissing block p tag t s
          | _ => composeMissing block p tag t s

/-- A node without content: empty if it has properties, else malformed. -/
def composeMissing (block : Bool) (p : Properties) (tag : Option String) (t : Token)
    (s : Composing) : Node × Composing :=
  if p.isEmpty then
    let context := if block then "while parsing a block node" else "while parsing a flow node"
    (.broken, s.fail (.malformed "did not find expected node content" t.start
      (some (context, p.start))))
  else
    let (started, s) := s.start p
    s.finish started (.scalar p.start (scalarTag tag) .plain "")

/-- The items of a block sequence, up to and with its end. -/
def composeBlockItems (opened : Mark) (s : Composing) : (fuel : Nat) → List Node × Composing
  | 0 => s.stop .endOfStream
  | fuel + 1 =>
    match s.peek with
    | (none, s) => ([.broken], s)
    | (some t, s) =>
      match t.kind with
      | .blockEntry =>
        let (item, s) := composeItem [.blockEntry, .blockEnd] false t.stop s.skip fuel
        let (items, s) := composeBlockItems opened s fuel
        (item :: items, s)
      | .blockEnd => ([], s.skip.count)
      | _ =>
        s.stop (.malformed "did not find expected '-' indicator" t.start
          (some ("while parsing a block collection", opened)))

/-- The items of a sequence that has no indentation of its own. -/
def composeIndentless (s : Composing) : (fuel : Nat) → List Node × Composing
  | 0 => s.stop .endOfStream
  | fuel + 1 =>
    match s.peek with
    | (none, s) => ([.broken], s)
    | (some t, s) =>
      match t.kind with
      | .blockEntry =>
        let (item, s) :=
          composeItem [.blockEntry, .key, .value, .blockEnd] false t.stop s.skip fuel
        let (items, s) := composeIndentless s fuel
        (item :: items, s)
      | _ => ([], s.count)

/-- A block node, or nothing if one of `ends` follows. -/
def composeItem (ends : List Token.Kind) (indentless : Bool) (m : Mark) (s : Composing) :
    (fuel : Nat) → Node × Composing
  | 0 => (.broken, s.fail .endOfStream)
  | fuel + 1 =>
    match s.peek with
    | (none, s) => (.broken, s)
    | (some t, s) => if ends.contains t.kind then s.empty m else composeNode true indentless s fuel

/-- The pairs of a block mapping, up to and with its end. -/
def composeBlockPairs (opened : Mark) (s : Composing) : (fuel : Nat) → List (Node × Node) × Composing
  | 0 => ([(.broken, .broken)], s.fail .endOfStream)
  | fuel + 1 =>
    match s.peek with
    | (none, s) => ([(.broken, .broken)], s)
    | (some t, s) =>
      match t.kind with
      | .key =>
        let (key, s) := composeItem [.key, .value, .blockEnd] true t.stop s.skip fuel
        let (value, s) := composeBlockValue s fuel
        let (pairs, s) := composeBlockPairs opened s fuel
        ((key, value) :: pairs, s)
      | .blockEnd => ([], s.skip.count)
      | _ =>
        ([(.broken, .broken)], s.fail (.malformed "did not find expected key" t.start
          (some ("while parsing a block mapping", opened))))

def composeBlockValue (s : Composing) : (fuel : Nat) → Node × Composing
  | 0 => (.broken, s.fail .endOfStream)
  | fuel + 1 =>
    match s.peek with
    | (none, s) => (.broken, s)
    | (some t, s) =>
      match t.kind with
      | .value => composeItem [.key, .value, .blockEnd] true t.stop s.skip fuel
      | _ => s.empty t.start

/-- The items of a bracketed sequence, up to and with its end. -/
def composeFlowItems (opened : Mark) (first : Bool) (s : Composing) : (fuel : Nat) → List Node × Composing
  | 0 => s.stop .endOfStream
  | fuel + 1 =>
    match composeSeparator opened first .flowSequenceEnd "while parsing a flow sequence"
        "did not find expected ',' or ']'" s with
    | (none, s) => ([.broken], s)
    | (some t, s) =>
      match t.kind with
      | .flowSequenceEnd => ([], s.skip.count)
      | .key =>
        let (pair, s) := composeFlowPair t.start s.skip.count fuel
        let (items, s) := composeFlowItems opened false s fuel
        (pair :: items, s)
      | _ =>
        let (item, s) := composeNode false false s fuel
        let (items, s) := composeFlowItems opened false s fuel
        (item :: items, s)

/-- The comma between two entries: the token behind it, or the end. -/
def composeSeparator (opened : Mark) (first : Bool) (close : Token.Kind) (context problem : String)
    (s : Composing) : Option Token × Composing :=
  match s.peek with
  | (none, s) => (none, s)
  | (some t, s) =>
    if first || t.kind == close then (some t, s)
    else if t.kind == .flowEntry then s.skip.peek
    else (none, s.fail (.malformed problem t.start (some (context, opened))))

/-- A mapping of one pair inside a bracketed sequence. -/
def composeFlowPair (m : Mark) (s : Composing) : (fuel : Nat) → Node × Composing
  | 0 => (.broken, s.fail .endOfStream)
  | fuel + 1 =>
    match s.peek with
    | (none, s) => (.mapping m none [(.broken, .broken)], s)
    | (some t, s) =>
      let (key, s) :=
        if [Token.Kind.value, .flowEntry, .flowSequenceEnd].contains t.kind then s.skip.empty t.stop
        else composeNode false false s fuel
      let (value, s) := composeFlowValue .flowSequenceEnd s fuel
      match s.peek with
      | (none, s) => (.mapping m none [(key, value), (.broken, .broken)], s)
      | (some _, s) => (.mapping m none [(key, value)], s.count)

/-- The value behind a colon inside brackets; nothing if there is no colon or nothing behind it. -/
def composeFlowValue (close : Token.Kind) (s : Composing) : (fuel : Nat) → Node × Composing
  | 0 => (.broken, s.fail .endOfStream)
  | fuel + 1 =>
    match s.peek with
    | (none, s) => (.broken, s)
    | (some t, s) =>
      if t.kind == .value then
        match s.skip.peek with
        | (none, s) => (.broken, s)
        | (some t, s) =>
          if t.kind == .flowEntry || t.kind == close then s.empty t.start
          else composeNode false false s fuel
      else s.empty t.start

/-- The pairs of a bracketed mapping, up to and with its end. -/
def composeFlowPairs (opened : Mark) (first : Bool) (s : Composing) :
    (fuel : Nat) → List (Node × Node) × Composing
  | 0 => ([(.broken, .broken)], s.fail .endOfStream)
  | fuel + 1 =>
    match composeSeparator opened first .flowMappingEnd "while parsing a flow mapping"
        "did not find expected ',' or '\x7d'" s with
    | (none, s) => ([(.broken, .broken)], s)
    | (some t, s) =>
      match t.kind with
      | .flowMappingEnd => ([], s.skip.count)
      | .key =>
        let (key, s) := composeFlowKey s.skip fuel
        let (value, s) := composeFlowValue .flowMappingEnd s fuel
        let (pairs, s) := composeFlowPairs opened false s fuel
        ((key, value) :: pairs, s)
      | _ =>
        let (key, s) := composeNode false false s fuel
        let (value, s) :=
          match s.peek with
          | (none, s) => (.broken, s)
          | (some t, s) => s.empty t.start
        let (pairs, s) := composeFlowPairs opened false s fuel
        ((key, value) :: pairs, s)

/-- The key behind a key token inside brackets. -/
def composeFlowKey (s : Composing) : (fuel : Nat) → Node × Composing
  | 0 => (.broken, s.fail .endOfStream)
  | fuel + 1 =>
    match s.peek with
    | (none, s) => (.broken, s)
    | (some t, s) =>
      if [Token.Kind.value, .flowEntry, .flowMappingEnd].contains t.kind then s.empty t.start
      else composeNode false false s fuel

end

namespace Composing

def usualTags : List (String × String) := [("!", "!"), ("!!", "tag:yaml.org,2002:")]

def directives (versionSeen : Bool) (given : List (String × String)) (s : Composing) :
    (fuel : Nat) → Composing
  | 0 => s.fail .endOfStream
  | fuel + 1 =>
    match s.peek with
    | (none, s) => s
    | (some t, s) =>
      match t.kind with
      | .version major minor =>
        if versionSeen then s.fail (.malformed "found duplicate %YAML directive" t.start none)
        else if major ≠ 1 || (minor ≠ 1 && minor ≠ 2) then
          s.fail (.malformed "found incompatible YAML document" t.start none)
        else directives true given s.skip fuel
      | .tagDirective handle leading =>
        if (given.lookup handle).isSome then
          s.fail (.malformed "found duplicate %TAG directive" t.start none)
        else directives versionSeen ((handle, leading) :: given) s.skip fuel
      | _ => { s with tags := given ++ usualTags }

/-- Ends a document: its marker is optional. -/
def documentEnd (s : Composing) : Composing :=
  match s.peek with
  | (some ⟨.documentEnd, _, _⟩, s) => s.skip
  | (_, s) => s

def fresh (s : Composing) : Composing :=
  { s with tags := usualTags, names := [], anchored := [], size := 0 }

def document (root : Node) (s : Composing) : Document :=
  ⟨root, s.problem, s.anchored, s.size⟩

def content (s : Composing) (fuel : Nat) : Node × Composing :=
  match s.peek with
  | (none, s) => (.broken, s)
  | (some t, s) =>
    match t.kind with
    | .version _ _ | .tagDirective _ _ | .documentStart | .documentEnd | .streamEnd => s.empty t.start
    | _ => composeNode true false s fuel

def explicitDocument (s : Composing) (fuel : Nat) : Node × Composing :=
  let s := s.directives false [] fuel
  match s.peek with
  | (none, s) => (.broken, s)
  | (some ⟨.documentStart, _, _⟩, s) =>
    let (root, s) := s.skip.content fuel
    (root, s.documentEnd)
  | (some t, s) =>
    (.broken, s.fail (.malformed "did not find expected <document start>" t.start none))

def skipDocumentEnds (s : Composing) : Composing :=
  { s with tokens := s.tokens.dropWhile (·.kind == .documentEnd) }

/-- The documents that follow; after one with a problem there are no more. -/
def documents (first : Bool) (s : Composing) : (fuel : Nat) → List Document
  | 0 => []
  | fuel + 1 =>
    let s := (if first then s else s.skipDocumentEnds).fresh
    let (root, s') :=
      match s.peek with
      | (none, s) => (Node.broken, s)
      | (some t, s) =>
        match t.kind with
        | .streamEnd => (.void t.start, s)
        | .version _ _ | .tagDirective _ _ | .documentStart => s.explicitDocument (fuel + 1)
        | _ =>
          if first then
            let (root, s) := composeNode true false s (fuel + 1)
            (root, s.documentEnd)
          else s.explicitDocument (fuel + 1)
    match root with
    | .void m => if first then [document (.void m) s'] else []
    | _ => document root s' :: (if s'.problem.isSome then [] else s'.documents false fuel)

end Composing

/-- The documents of a text. An empty text has one, which is nothing at all. -/
def documentsOf (b : Bytes) : List Document :=
  let tokens := tokensOf b
  Composing.documents true { tokens := tokens.list, ending := tokens.problem }
    (4 * tokens.list.length + 8)

end Rollout.Yaml
