/-!
# Places in a YAML text

A mark counts characters, lines and columns from zero; messages count lines and columns from one.
`Problem` is why a text or a value in it was refused.
-/

namespace Rollout.Yaml

structure Mark where
  index : Nat := 0
  line : Nat := 0
  column : Nat := 0
  deriving DecidableEq, Repr, Inhabited

namespace Mark

/-- The very first character has no place in messages. -/
def isStart (m : Mark) : Bool := m.line == 0 && m.column == 0

def text (m : Mark) : String := s!"line {m.line + 1} column {m.column + 1}"

def next (m : Mark) : Mark := { m with index := m.index + 1, column := m.column + 1 }

/-- The place after a line break of `chars` characters. -/
def nextLine (m : Mark) (chars : Nat) : Mark := ⟨m.index + chars, m.line + 1, 0⟩

end Mark

inductive Problem where
  /-- The text does not follow the grammar. -/
  | malformed (problem : String) (mark : Mark) (context : Option (String × Mark))
  /-- The bytes are no text that YAML allows. -/
  | unreadable (problem : String) (offset : Nat)
  /-- A value is not what was expected. -/
  | value (message : String) (path : String) (mark : Option Mark)
  | unknownAnchor (mark : Mark)
  | endOfStream
  | severalDocuments
  | tooDeep (mark : Mark)
  | tooManyAliases
  deriving DecidableEq, Repr

namespace Problem

def atMark (m : Mark) : String := if m.isStart then "" else " at " ++ m.text

def contextText (problem : Mark) : Option (String × Mark) → String
  | none => ""
  | some (context, mark) =>
    let same := mark.line == problem.line && mark.column == problem.column
    ", " ++ context ++ (if same then "" else atMark mark)

def message : Problem → String
  | malformed problem mark context => problem ++ atMark mark ++ contextText mark context
  | unreadable problem offset =>
    problem ++ (if offset == 0 then "" else s!" at position {offset}")
  | value message path mark =>
    (if path.isEmpty then message else path ++ ": " ++ message) ++ (mark.map atMark).getD ""
  | unknownAnchor mark => "unknown anchor" ++ atMark mark
  | endOfStream => "EOF while parsing a value"
  | severalDocuments =>
    "deserializing from YAML containing more than one document is not supported"
  | tooDeep mark => "recursion limit exceeded" ++ atMark mark
  | tooManyAliases => "repetition limit exceeded"

end Problem
end Rollout.Yaml
