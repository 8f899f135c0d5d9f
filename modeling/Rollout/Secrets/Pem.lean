import Rollout.Text.Base64

/-!
# PEM

Text in which binary objects stand between a line `-----BEGIN name-----` and the line
`-----END name-----`, in Base64. Whatever stands outside such blocks is passed over.
-/

namespace Rollout.Pem

structure Block where
  label : String
  /-- The lines in between, with their line breaks. -/
  body : List Char
  deriving DecidableEq, Repr

inductive Problem where
  | badStart (line : String)
  | noEnd (marker : String)
  | badBody
  deriving DecidableEq, Repr

def Problem.text : Problem → String
  | badStart line => s!"illegal section start: {line}"
  | noEnd marker => s!"section end {marker} missing"
  | badBody => "invalid base64"

/-- The blocks of a text up to the first problem, if there is one. -/
structure Reading where
  blocks : List Block
  problem : Option Problem := none

def linesOf : List Char → List (List Char)
  | [] => []
  | c :: rest =>
    if c == '\n' || c == '\r' then [c] :: linesOf rest
    else match linesOf rest with
      | [] => [[c]]
      | line :: lines => (c :: line) :: lines

def startMark : List Char := "-----BEGIN ".toList

def endMark (label : List Char) : List Char := "-----END ".toList ++ label ++ "-----".toList

/-- The label of a line that starts a block: five hyphens have to follow it. -/
def labelOf? (line : List Char) : Option (List Char) :=
  let ending := (line.reverse.dropWhile fun c => c == '\n' || c == '\r' || c == ' ')
  let hyphens := ending.takeWhile (· == '-')
  if hyphens.length = 5 then some ((ending.drop 5).reverse.drop startMark.length) else none

/-- Reads lines, inside a block if `label` is given; `body` is what has been read of it. -/
def read (label : Option (List Char)) (body : List Char) : List (List Char) → Reading
  | [] => ⟨[], label.map fun l => .noEnd (String.ofList (endMark l))⟩
  | line :: rest =>
    if startMark.isPrefixOf line then
      match labelOf? line with
      | some l => read (some l) body rest
      | none => ⟨[], some (.badStart (String.ofList line))⟩
    else match label with
      | none => read none [] rest
      | some l =>
        if (endMark l).isPrefixOf line then
          let more := read none [] rest
          { more with blocks := ⟨String.ofList l, body⟩ :: more.blocks }
        else read label (body ++ line) rest

def blocksOf (text : String) : Reading := read none [] (linesOf text.toList)

/-- The labels that stand for something. A block with another label is passed over unread. -/
def knownLabels : List String :=
  ["CERTIFICATE", "PUBLIC KEY", "RSA PRIVATE KEY", "PRIVATE KEY", "EC PRIVATE KEY", "X509 CRL",
    "CERTIFICATE REQUEST", "ECHCONFIG"]

/-- The labels of private keys. -/
def keyLabels : List String := ["RSA PRIVATE KEY", "PRIVATE KEY", "EC PRIVATE KEY"]

/-- The objects of all blocks; the first problem counts. -/
def objects (problem : Option Problem) : List Block → Except Problem (List (String × Bytes))
  | [] =>
    match problem with
    | some p => .error p
    | none => .ok []
  | b :: rest =>
    if knownLabels.contains b.label then
      match Base64.decode? b.body with
      | none => .error .badBody
      | some content => do return (b.label, content) :: (← objects problem rest)
    else objects problem rest

def certificates (text : String) : Except Problem (List Bytes) := do
  let r := blocksOf text
  return ((← objects r.problem r.blocks).filter (·.1 == "CERTIFICATE")).map (·.2)

/-- The first private key, if it stands before any problem. -/
def firstKey (problem : Option Problem) : List Block → Except Problem (Option Bytes)
  | [] =>
    match problem with
    | some p => .error p
    | none => .ok none
  | b :: rest =>
    if knownLabels.contains b.label then
      match Base64.decode? b.body with
      | none => .error .badBody
      | some content => if keyLabels.contains b.label then .ok (some content) else firstKey problem rest
    else firstKey problem rest

def privateKey (text : String) : Except Problem (Option Bytes) :=
  let r := blocksOf text
  firstKey r.problem r.blocks

/-- The object of the first block, whatever its label. -/
def firstObject? (text : String) : Option Bytes :=
  (blocksOf text).blocks.head?.bind fun b => Base64.decode? b.body

end Rollout.Pem
