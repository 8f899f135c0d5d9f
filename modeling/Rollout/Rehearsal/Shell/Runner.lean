import Rollout.Files.Exit
import Rollout.Files.System
import Rollout.Files.Tree
import Rollout.Rehearsal.Shell.Command

/-!
# A shell at work

What a shell knows while it runs a script, the values of its parameters, and how words become fields.
-/

namespace Rollout.Shell

/-! ## Wildcards -/

/-- The characters in brackets, with ranges: whether they are the ones meant, and how long it all is. -/
def readClass (pattern : List (Char × Bool)) : Bool × List (Char × Char) × Nat :=
  let cs := pattern.map Prod.fst
  let others := cs.head? == some '!' || cs.head? == some '^'
  let body := if others then cs.tail else cs
  let inside := match body with
    | ']' :: rest => ']' :: rest.takeWhile (· != ']')
    | cs => cs.takeWhile (· != ']')
  (!others, ranges inside, (if others then 1 else 0) + inside.length + 1)
where
  ranges : List Char → List (Char × Char)
    | a :: '-' :: b :: rest => (a, b) :: ranges rest
    | a :: rest => (a, a) :: ranges rest
    | [] => []

/-- Does a text fit wildcards? A character that was quoted stands for itself. -/
def fits (pattern : List (Char × Bool)) (s : List Char) : Bool :=
  match pattern, s with
  | [], s => s.isEmpty
  | ('*', true) :: p, [] => fits p []
  | ('*', true) :: p, c :: rest => fits p (c :: rest) || fits (('*', true) :: p) rest
  | ('?', true) :: p, _ :: rest => fits p rest
  | (c, true) :: p, d :: rest =>
    if c == '[' && p.any (·.1 == ']') then
      let (meant, ranges, n) := readClass p
      (ranges.any (fun (a, b) => a ≤ d && d ≤ b) == meant) && fits (p.drop n) rest
    else c == d && fits p rest
  | (c, false) :: p, d :: rest => c == d && fits p rest
  | _ :: _, [] => false
termination_by pattern.length + s.length
decreasing_by all_goals (simp only [List.length_cons, List.length_drop, List.length_nil]; omega)

/-- Does a text fit wildcards none of which was quoted? -/
def fitsText (pattern s : List Char) : Bool := fits (pattern.map fun c => (c, true)) s

/-- A text without the shortest or longest start, or end, that fits wildcards. -/
def trimmed (s : List Char) (atEnd longest : Bool) (pattern : List Char) : List Char :=
  let cuts := List.range (s.length + 1)
  let cut? :=
    if atEnd then
      ((if longest then cuts else cuts.reverse).find? fun n => fitsText pattern (s.drop n)).map s.take
    else
      ((if longest then cuts.reverse else cuts).find? fun n => fitsText pattern (s.take n)).map s.drop
  cut?.getD s

/-- How a command leaves the script. -/
inductive Ending where
  | goesOn
  | exits
  /-- It leaves the loop, or only this round. -/
  | breaks
  | continues
  /-- It leaves the function. -/
  | returns
  | killed (signal : Nat)
  deriving DecidableEq, Repr

structure Runner where
  root : Files.Item
  cwd : Files.Place
  searchPath : List String
  name : String
  args : List String
  assigned : List (String × String) := []
  functions : List (String × Command) := []
  input : Bytes := []
  output : Bytes := []
  errors : Bytes := []
  status : Nat := 0
  /-- Does a failure end the script? -/
  strict : Bool := false
  /-- The line breaks of the script. -/
  lines : Nat := 0
  /-- The line of the command that runs. -/
  line : Nat := 1

namespace Runner

def write (s : Runner) (b : Bytes) : Runner := { s with output := s.output ++ b }

def complain (s : Runner) (text : String) : Runner :=
  { s with errors := s.errors ++ .ofText (text ++ "\n") }

/-- Complains as the shell itself, with the place in the script. -/
def report (s : Runner) (text : String) : Runner := s.complain s!"{s.name}: {s.line}: {text}"

def succeed (s : Runner) : Runner × Ending := ({ s with status := 0 }, .goesOn)

def fail (s : Runner) (status : Nat) : Runner × Ending := ({ s with status }, .goesOn)

def assign (s : Runner) (name value : String) : Runner :=
  { s with assigned := (name, value) :: s.assigned }

/-- The number a script knows itself by. -/
def processId : String := "4242"

def value? (s : Runner) (name : List Char) : Option String :=
  match name with
  | ['@'] | ['*'] => some (" ".intercalate s.args)
  | ['#'] => some (toString s.args.length)
  | ['?'] => some (toString s.status)
  | ['$'] => some processId
  | ['!'] => none
  | ['0'] => some s.name
  | _ =>
    if name.all Char.isDigit then s.args[(String.ofList name).toNat?.getD 0 - 1]?
    else s.assigned.lookup (String.ofList name)

/-- The value of a parameter. Behind a name `-` gives a value for a parameter without one; with a colon
in front, for an empty one too. `#` and `%` cut off a start or an end that fits wildcards. A `#` in front
of the name asks for the length. -/
def parameter (s : Runner) (name : List Char) : String :=
  let plain := match name.takeWhile isNameChar with
    | [] => name.take 1
    | plain => plain
  match name.drop plain.length with
  | [] => (s.value? plain).getD ""
  | ':' :: '-' :: other =>
    if ((s.value? plain).getD "").isEmpty then String.ofList other else (s.value? plain).getD ""
  | '-' :: other => (s.value? plain).getD (String.ofList other)
  | other =>
    let cut (atEnd longest : Bool) (pattern : List Char) : String :=
      String.ofList (trimmed ((s.value? plain).getD "").toList atEnd longest pattern)
    if plain == ['#'] then toString ((s.value? other).getD "").length
    else match other with
      | '%' :: '%' :: pattern => cut true true pattern
      | '%' :: pattern => cut true false pattern
      | '#' :: '#' :: pattern => cut false true pattern
      | '#' :: pattern => cut false false pattern
      | _ => ""

end Runner

/-! ## Sums -/

def readFactor (s : Runner) (cs : List Char) : Int × List Char :=
  let cs := cs.dropWhile isBlank
  let (sign, cs) : Int × List Char := match cs with
    | '-' :: rest => (-1, rest)
    | cs => (1, cs)
  let cs := cs.dropWhile fun c => c == '$' || isBlank c
  let name := cs.takeWhile isNameChar
  let text := if name.head?.any Char.isDigit then String.ofList name else s.parameter name
  (sign * (text.toInt?.getD 0), cs.drop name.length)

def arithmetic (s : Runner) (total product : Int) (cs : List Char) : (fuel : Nat) → Int
  | 0 => total + product
  | fuel + 1 =>
    let next (cs : List Char) := readFactor s cs
    match cs.dropWhile isBlank with
    | '+' :: rest => arithmetic s (total + product) (next rest).1 (next rest).2 fuel
    | '-' :: rest => arithmetic s (total + product) (-(next rest).1) (next rest).2 fuel
    | '*' :: rest => arithmetic s total (product * (next rest).1) (next rest).2 fuel
    | '/' :: rest => arithmetic s total (product.tdiv (next rest).1) (next rest).2 fuel
    | '%' :: rest => arithmetic s total (product.tmod (next rest).1) (next rest).2 fuel
    | _ => total + product

def arithmeticText (s : Runner) (cs : List Char) : String :=
  let (first, rest) := readFactor s cs
  toString (arithmetic s 0 first rest rest.length)

/-! ## Words -/

/-- The fields of a word so far, the last one first, and the one that is being put together. -/
structure Fields where
  done : List String := []
  current : Option (List Char) := none

namespace Fields

def add (f : Fields) (cs : List Char) : Fields := { f with current := some (f.current.getD [] ++ cs) }

def endField (f : Fields) : Fields :=
  match f.current with
  | some cs => ⟨String.ofList cs :: f.done, none⟩
  | none => f

/-- Adds text that is split at blanks. -/
def addSplit (f : Fields) (cs : List Char) : Fields :=
  cs.foldl (fun f c => if isBlank c || c == '\n' then f.endField else f.add [c]) f

/-- Adds texts each of which stays a field of its own. -/
def addAll (f : Fields) : List String → Fields
  | [] => f
  | [s] => f.add s.toList
  | s :: rest => (f.add s.toList).endField.addAll rest

def toList (f : Fields) : List String := f.endField.done.reverse

end Fields

def fitsOne (text : String) (patterns : List Word) (s : Runner) : Bool :=
  patterns.any fun p =>
    let pattern := p.flatMap fun piece =>
      match piece with
      | .text cs quoted => cs.map fun c => (c, !quoted)
      | .param name quoted => (s.parameter name).toList.map fun c => (c, !quoted)
      | .output _ _ | .arithmetic _ => []
    fits pattern text.toList

/-- The assignment a word is, if it is one. -/
def assignment? (w : Word) : Option (String × Word) :=
  match w with
  | .text (c :: _) false :: _ =>
    let name := w.takeWhile fun p =>
      match p with
      | .text [c] false => isNameChar c
      | _ => false
    match w.drop name.length with
    | .text ['='] false :: value =>
      if name.isEmpty || c.isDigit then none
      else (plainText? name).map fun n => (n, value)
    | _ => none
  | _ => none

/-! ## Programs -/

def runnable (root : Files.Item) (cwd : Files.Place) (path : String) : Except Fault Files.Item := do
  match ← Files.lookup root cwd path with
  | .file content true secret => return .file content true secret
  | .program name => return .program name
  | _ => throw .permissionDenied

/-- Looks for a program along the search path. A place where it may not be run is passed over, but
remembered. -/
def search (root : Files.Item) (cwd : Files.Place) (program : String) (fault : Fault) :
    List String → Except Fault (String × Files.Item)
  | [] => .error fault
  | dir :: rest =>
    let path := joinPath dir program
    match runnable root cwd path with
    | .ok item => .ok (path, item)
    | .error .permissionDenied => search root cwd program .permissionDenied rest
    | .error _ => search root cwd program fault rest

/-- The program of a name; only a name without a slash is looked for. -/
def find (root : Files.Item) (cwd : Files.Place) (searchPath : List String) (program : String) :
    Except Fault (String × Files.Item) :=
  if program.toList.contains '/' then do return (program, ← runnable root cwd program)
  else search root cwd program .notFound searchPath

def lineWords (cs : List Char) : List (List Char) :=
  (cs.splitOnP fun c => isBlank c).filter (· ≠ [])

def namesShell (line : List Char) : Bool :=
  match lineWords (line.drop 2) with
  | program :: rest =>
    let name := (program.reverse.takeWhile (· != '/')).reverse
    let shells := ["sh".toList, "bash".toList, "dash".toList]
    shells.contains name || (name == "env".toList && rest.head?.any shells.contains)
  | [] => false

/-- A script, and whether a failure ends it. -/
structure Script where
  text : List Char
  strict : Bool

/-- The script in a file that may be run: what follows the line that names the shell. -/
def scriptOf (content : Bytes) : Except Fault Script :=
  match content.text? with
  | none => .error .execFormat
  | some text =>
    let cs := text.toList
    let first := cs.takeWhile (· != '\n')
    if !"#!".toList.isPrefixOf first then .error .execFormat
    else if namesShell first then
      .ok ⟨cs.dropWhile (· != '\n'), (lineWords first).any fun w => "-e".toList.isPrefixOf w⟩
    else .error .notFound

end Rollout.Shell
