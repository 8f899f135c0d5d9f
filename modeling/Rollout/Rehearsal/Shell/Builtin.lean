import Rollout.Rehearsal.Shell.Runner

/-!
# Commands of the shell

The commands a script may use without bringing them along: those of the shell itself, and the few
programs that every machine has.
-/

namespace Rollout.Shell

/-! ## Writing text -/

/-- Up to `n` digits in base eight, and what follows. -/
def readOctal (n : Nat) (cs : List Char) : Nat × List Char :=
  let digits := (cs.take n).takeWhile fun c => '0' ≤ c && c ≤ '7'
  (digits.foldl (fun v d => 8 * v + (d.toNat - 48)) 0, cs.drop digits.length)

/-- What the escape that starts with `c` stands for, and what follows it; `\c` ends the text. -/
def readEscape (octalZero : Bool) (c : Char) (rest : List Char) : Option (Bytes × List Char) :=
  if c == 'a' then some ([7], rest)
  else if c == 'b' then some ([8], rest)
  else if c == 'f' then some ([12], rest)
  else if c == 'n' then some ([10], rest)
  else if c == 'r' then some ([13], rest)
  else if c == 't' then some ([9], rest)
  else if c == 'v' then some ([11], rest)
  else if c == '\\' then some ([92], rest)
  else if c == 'c' then none
  else if '0' ≤ c && c ≤ '7' && (!octalZero || c == '0') then
    let (n, rest) := readOctal 3 (if octalZero then rest else c :: rest)
    some ([UInt8.ofNat n], rest)
  else some (.ofText (String.ofList ['\\', c]), rest)

def unescape (cs : List Char) : (fuel : Nat) → Bytes
  | 0 => []
  | fuel + 1 =>
    match cs with
    | [] => []
    | '\\' :: c :: rest =>
      match readEscape true c rest with
      | some (b, rest) => b ++ unescape rest fuel
      | none => []
    | c :: rest => .ofText (String.singleton c) ++ unescape rest fuel

def echo (args : List String) : Bytes :=
  let (line, args) : Bytes × List String := match args with
    | "-n" :: rest => ([], rest)
    | args => ([10], args)
  let text := " ".intercalate args
  unescape text.toList (text.length + 1) ++ line

/-- A text in a place of some width. -/
def fillPlace (place : List Char) (text : List Char) : List Char :=
  let left := place.contains '-'
  let digits := place.dropWhile fun c => c == '-' || c == '+'
  let width := (String.ofList digits).toNat?.getD 0
  let gap := List.replicate (width - text.length) (if digits.head? == some '0' && !left then '0' else ' ')
  if left then text ++ gap else gap ++ text

def showArgument (kind : Char) (place : List Char) (arg : Option String) : Option Bytes :=
  let plain (text : List Char) : Option Bytes := some (.ofText (String.ofList (fillPlace place text)))
  if kind == 's' then plain (arg.getD "").toList
  else if kind == 'c' then plain ((arg.getD "").toList.take 1)
  else if kind == 'd' || kind == 'i' || kind == 'u' then
    plain (toString (((arg.getD "0").toInt?).getD 0)).toList
  else if kind == 'o' then plain (Nat.toDigits 8 ((arg.getD "0").toNat?.getD 0))
  else if kind == 'x' then plain (Nat.toDigits 16 ((arg.getD "0").toNat?.getD 0))
  else if kind == 'b' then some (unescape (arg.getD "").toList ((arg.getD "").length + 1))
  else none

/-- Goes through a format once: what it writes, the arguments that are left, and whether it goes on. -/
def fillFormat (cs : List Char) (args : List String) : (fuel : Nat) → Bytes × List String × Bool
  | 0 => ([], args, true)
  | fuel + 1 =>
    let more (b : Bytes) (rest : List Char) (args : List String) : Bytes × List String × Bool :=
      let (after, left) := fillFormat rest args fuel
      (b ++ after, left)
    match cs with
    | [] => ([], args, true)
    | '%' :: '%' :: rest => more [37] rest args
    | '%' :: rest =>
      let place := rest.takeWhile fun c => c.isDigit || c == '-' || c == '+'
      match rest.drop place.length with
      | kind :: rest =>
        match showArgument kind place args.head? with
        | some b => more b rest args.tail
        | none => ([], args, false)
      | [] => ([], args, false)
    | '\\' :: c :: rest =>
      match readEscape false c rest with
      | some (b, rest) => more b rest args
      | none => ([], args, false)
    | c :: rest => more (.ofText (String.singleton c)) rest args

/-- Goes through a format until no argument is left. -/
def fillAll (cs : List Char) (args : List String) : (fuel : Nat) → Bytes
  | 0 => []
  | fuel + 1 =>
    let (b, left, goesOn) := fillFormat cs args (cs.length + 1)
    if goesOn && left.length < args.length && !left.isEmpty then b ++ fillAll cs left fuel else b

def printf (args : List String) : Bytes :=
  let args := match args with
    | "--" :: rest => rest
    | args => args
  match args with
  | [] => []
  | format :: args => fillAll format.toList args (args.length + 1)

/-! ## Paths and files -/

def dirname (path : String) : String :=
  let cs := path.toList.reverse
  if !cs.contains '/' then "."
  else
    match (cs.dropWhile (· != '/')).dropWhile (· == '/') with
    | [] => "/"
    | rest => String.ofList rest.reverse

/-- The last name of a path, without an ending. -/
def basename (path ending : String) : String :=
  let cs := path.toList.reverse.dropWhile (· == '/')
  let name := (cs.takeWhile (· != '/')).reverse
  let kept := name.length - ending.length
  if kept ≠ 0 ∧ name.drop kept = ending.toList then String.ofList (name.take kept)
  else String.ofList name

/-- Why a file could not be used, without the number of the reason. -/
def reason (fault : Fault) : String := (fault.message.splitOn " (os error").headD ""

/-- The input, or what is in the files; names a failure for each file that could not be read. -/
def gather (s : Runner) (program : String) (names : List String) : Bytes × Runner :=
  if names.isEmpty then (s.input, { s with input := [], status := 0 })
  else
    names.foldl
      (fun (b, s) name =>
        match if name == "-" then .ok s.input else Files.readFile s.root s.cwd name with
        | .ok content => (b ++ content, s)
        | .error fault => (b, { s.complain s!"{program}: {name}: {reason fault}" with status := 1 }))
      ([], { s with status := 0 })

/-- Writes what a program makes of its input or of files. -/
def filter (s : Runner) (program : String) (names : List String) (f : Bytes → Bytes) :
    Runner × Ending :=
  let (b, s) := gather s program names
  (s.write (f b), .goesOn)

def linesOf (b : Bytes) : List Bytes :=
  b.foldr
    (fun x lines =>
      if x == 10 then [x] :: lines
      else match lines with
        | [] => [[x]]
        | line :: rest => (x :: line) :: rest)
    []

/-- How much of the input is asked for: whether in bytes or in lines, and the files. -/
def readAmount : List String → Bool × Nat × List String
  | "-c" :: n :: rest => (true, n.toNat?.getD 0, rest)
  | "-n" :: n :: rest => (false, n.toNat?.getD 0, rest)
  | option :: rest =>
    match option.toList with
    | '-' :: 'c' :: n => (true, (String.ofList n).toNat?.getD 0, rest)
    | '-' :: 'n' :: n => (false, (String.ofList n).toNat?.getD 0, rest)
    | '-' :: n => (false, (String.ofList n).toNat?.getD 0, rest)
    | _ => (false, 10, option :: rest)
  | [] => (false, 10, [])

def head (s : Runner) (args : List String) : Runner × Ending :=
  let (ofBytes, n, names) := readAmount args
  if ofBytes && names == ["/dev/zero"] then (s.write (List.replicate n 0)).succeed
  else if ofBytes && names.isEmpty then
    { s.write (s.input.take n) with input := s.input.drop n }.succeed
  else filter s "head" names fun b => if ofBytes then b.take n else ((linesOf b).take n).flatten

def tail (s : Runner) (args : List String) : Runner × Ending :=
  let (ofBytes, n, names) := readAmount args
  filter s "tail" names fun b =>
    if ofBytes then b.drop (b.length - n)
    else ((linesOf b).drop ((linesOf b).length - n)).flatten

def wordCount (b : Bytes) : Nat :=
  ((b.splitOnP fun x => x == 32 || (9 ≤ x && x ≤ 13)).filter (· ≠ [])).length

def count (s : Runner) (args : List String) : Runner × Ending :=
  let options := args.filter fun a => a.startsWith "-"
  let measure (b : Bytes) : Nat :=
    if options.contains "-c" || options.contains "-m" then b.length
    else if options.contains "-w" then wordCount b
    else b.count 10
  match args.filter fun a => !a.startsWith "-" with
  | [] => filter s "wc" [] fun b => .ofText s!"{measure b}\n"
  | names =>
    let name := " ".intercalate names
    filter s "wc" names fun b => .ofText s!"{measure b} {name}\n"

def readSet (cs : List Char) : (fuel : Nat) → List Nat
  | 0 => []
  | fuel + 1 =>
    match cs with
    | [] => []
    | '\\' :: c :: rest =>
      match readEscape false c rest with
      | some (b, rest) => b.map UInt8.toNat ++ readSet rest fuel
      | none => []
    | a :: '-' :: b :: rest =>
      (List.range (b.toNat + 1 - a.toNat)).map (a.toNat + ·) ++ readSet rest fuel
    | c :: rest => c.toNat :: readSet rest fuel

/-- Works on lines without the breaks at their ends, which are put back. -/
def onLines (f : List String → List String) (b : Bytes) : Bytes :=
  let lines := (linesOf b).map fun l => (Bytes.text? (l.filter (· ≠ 10))).getD ""
  .ofText (String.join ((f lines).map (· ++ "\n")))

def grep (s : Runner) (args : List String) : Runner × Ending :=
  let options := args.filter fun a => a.startsWith "-"
  match args.filter fun a => !a.startsWith "-" with
  | text :: names =>
    let (b, s) := gather s "grep" names
    let has (line : Bytes) : Bool :=
      ((Bytes.text? line).getD "").contains text != options.contains "-v"
    let found := (linesOf b).filter has
    let output : Bytes :=
      if options.contains "-q" then []
      else if options.contains "-c" then .ofText s!"{found.length}\n"
      else found.flatten
    (s.write output).fail (if found.isEmpty then 1 else 0)
  | [] => s.fail 2

/-- Puts one text for another, once a line or everywhere. -/
def substitute (command line : String) : String :=
  match command.splitOn "/" with
  | ["s", old, new, flags] =>
    match line.splitOn old with
    | first :: next :: rest =>
      if flags == "g" then new.intercalate (first :: next :: rest)
      else first ++ new ++ old.intercalate (next :: rest)
    | _ => line
  | _ => line

/-- The parts of a line that are asked for by their numbers. -/
def cutLine (options : List String) (line : String) : String :=
  let value (c : Char) : Option String :=
    options.findSome? fun o =>
      match o.toList with
      | '-' :: d :: v => if d == c then some (String.ofList v) else none
      | _ => none
  let chosen (parts : List String) (ranges : String) : List String :=
    let wanted := ranges.splitOn ","
    (parts.zipIdx.filter fun (_, i) =>
      wanted.any fun r =>
        match r.splitOn "-" with
        | [n] => n.toNat? == some (i + 1)
        | [a, b] => a.toNat?.getD 1 ≤ i + 1 && i + 1 ≤ b.toNat?.getD parts.length
        | _ => false).map Prod.fst
  match value 'f', value 'c' with
  | some fields, _ =>
    let mark := (value 'd').getD "\t"
    mark.intercalate (chosen (line.splitOn mark) fields)
  | none, some places => String.join (chosen (line.toList.map String.singleton) places)
  | none, none => line

def translate (b : Bytes) : List String → Bytes
  | ["-d", set] =>
    let out := readSet set.toList (set.length + 1)
    b.filter fun x => !out.contains x.toNat
  | [source, target] =>
    let source := readSet source.toList (source.length + 1)
    let target := readSet target.toList (target.length + 1)
    b.map fun x =>
      match source.idxOf? x.toNat with
      | some i => UInt8.ofNat ((target[i]?.or target.getLast?).getD x.toNat)
      | none => x
  | _ => b

def onFiles (s : Runner) (names : List String) (f : Runner → String → Except Fault Files.Item)
    (complaint : String → Fault → String) : Runner × Ending :=
  names.foldl
    (fun (s, e) name =>
      match f s name with
      | .ok root => ({ s with root }, e)
      | .error fault => ({ s.complain (complaint name fault) with status := 1 }, e))
    s.succeed

def remove (s : Runner) (args : List String) : Runner × Ending :=
  let options := args.filter fun a => a.startsWith "-"
  let forced := options.any fun o => o.toList.contains 'f'
  onFiles s (args.filter fun a => !a.startsWith "-")
    (fun s name =>
      match Files.lookup s.root s.cwd name, Files.locate s.root s.cwd name with
      | .ok _, .ok place => .ok (s.root.erase place.reverse)
      | .error fault, _ | _, .error fault => if forced then .ok s.root else .error fault)
    (fun name fault => s!"rm: cannot remove '{name}': {reason fault}")

def copy (s : Runner) (program : String) (moved : Bool) (args : List String) : Runner × Ending :=
  match args.filter fun a => !a.startsWith "-" with
  | [source, target] =>
    let isDir := ((Files.lookup s.root s.cwd target).map Files.Item.isDirectory).toOption.getD false
    let target := if isDir then joinPath target (basename source "") else target
    match Files.lookup s.root s.cwd source, Files.locate s.root s.cwd source,
        Files.locate s.root s.cwd target with
    | .ok item, .ok origin, .ok place =>
      let root := s.root.put item place.reverse
      { s with root := if moved then root.erase origin.reverse else root }.succeed
    | .error fault, _, _ =>
      s.complain s!"{program}: cannot stat '{source}': {reason fault}" |>.fail 1
    | _, _, _ => s.fail 1
  | _ => s.fail 1

/-- Sets names to the words of a line of the input; the last one takes what is left. -/
def readLine (s : Runner) (names : List String) : Runner × Ending :=
  let names := names.filter (· ≠ "-r")
  let line := s.input.takeWhile (· ≠ 10)
  let rest := s.input.drop line.length
  let fits : List (List Char) :=
    (((Bytes.text? line).getD "").toList.splitOnP isBlank).filter (· ≠ [])
  let assign (s : Runner) (i : Nat) (name : String) : Runner :=
    let words := if i + 1 = names.length then fits.drop i else (fits.drop i).take 1
    s.assign name (" ".intercalate (words.map String.ofList))
  let s := names.zipIdx.foldl (fun s (name, i) => assign s i name) { s with input := rest.tail }
  s.fail (if rest.isEmpty then 1 else 0)

/-! ## Conditions -/

def compareNumbers (a b : String) (f : Int → Int → Bool) : Bool :=
  match a.toInt?, b.toInt? with
  | some a, some b => f a b
  | _, _ => false

def simpleCondition (s : Runner) : List String → Bool
  | "!" :: rest => !simpleCondition s rest
  | ["-n", t] => !t.isEmpty
  | ["-z", t] => t.isEmpty
  | ["-e", p] | ["-r", p] | ["-w", p] => (Files.lookup s.root s.cwd p).isOk
  | ["-f", p] => (Files.readFile s.root s.cwd p).isOk
  | ["-s", p] => !((Files.readFile s.root s.cwd p).toOption.getD []).isEmpty
  | ["-x", p] => (runnable s.root s.cwd p).isOk
  | ["-d", p] => ((Files.lookup s.root s.cwd p).map Files.Item.isDirectory).toOption.getD false
  | [a, "=", b] => a == b
  | [a, "!=", b] => a != b
  | [a, "-eq", b] => compareNumbers a b (· == ·)
  | [a, "-ne", b] => compareNumbers a b (· != ·)
  | [a, "-lt", b] => compareNumbers a b fun a b => a < b
  | [a, "-le", b] => compareNumbers a b fun a b => a ≤ b
  | [a, "-gt", b] => compareNumbers a b fun a b => b < a
  | [a, "-ge", b] => compareNumbers a b fun a b => b ≤ a
  | [t] => !t.isEmpty
  | _ => false

/-- Is a condition true? `-a` joins stronger than `-o`. -/
def condition (s : Runner) (args : List String) : Bool :=
  (args.splitOnP (· == "-o")).any fun part => (part.splitOnP (· == "-a")).all (simpleCondition s)

def tested (s : Runner) (program : String) (args : List String) : Runner × Ending :=
  match args with
  | [a, "==", _] => s.report s!"{program}: {a}: unexpected operator" |>.fail 2
  | args => if condition s args then s.succeed else s.fail 1

/-! ## All of them -/

/-- The number of a signal, given with its number or its name. -/
def signalOf (text : String) : Nat :=
  match text.toNat? with
  | some n => n
  | none =>
    ((List.range 32).find? fun n =>
      ExitStatus.signalName n == s!" (SIG{text})" || ExitStatus.signalName n == s!" ({text})").getD 15

def kill (s : Runner) : List String → Runner × Ending
  | ["-s", signal, target] =>
    if target == Runner.processId then (s, .killed (signalOf signal)) else s.fail 1
  | [signal, target] =>
    if target == Runner.processId then
      (s, .killed (signalOf (String.ofList (signal.toList.drop 1))))
    else s.fail 1
  | [target] => if target == Runner.processId then (s, .killed 15) else s.fail 1
  | _ => s.fail 1

def assignAll (s : Runner) (words : List String) : Runner :=
  words.foldl
    (fun s w =>
      match w.splitOn "=" with
      | name :: v :: rest => s.assign name ("=".intercalate (v :: rest))
      | _ => s)
    s

def numbers (args : List String) : List Int :=
  let between (a b : Int) : List Int := (List.range (b + 1 - a).toNat).map fun (i : Nat) => a + i
  match args.map fun a => a.toInt?.getD 0 with
  | [b] => between 1 b
  | [a, b] => between a b
  | [a, step, b] => (between a b).filter fun n => (n - a).tmod (max 1 step) = 0
  | _ => []

/-- A command that needs no script. -/
def builtin? (s : Runner) (name : String) (args : List String) : Option (Runner × Ending) :=
  match name with
  | ":" | "true" | "sleep" | "trap" | "umask" | "wait" | "chmod" | "sync" => some s.succeed
  | "false" => some (s.fail 1)
  | "set" =>
    let words := (args.dropWhile (· ≠ "--")).tail
    let s := if args.contains "--" then { s with args := words } else s
    let strict := args.any fun a => a.startsWith "-" && a.toList.contains 'e'
    some { s with strict := s.strict || strict }.succeed
  | "export" | "readonly" | "local" => some (assignAll s args).succeed
  | "echo" => some (s.write (echo args)).succeed
  | "printf" => some (s.write (printf args)).succeed
  | "cat" => some (filter s "cat" args id)
  | "head" => some (head s args)
  | "tail" => some (tail s args)
  | "wc" => some (count s args)
  | "grep" => some (grep s args)
  | "sed" =>
    some (filter s "sed" (args.drop 1) (onLines (·.map (substitute (args.headD "")))))
  | "cut" => some (filter s "cut" [] (onLines (·.map (cutLine args))))
  | "rev" => some (filter s "rev" args (onLines (·.map fun l => String.ofList l.toList.reverse)))
  | "sort" => some (filter s "sort" args (onLines (·.mergeSort (· ≤ ·))))
  | "tr" => some (filter s "tr" [] fun b => translate b args)
  | "tee" =>
    let append := args.head? == some "-a"
    let (b, s) := gather s "tee" []
    some (onFiles (s.write b) (if append then args.tail else args)
      (fun s name =>
        Files.changeFile s.root s.cwd name false fun old => if append then old ++ b else b)
      (fun name fault => s!"tee: {name}: {reason fault}"))
  | "rm" => some (remove s args)
  | "cp" => some (copy s "cp" false args)
  | "mv" => some (copy s "mv" true args)
  | "touch" =>
    some (onFiles s args (fun s name => Files.changeFile s.root s.cwd name false id)
      (fun name fault => s!"touch: cannot touch '{name}': {reason fault}"))
  | "mkdir" =>
    some (onFiles s (args.filter (· ≠ "-p")) (fun s name => Files.makeDirectory s.root s.cwd name)
      (fun name fault => s!"mkdir: cannot create directory '{name}': {reason fault}"))
  | "pwd" => some (s.write (.ofText ("/" ++ "/".intercalate s.cwd.reverse ++ "\n"))).succeed
  | "seq" => some (s.write (.ofText (String.join ((numbers args).map (s!"{·}\n"))))).succeed
  | "read" => some (readLine s args)
  | "dirname" => some (s.write (.ofText (dirname (args.headD "") ++ "\n"))).succeed
  | "basename" => some (s.write (.ofText (basename (args.headD "") (args.tail.headD "") ++ "\n"))).succeed
  | "test" => some (tested s "test" args)
  | "[" => some (tested s "[" args.dropLast)
  | "shift" => some { s with args := s.args.drop ((args.headD "1").toNat?.getD 1) }.succeed
  | "unset" =>
    some { s with assigned := s.assigned.filter fun (name, _) => !args.contains name }.succeed
  | "exit" | "return" =>
    let status := match args with
      | n :: _ => n.toNat?.getD 2
      | [] => s.status
    some ({ s with status := status % 256 }, if name == "exit" then .exits else .returns)
  | "break" => some (s, .breaks)
  | "continue" => some (s, .continues)
  | "kill" => some (kill s args)
  | "cd" =>
    match Files.lookup s.root s.cwd (args.headD "/"), Files.locate s.root s.cwd (args.headD "/") with
    | .ok (.directory _), .ok cwd => some { s with cwd }.succeed
    | _, _ => some (s.report ("cd: can't cd to " ++ args.headD "") |>.fail 2)
  | _ => none

/-- The programs among them, which may also be run on their own. -/
def programs : List String :=
  ["basename", "cat", "chmod", "cp", "cut", "dirname", "echo", "env", "false", "grep", "head", "mkdir",
    "mv", "printf", "pwd", "rev", "rm", "sed", "seq", "sh", "sleep", "sort", "tail", "tee", "test",
    "touch", "tr", "true", "wc"]

end Rollout.Shell
