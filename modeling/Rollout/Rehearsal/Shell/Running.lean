import Rollout.Rehearsal.Shell.Builtin

/-!
# Running shell commands

What a script does to a tree of files, and what it writes. The depth of calls between scripts and the
length of loops are bounded.
-/

namespace Rollout.Shell

/-- The output of a script without the line breaks at its end, as text. -/
def outputText (b : Bytes) : List Char :=
  ((b.text?.getD "").toList.reverse.dropWhile (· == '\n')).reverse

/-- Where one output of a command goes: to a file, or to an output of the shell. -/
inductive Sink where
  | file (name : String)
  | output
  | errors
  deriving DecidableEq, Repr

structure Sinks where
  output : Sink := .output
  errors : Sink := .errors
  /-- Is the input a file? Then the shell's own input is left as it is. -/
  ownInput : Bool := false

/-- Ends a strict script at a failure. -/
def orStop : Runner × Ending → Runner × Ending
  | (s, .goesOn) => if s.strict && s.status != 0 then (s, .exits) else (s, .goesOn)
  | ended => ended

/-- What lasts of a shell of its own, whose output is `output`. -/
def afterGroup (s inner : Runner) (output : Bytes) : Runner :=
  { s with
    root := inner.root, input := inner.input, output, errors := inner.errors, status := inner.status }

def deliver (b : Bytes) (sink : Sink) (cwd : Files.Place) (s : Runner) : Runner :=
  match sink with
  | .file name =>
    match Files.changeFile s.root cwd name false (· ++ b) with
    | .ok root => { s with root }
    | .error _ => s
  | .output => s.write b
  | .errors => { s with errors := s.errors ++ b }

def redirected (prepared : Option Sinks × Runner) (s : Runner) (work : Runner → Runner × Ending) :
    Runner × Ending :=
  match prepared with
  | (none, inner) => inner.fail 2
  | (some sinks, inner) =>
    let (after, e) := work { inner with output := [], errors := [] }
    let base := { after with
      output := s.output, errors := inner.errors
      input := if sinks.ownInput then s.input else after.input }
    (deliver after.errors sinks.errors s.cwd (deliver after.output sinks.output s.cwd base), e)

mutual

def expand (w : Word) (s : Runner) (f : Fields) : (fuel : Nat) → Fields × Runner
  | 0 => (f, s)
  | fuel + 1 =>
    match w with
    | [] => (f, s)
    | .text cs _ :: rest => expand rest s (f.add cs) fuel
    | .param ['@'] true :: rest => expand rest s (f.addAll s.args) fuel
    | .param name quoted :: rest =>
      let value := (s.parameter name).toList
      expand rest s (if quoted then f.add value else f.addSplit value) fuel
    | .output script quoted :: rest =>
      let (inner, _) := runScript ⟨script, s.strict⟩ { s with output := [] } fuel
      let s := { s with errors := inner.errors, root := inner.root, status := inner.status }
      let value := outputText inner.output
      expand rest s (if quoted then f.add value else f.addSplit value) fuel
    | .arithmetic text :: rest => expand rest s (f.add (arithmeticText s text).toList) fuel

def expandOne (w : Word) (s : Runner) : (fuel : Nat) → String × Runner
  | 0 => ("", s)
  | fuel + 1 =>
    let quoted : Word := w.map fun p =>
      match p with
      | .param name _ => .param (if name == ['@'] then ['*'] else name) true
      | .output script _ => .output script true
      | p => p
    let (f, s) := expand quoted s {} fuel
    (" ".intercalate f.toList, s)

def expandAll (ws : List Word) (s : Runner) : (fuel : Nat) → List String × Runner
  | 0 => ([], s)
  | fuel + 1 =>
    match ws with
    | [] => ([], s)
    | w :: rest =>
      let (f, s) := expand w s {} fuel
      let (more, s) := expandAll rest s fuel
      (f.toList ++ more, s)

/-- Prepares the redirections of a command: files are made or emptied, the input is read. -/
def prepare (rs : List Redirection) (s : Runner) (sinks : Sinks) :
    (fuel : Nat) → Option Sinks × Runner
  | 0 => (none, s)
  | fuel + 1 =>
    match rs with
    | [] => (some sinks, s)
    | .join d target :: rest =>
      let sink := if target = 1 then sinks.output else sinks.errors
      prepare rest s (if d = 1 then { sinks with output := sink } else { sinks with errors := sink }) fuel
    | .here w :: rest =>
      let (text, s) := expandOne w s fuel
      prepare rest { s with input := .ofText text } { sinks with ownInput := true } fuel
    | .input w :: rest =>
      let (name, s) := expandOne w s fuel
      match Files.readFile s.root s.cwd name with
      | .ok input => prepare rest { s with input } { sinks with ownInput := true } fuel
      | .error _ => (none, s.report s!"cannot open {name}: No such file")
    | .output d append w :: rest =>
      let (name, s) := expandOne w s fuel
      match Files.changeFile s.root s.cwd name false (if append then id else fun _ => []) with
      | .ok root =>
        let sink := .file name
        prepare rest { s with root }
          (if d = 1 then { sinks with output := sink } else { sinks with errors := sink }) fuel
      | .error _ => (none, s.report s!"cannot create {name}: Directory nonexistent")

/-- Runs a command whose failure is no failure of the script. -/
def runTested (c : Command) (s : Runner) : (fuel : Nat) → Runner × Ending
  | 0 => s.fail 2
  | fuel + 1 =>
    let (after, e) := run c { s with strict := false } fuel
    ({ after with strict := s.strict }, e)

def run (c : Command) (s : Runner) : (fuel : Nat) → Runner × Ending
  | 0 => s.fail 2
  | fuel + 1 =>
    match c with
    | .nothing => (s, .goesOn)
    | .seq a b =>
      match run a s fuel with
      | (s, .goesOn) => run b s fuel
      | ended => ended
    | .and a b =>
      match runTested a s fuel with
      | (s, .goesOn) => if s.status = 0 then run b s fuel else (s, .goesOn)
      | ended => ended
    | .or a b =>
      match runTested a s fuel with
      | (s, .goesOn) => if s.status = 0 then (s, .goesOn) else run b s fuel
      | ended => ended
    | .not a =>
      match runTested a s fuel with
      | (s, .goesOn) => s.fail (if s.status = 0 then 1 else 0)
      | ended => ended
    | .pipe a b =>
      let (first, _) := run a { s with output := [] } fuel
      let (next, e) :=
        run b { s with root := first.root, errors := first.errors, input := first.output } fuel
      let s := afterGroup s { next with input := first.input } next.output
      match e with
      | .killed n => (s, .killed n)
      | _ => orStop (s, .goesOn)
    | .choose w patterns body otherwise =>
      let (text, s) := expandOne w s fuel
      if fitsOne text patterns s then run body { s with status := 0 } fuel
      else run otherwise { s with status := 0 } fuel
    | .if condition yes no =>
      match runTested condition s fuel with
      | (s, .goesOn) =>
        if s.status = 0 then run yes s fuel else run no { s with status := 0 } fuel
      | ended => ended
    | .each name words body =>
      let (items, s) := expandAll words s fuel
      runEach name items body { s with status := 0 } fuel
    | .loop untilTrue condition body => runLoop untilTrue condition body 0 s fuel
    | .define name body => { s with functions := (name, body) :: s.functions }.succeed
    | .group c =>
      match run c s fuel with
      | (inner, .killed n) => (inner, .killed n)
      | (inner, _) => orStop (afterGroup s inner inner.output, .goesOn)
    | .redirected c rs => orStop (redirected (prepare rs s {} fuel) s fun s => run c s fuel)
    | .simple words rs linesAfter =>
      let s := { s with line := s.lines + 1 - linesAfter }
      orStop (redirected (prepare rs s {} fuel) s fun s => runSimple words s fuel)

def runEach (name : String) (items : List String) (body : Command) (s : Runner) :
    (fuel : Nat) → Runner × Ending
  | 0 => s.fail 2
  | fuel + 1 =>
    match items with
    | [] => (s, .goesOn)
    | item :: rest =>
      match run body (s.assign name item) fuel with
      | (s, .goesOn) | (s, .continues) => runEach name rest body s fuel
      | (s, .breaks) => (s, .goesOn)
      | ended => ended

/-- Runs a command as often as a condition asks; `last` is what it came to the last time. -/
def runLoop (untilTrue : Bool) (condition body : Command) (last : Nat) (s : Runner) :
    (fuel : Nat) → Runner × Ending
  | 0 => s.fail 2
  | fuel + 1 =>
    match runTested condition s fuel with
    | (s, .goesOn) =>
      if (s.status == 0) == untilTrue then s.fail last
      else
        match run body s fuel with
        | (s, .goesOn) | (s, .continues) => runLoop untilTrue condition body s.status s fuel
        | (s, .breaks) => s.succeed
        | ended => ended
    | ended => ended

/-- Runs a simple command: assignments, a function, or a program with its arguments. -/
def runSimple (words : List Word) (s : Runner) : (fuel : Nat) → Runner × Ending
  | 0 => s.fail 2
  | fuel + 1 =>
    match words with
    | [] => s.succeed
    | w :: rest =>
      match assignment? w with
      | some (name, value) =>
        let (text, s) := expandOne value { s with status := 0 } fuel
        let s := s.assign name text
        if rest.isEmpty then (s, .goesOn) else runSimple rest s fuel
      | none =>
        let (fields, s) := expandAll (w :: rest) s fuel
        match fields with
        | [] => (s, .goesOn)
        | name :: args =>
          match s.functions.lookup name with
          | some body =>
            let (after, e) := run body { s with args } fuel
            ({ after with args := s.args }, if e = .returns then .goesOn else e)
          | none => runProgram name args s fuel

/-- Runs a command of the shell, a program or another script. -/
def runProgram (name : String) (args : List String) (s : Runner) : (fuel : Nat) → Runner × Ending
  | 0 => s.fail 2
  | fuel + 1 =>
    match builtin? s name args, name, args with
    | some result, _, _ => result
    | none, "env", args => runSettings args s fuel
    | none, "exec", [] => s.succeed
    | none, "exec", program :: args =>
      match runProgram program args s fuel with
      | (s, .goesOn) => (s, .exits)
      | ended => ended
    | none, ".", path :: _ =>
      match Files.readFile s.root s.cwd path with
      | .ok content => runScript ⟨outputText content, s.strict⟩ s fuel
      | .error _ =>
        let (s, _) := s.report s!".: cannot open {path}: No such file" |>.fail 2
        (s, .exits)
    | none, "sh", args => runShell args s fuel
    | none, _, _ =>
      match find s.root s.cwd s.searchPath name with
      | .error .permissionDenied => s.report s!"{name}: Permission denied" |>.fail 126
      | .error _ => s.report s!"{name}: not found" |>.fail 127
      | .ok (_, .program "sh") => runShell args s fuel
      | .ok (_, .program program) => (builtin? s program args).getD (s.fail 2)
      | .ok (path, item) =>
        let content := match item with
          | .file content _ _ => content
          | _ => []
        match scriptOf content with
        | .ok script => runApart script path args s fuel
        | .error .execFormat => runApart ⟨outputText content, false⟩ path args s fuel
        | .error _ => s.report s!"{name}: not found" |>.fail 127

def runSettings (args : List String) (s : Runner) : (fuel : Nat) → Runner × Ending
  | 0 => s.fail 2
  | fuel + 1 =>
    match args with
    | [] => s.succeed
    | word :: rest =>
      if word.startsWith "-" then runSettings rest s fuel
      else if word.toList.contains '=' then runSettings rest (assignAll s [word]) fuel
      else runProgram word rest s fuel

/-- Runs what another shell is asked for: a script in words or in a file. -/
def runShell (args : List String) (s : Runner) : (fuel : Nat) → Runner × Ending
  | 0 => s.fail 2
  | fuel + 1 =>
    match args with
    | "-c" :: text :: args => runApart ⟨text.toList, false⟩ (args.headD "sh") args.tail s fuel
    | path :: args =>
      match Files.readFile s.root s.cwd path with
      | .ok content => runApart ⟨outputText content, false⟩ path args s fuel
      | .error _ => s.complain s!"sh: 0: cannot open {path}: No such file" |>.fail 2
    | [] => runApart ⟨outputText s.input, false⟩ "sh" [] { s with input := [] } fuel

/-- Runs a script in a shell of its own. -/
def runApart (script : Script) (name : String) (args : List String) (s : Runner) :
    (fuel : Nat) → Runner × Ending
  | 0 => s.fail 2
  | fuel + 1 =>
    let (inner, e) := runScript script { s with name, args } fuel
    let s := afterGroup s inner inner.output
    match e with
    | .killed n => s.fail (128 + n)
    | _ => (s, .goesOn)

def runScript (script : Script) (s : Runner) : (fuel : Nat) → Runner × Ending
  | 0 => s.fail 2
  | fuel + 1 =>
    match parse? script.text with
    | some (c, lines) => run c { s with status := 0, strict := script.strict, lines } fuel
    | none => s.complain s!"{s.name}: 1: Syntax error" |>.fail 2

end

/-- How deep commands and scripts may nest, and how long loops may be. -/
def depth : Nat := 100000

/-- What a script comes to: how it ended, and the shell at its end. -/
def finish (script : Script) (s : Runner) : ExitStatus × Runner :=
  match runScript script s depth with
  | (s, .killed n) => (.signal n, s)
  | (s, _) => (.code s.status, s)

/-- Runs what is a program or a file, under a name. -/
def start (name : String) (item : Files.Item) (args : List String) (s : Runner) :
    Except Fault (ExitStatus × Runner) :=
  match item with
  | .program "sh" =>
    let (s, _) := runShell args s depth
    .ok (.code s.status, s)
  | .program program =>
    let (s, _) := (builtin? s program args).getD s.succeed
    .ok (.code s.status, s)
  | .file content _ _ => do return finish (← scriptOf content) { s with name, args }
  | _ => .error .permissionDenied

end Rollout.Shell
