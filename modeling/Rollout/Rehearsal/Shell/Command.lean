/-!
# Shell commands

A small shell, enough for the helper programs of a rehearsal: simple commands with redirections, lists,
pipes, groups, `case`, `if`, `for`, `while` and `until`. Words keep track of what was quoted, for quotes
decide what is split and what is a wildcard.
-/

namespace Rollout.Shell

inductive Piece where
  | text (s : List Char) (quoted : Bool)
  /-- A parameter: a digit, a special character, or a name, perhaps with what stands in for it. -/
  | param (name : List Char) (quoted : Bool)
  /-- The output of a script. -/
  | output (script : List Char) (quoted : Bool)
  /-- The value of a sum. -/
  | arithmetic (text : List Char)
  deriving DecidableEq, Repr

abbrev Word := List Piece

inductive Redirection where
  | input (source : Word)
  /-- Input that stands in the script. -/
  | here (text : Word)
  /-- Output or error output (2) to a file, perhaps behind what it holds. -/
  | output (descriptor : Nat) (append : Bool) (target : Word)
  /-- One output goes where another goes. -/
  | join (descriptor target : Nat)
  deriving DecidableEq, Repr

inductive Command where
  | nothing
  /-- Words, and how many line breaks follow in the script. -/
  | simple (words : List Word) (redirections : List Redirection) (linesAfter : Nat)
  | seq (first next : Command)
  /-- The second runs only if the first succeeds. -/
  | and (first next : Command)
  /-- The second runs only if the first fails. -/
  | or (first next : Command)
  | pipe (first next : Command)
  | not (c : Command)
  /-- Wildcards and what to do for them, in order. -/
  | choose (word : Word) (patterns : List Word) (body otherwise : Command)
  | if (condition yes no : Command)
  /-- Sets a name to one word after the other. -/
  | each (name : String) (words : List Word) (body : Command)
  /-- Goes on while the condition succeeds, or until it does. -/
  | loop (untilTrue : Bool) (condition body : Command)
  /-- A shell of its own, of which only the effects on files last. -/
  | group (c : Command)
  /-- Gives a name to a command. -/
  | define (name : String) (body : Command)
  | redirected (c : Command) (redirections : List Redirection)

/-! ## Tokens -/

inductive Token where
  | word (w : Word)
  | operator (s : String)
  deriving DecidableEq, Repr

/-- The operators, longer ones first. -/
def operators : List String :=
  [";;", "&&", "||", "2>>", "2>&1", "1>&2", ">&2", ">&1", "2>", "1>", ">>", ">", "<", ";", "|", "&",
    "(", ")", "\n"]

def isBlank (c : Char) : Bool := c == ' ' || c == '\t'

/-- Does the operator start with a digit? Then it has to stand apart from the word before it. -/
def operatorAt? (cs : List Char) : Option (String × List Char) :=
  (operators.find? fun o => o.toList.isPrefixOf cs).map fun o => (o, cs.drop o.length)

def isNameChar (c : Char) : Bool := c.isAlphanum || c == '_'

/-- The characters up to the parenthesis that closes what is open, and what follows it. -/
def untilClosed (depth : Nat) : List Char → List Char × List Char
  | [] => ([], [])
  | c :: rest =>
    if c == ')' && depth == 0 then ([], rest)
    else
      let depth := if c == '(' then depth + 1 else if c == ')' then depth - 1 else depth
      let (inside, after) := untilClosed depth rest
      (c :: inside, after)

/-- What follows a dollar sign. -/
def readDollar (quoted : Bool) (cs : List Char) : Piece × List Char :=
  match cs with
  | '(' :: '(' :: rest =>
    let (text, rest) := untilClosed 0 rest
    (.arithmetic text, rest.tail)
  | '(' :: rest =>
    let (script, rest) := untilClosed 0 rest
    (.output script quoted, rest)
  | '{' :: rest => (.param (rest.takeWhile (· != '}')) quoted, (rest.dropWhile (· != '}')).tail)
  | c :: rest =>
    if isNameChar c && !c.isDigit then
      (.param (cs.takeWhile isNameChar) quoted, cs.dropWhile isNameChar)
    else if c.isDigit || "@*#?$!".toList.contains c then (.param [c] quoted, rest)
    else (.text ['$'] quoted, cs)
  | [] => (.text ['$'] quoted, [])

/-- A script between back quotes: the quotes themselves, `\` and `$` lose the backslash before them. -/
def readBackQuoted (cs : List Char) : (fuel : Nat) → List Char × List Char
  | 0 => ([], [])
  | fuel + 1 =>
    let more (c : Char) (rest : List Char) : List Char × List Char :=
      let (script, rest) := readBackQuoted rest fuel
      (c :: script, rest)
    match cs with
    | [] => ([], [])
    | '\x60' :: rest => ([], rest)
    | '\\' :: c :: rest =>
      if "$\x60\\".toList.contains c then more c rest else more '\\' (c :: rest)
    | c :: rest => more c rest

/-- The pieces in double quotes, to behind the closing quote; text of a script that is input has none
and is read to its end. -/
def readDouble (closing : Bool) (cs : List Char) : (fuel : Nat) → Word × List Char
  | 0 => ([], [])
  | fuel + 1 =>
    let more (first : Piece) (rest : List Char) : Word × List Char :=
      let (pieces, rest) := readDouble closing rest fuel
      (first :: pieces, rest)
    match cs with
    | [] => ([], [])
    | '\\' :: c :: rest =>
      let plain := "$\x60\\".toList.contains c || (c == '"' && closing)
      more (.text (if plain then [c] else if c == '\n' then [] else ['\\', c]) true) rest
    | '$' :: rest =>
      let (piece, rest) := readDollar true rest
      more piece rest
    | '\x60' :: rest =>
      let (script, rest) := readBackQuoted rest rest.length
      more (.output script true) rest
    | c :: rest => if c == '"' && closing then ([.text [] true], rest) else more (.text [c] true) rest

/-- The pieces of the word that starts here. -/
def readWord (cs : List Char) : (fuel : Nat) → Word × List Char
  | 0 => ([], [])
  | fuel + 1 =>
    let more (first : Word) (rest : List Char) : Word × List Char :=
      let (pieces, rest) := readWord rest fuel
      (first ++ pieces, rest)
    match cs with
    | [] => ([], [])
    | '\'' :: rest =>
      more [.text (rest.takeWhile (· != '\'')) true] (rest.dropWhile (· != '\'')).tail
    | '"' :: rest =>
      let (pieces, rest) := readDouble true rest fuel
      more pieces rest
    | '\\' :: '\n' :: rest => more [] rest
    | '\\' :: c :: rest => more [.text [c] true] rest
    | '$' :: rest =>
      let (piece, rest) := readDollar false rest
      more [piece] rest
    | '\x60' :: rest =>
      let (script, rest) := readBackQuoted rest rest.length
      more [.output script false] rest
    | c :: rest =>
      if isBlank c || "\n;&|<>()".toList.contains c then ([], cs)
      else more [.text [c] false] rest

def rawText (w : Word) : List Char :=
  w.flatMap fun p =>
    match p with
    | .text s _ => s
    | .param name _ => '$' :: name
    | .output _ _ | .arithmetic _ => []

def isQuoted (w : Word) : Bool :=
  w.any fun p =>
    match p with
    | .text _ quoted => quoted
    | _ => false

/-- The lines up to the one that says `stop`, and what follows that line. -/
def untilLine (tabs : Bool) (stop cs : List Char) : (fuel : Nat) → List Char × List Char
  | 0 => ([], [])
  | fuel + 1 =>
    if cs.isEmpty then ([], [])
    else
      let line := (if tabs then cs.dropWhile (· == '\t') else cs).takeWhile (· != '\n')
      let rest := (cs.dropWhile (· != '\n')).tail
      if line == stop then ([], rest)
      else
        let (lines, after) := untilLine tabs stop rest fuel
        (line ++ '\n' :: lines, after)

/-- Input that stands in the script: its text, and the script without it. -/
def readHere (cs : List Char) : Word × List Char :=
  let tabs := cs.head? == some '-'
  let cs := (if tabs then cs.tail else cs).dropWhile isBlank
  let (stop, rest) := readWord cs (cs.length + 1)
  let line := rest.takeWhile (· != '\n')
  let below := (rest.dropWhile (· != '\n')).tail
  let (text, after) := untilLine tabs (rawText stop) below (below.length + 1)
  let word := if isQuoted stop then [.text text true] else (readDouble false text (text.length + 1)).1
  (word, line ++ '\n' :: after)

def tokensOf (cs : List Char) : (fuel : Nat) → List Token
  | 0 => []
  | fuel + 1 =>
    match cs with
    | [] => []
    | c :: rest =>
      if isBlank c then tokensOf rest fuel
      else if c == '\\' && rest.head? == some '\n' then tokensOf rest.tail fuel
      else if c == '#' then tokensOf (rest.dropWhile (· != '\n')) fuel
      else if "<<".toList.isPrefixOf cs then
        let (text, rest) := readHere (cs.drop 2)
        .operator "<<" :: .word text :: tokensOf rest fuel
      else match operatorAt? cs with
        | some (o, rest) => .operator o :: tokensOf rest fuel
        | none =>
          let (w, rest) := readWord cs (cs.length + 1)
          .word w :: tokensOf rest fuel

/-! ## Commands -/

/-- The text of a word without quotes and parameters. -/
def plainText? (w : Word) : Option String :=
  w.foldr
    (fun p rest =>
      match p with
      | .text s false => rest.map (String.ofList s ++ ·)
      | _ => none)
    (some "")

def isKeyword (t : Token) (s : String) : Bool :=
  match t with
  | .word w => plainText? w == some s
  | _ => false

def skipLines (ts : List Token) : List Token := ts.dropWhile (· == .operator "\n")

def readRedirection? (ts : List Token) : Option (Redirection × List Token) :=
  match ts with
  | .operator "2>&1" :: rest => some (.join 2 1, rest)
  | .operator ">&2" :: rest | .operator "1>&2" :: rest => some (.join 1 2, rest)
  | .operator ">&1" :: rest => some (.join 1 1, rest)
  | .operator o :: .word w :: rest =>
    if o = "<" then some (.input w, rest)
    else if o = "<<" then some (.here w, rest)
    else if o = ">" ∨ o = "1>" then some (.output 1 false w, rest)
    else if o = ">>" then some (.output 1 true w, rest)
    else if o = "2>" then some (.output 2 false w, rest)
    else if o = "2>>" then some (.output 2 true w, rest)
    else none
  | _ => none

def readSimple (ts : List Token) : (fuel : Nat) → List Word × List Redirection × List Token
  | 0 => ([], [], ts)
  | fuel + 1 =>
    match readRedirection? ts with
    | some (r, rest) =>
      let (words, redirections, rest) := readSimple rest fuel
      (words, r :: redirections, rest)
    | none =>
      match ts with
      | .word w :: rest =>
        let (words, redirections, rest) := readSimple rest fuel
        (w :: words, redirections, rest)
      | _ => ([], [], ts)

def readRedirections (ts : List Token) : (fuel : Nat) → List Redirection × List Token
  | 0 => ([], ts)
  | fuel + 1 =>
    match readRedirection? ts with
    | some (r, rest) =>
      let (more, rest) := readRedirections rest fuel
      (r :: more, rest)
    | none => ([], ts)

def readPatterns (ts : List Token) : (fuel : Nat) → Option (List Word × List Token)
  | 0 => none
  | fuel + 1 =>
    match ts with
    | .word w :: .operator ")" :: rest => some ([w], rest)
    | .word w :: .operator "|" :: rest =>
      (readPatterns rest fuel).map fun (ws, rest) => (w :: ws, rest)
    | _ => none

def closers : List String := ["esac", "then", "else", "elif", "fi", "\x7d", "done", "do"]

def atClose (ts : List Token) : Bool :=
  match ts with
  | [] => true
  | .operator ")" :: _ | .operator ";;" :: _ => true
  | t :: _ => closers.any (isKeyword t)

mutual

def readList (ts : List Token) : (fuel : Nat) → Option (Command × List Token)
  | 0 => none
  | fuel + 1 =>
    let ts := ts.dropWhile fun t => t == .operator "\n" || t == .operator ";"
    if atClose ts then some (.nothing, ts)
    else do
      let (first, rest) ← readChain ts fuel
      match rest with
      | .operator "\n" :: rest | .operator ";" :: rest | .operator "&" :: rest =>
        let (next, rest) ← readList rest fuel
        some (.seq first next, rest)
      | rest => if atClose rest then some (first, rest) else none

/-- Commands that depend on each other's success. -/
def readChain (ts : List Token) : (fuel : Nat) → Option (Command × List Token)
  | 0 => none
  | fuel + 1 => do
    let (first, rest) ← readPipe ts fuel
    continueChain first rest fuel

def continueChain (first : Command) (ts : List Token) : (fuel : Nat) → Option (Command × List Token)
  | 0 => none
  | fuel + 1 =>
    match ts with
    | .operator "&&" :: rest => do
      let (next, rest) ← readPipe (skipLines rest) fuel
      continueChain (.and first next) rest fuel
    | .operator "||" :: rest => do
      let (next, rest) ← readPipe (skipLines rest) fuel
      continueChain (.or first next) rest fuel
    | _ => some (first, ts)

def readPipe (ts : List Token) : (fuel : Nat) → Option (Command × List Token)
  | 0 => none
  | fuel + 1 =>
    match ts with
    | t :: rest =>
      if isKeyword t "!" then (readPipe rest fuel).map fun (c, rest) => (.not c, rest)
      else do
        let (first, rest) ← readCommand (t :: rest) fuel
        match rest with
        | .operator "|" :: rest =>
          let (next, rest) ← readPipe (skipLines rest) fuel
          some (.pipe first next, rest)
        | rest => some (first, rest)
    | [] => none

def readCommand (ts : List Token) : (fuel : Nat) → Option (Command × List Token)
  | 0 => none
  | fuel + 1 =>
    match ts with
    | .operator "(" :: rest => do
      match ← readList rest fuel with
      | (c, .operator ")" :: rest) => finish (some (.group c, rest))
      | _ => none
    | t :: rest =>
      if isKeyword t "case" then
        match rest with
        | .word w :: more =>
          match skipLines more with
          | kw :: more => if isKeyword kw "in" then finish (readBranches w more fuel) else none
          | [] => none
        | _ => none
      else if isKeyword t "if" then finish (readIf rest fuel)
      else if isKeyword t "for" then
        match rest with
        | .word w :: more => do
          let (words, more) := readItems more
          let (body, more) ← readBody more fuel
          finish (some (.each (String.ofList (rawText w)) words body, more))
        | _ => none
      else if isKeyword t "while" || isKeyword t "until" then do
        let (condition, more) ← readList rest fuel
        let (body, more) ← readBody more fuel
        finish (some (.loop (isKeyword t "until") condition body, more))
      else if isKeyword t "\x7b" then
        match readList rest fuel with
        | some (c, close :: rest) => if isKeyword close "\x7d" then finish (some (c, rest)) else none
        | _ => none
      else
        match t, rest with
        | .word w, .operator "(" :: .operator ")" :: rest =>
          (readCommand (skipLines rest) fuel).map fun (c, rest) =>
            (.define (String.ofList (rawText w)) c, rest)
        | _, _ =>
          let (words, redirections, rest) := readSimple ts (ts.length + 1)
          if words.isEmpty && redirections.isEmpty then none
          else some (.simple words redirections (rest.count (.operator "\n")), rest)
    | [] => none
where
  /-- The words a name is set to; without a list they are the arguments. -/
  readItems (ts : List Token) : List Word × List Token :=
    match skipLines ts with
    | t :: rest =>
      if isKeyword t "in" then
        let (words, _, rest) := readSimple rest (rest.length + 1)
        (words, rest)
      else ([[.param ['@'] true]], ts)
    | [] => ([], [])
  finish (c : Option (Command × List Token)) : Option (Command × List Token) :=
    c.map fun (c, rest) =>
      match readRedirections rest (rest.length + 1) with
      | ([], rest) => (c, rest)
      | (redirections, rest) => (.redirected c redirections, rest)

def readBody (ts : List Token) : (fuel : Nat) → Option (Command × List Token)
  | 0 => none
  | fuel + 1 => do
    let t :: rest := ts.dropWhile (fun t => t == .operator "\n" || t == .operator ";") | none
    if !isKeyword t "do" then none
    let (body, rest) ← readList rest fuel
    let t :: rest := rest | none
    if isKeyword t "done" then some (body, rest) else none

def readBranches (w : Word) (ts : List Token) : (fuel : Nat) → Option (Command × List Token)
  | 0 => none
  | fuel + 1 =>
    match skipLines ts with
    | [] => none
    | t :: rest =>
      if isKeyword t "esac" then some (.nothing, rest)
      else do
        let ts := if t == .operator "(" then rest else t :: rest
        let (patterns, rest) ← readPatterns ts (ts.length + 1)
        let (body, rest) ← readList rest fuel
        let rest := match rest with
          | .operator ";;" :: rest => rest
          | rest => rest
        let (otherwise, rest) ← readBranches w rest fuel
        some (.choose w patterns body otherwise, rest)

def readIf (ts : List Token) : (fuel : Nat) → Option (Command × List Token)
  | 0 => none
  | fuel + 1 => do
    let (condition, rest) ← readList ts fuel
    let t :: rest := rest | none
    if !isKeyword t "then" then none
    let (yes, rest) ← readList rest fuel
    let t :: rest := rest | none
    if isKeyword t "fi" then some (.if condition yes .nothing, rest)
    else if isKeyword t "elif" then do
      let (no, rest) ← readIf rest fuel
      some (.if condition yes no, rest)
    else if isKeyword t "else" then do
      let (no, rest) ← readList rest fuel
      let t :: rest := rest | none
      if isKeyword t "fi" then some (.if condition yes no, rest) else none
    else none

end

/-- The command a script is, and its line breaks; nothing if it follows no grammar. -/
def parse? (script : List Char) : Option (Command × Nat) :=
  let tokens := tokensOf script (script.length + 1)
  match readList tokens (8 * tokens.length + 8) with
  | some (c, []) => some (c, tokens.count (.operator "\n"))
  | _ => none

end Rollout.Shell
