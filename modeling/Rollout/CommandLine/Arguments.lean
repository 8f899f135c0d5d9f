/-!
# Arguments

How a command line is taken apart. An option has a name behind two hyphens, perhaps a letter behind one,
and takes no value, one value, or perhaps one. A value follows the name in the next argument or behind an
equals sign, and has to be acceptable to its option. No option is given twice.
-/

namespace Rollout.Arguments

inductive Takes where
  | nothing
  | value
  /-- Without a value the option stands for its `bare` value. -/
  | perhaps
  deriving DecidableEq, Repr

structure Switch where
  name : String
  letter : Option Char := none
  takes : Takes := .value
  bare : String := "true"
  accepts : String → Bool := fun _ => true

/-- Why a command line is not carried out. -/
inductive Refusal where
  | usage
  /-- The operator asks how the program is used. -/
  | help
  | version
  deriving DecidableEq, Repr

/-- The options found, each with its value, in order. -/
abbrev Found := List (String × String)

def find? (switches : List Switch) (name : String) : Option Switch := switches.find? (·.name == name)

def findLetter? (switches : List Switch) (letter : Char) : Option Switch :=
  switches.find? (·.letter == some letter)

/-- Is the argument an option? A hyphen alone is none. -/
def isOption (arg : String) : Bool := arg.startsWith "-" && arg != "-"

def note (s : Switch) (value : String) (found : Found) : Except Refusal Found :=
  if s.accepts value && (found.lookup s.name).isNone then .ok ((s.name, value) :: found)
  else .error .usage

/-- Takes note of an option that has `attached` to it, if anything, or finds its value in `rest`.
Gives what is left of `rest`. -/
def take (s : Switch) (attached : Option String) (rest : List String) (found : Found) :
    Except Refusal (Found × List String) := do
  match s.takes, attached, rest with
  | .nothing, none, rest => return (← note s s.bare found, rest)
  | .nothing, some _, _ => throw .usage
  | _, some value, rest => return (← note s value found, rest)
  | .value, none, [] => throw .usage
  | .perhaps, none, [] => return (← note s s.bare found, [])
  | takes, none, value :: rest =>
    if !isOption value then return (← note s value found, rest)
    else if takes = .perhaps then return (← note s s.bare found, value :: rest)
    else throw .usage

theorem take_le {s : Switch} {attached : Option String} {rest : List String} {found : Found}
    {found' : Found} {rest' : List String} (h : take s attached rest found = .ok (found', rest')) :
    rest'.length ≤ rest.length := by
  unfold take at h
  simp only [bind, Except.bind, pure, Except.pure, throw, throwThe, MonadExceptOf.throw] at h
  repeat' split at h
  all_goals first
    | (cases h; done)
    | (cases h; simp)

def splitAttached (arg : String) : String × Option String :=
  let body := arg.toList.drop 2
  match body.dropWhile (· != '=') with
  | [] => (String.ofList body, none)
  | _ :: value => (String.ofList (body.takeWhile (· != '=')), some (String.ofList value))

/-- What stands behind a letter. -/
def afterLetter : List Char → Option String
  | [] => none
  | '=' :: value => some (String.ofList value)
  | value => some (String.ofList value)

/-- The option an argument stands for, and the value attached to it. The first level of a command line
also knows `--version`. -/
def option (switches : List Switch) (top : Bool) (arg : String) :
    Except Refusal (Switch × Option String) :=
  if arg.startsWith "--" then
    let (name, attached) := splitAttached arg
    match find? switches name with
    | some s => .ok (s, attached)
    | none =>
      if attached.isSome then .error .usage
      else if name == "help" then .error .help
      else if name == "version" && top then .error .version
      else .error .usage
  else match arg.toList.drop 1 with
    | [] => .error .usage
    | letter :: rest =>
      match findLetter? switches letter with
      | some s => .ok (s, afterLetter rest)
      | none =>
        if letter == 'h' then .error .help
        else if letter == 'V' && top then .error .version
        else .error .usage

/-- The options up to the first argument that is none, and the arguments from there on. -/
def options (switches : List Switch) (top : Bool) (args : List String) (found : Found) :
    Except Refusal (Found × List String) :=
  match args with
  | [] => .ok (found, [])
  | arg :: rest =>
    if !isOption arg || arg == "--" then .ok (found, arg :: rest)
    else match option switches top arg with
      | .error r => .error r
      | .ok (s, attached) =>
        match _h : take s attached rest found with
        | .error r => .error r
        | .ok (found, rest) => options switches top rest found
termination_by args.length
decreasing_by
  have := take_le (by assumption)
  simp only [List.length_cons]
  omega

def onlyOptions (switches : List Switch) (args : List String) : Except Refusal Found := do
  match ← options switches false args [] with
  | (found, []) => return found
  | (found, ["--"]) => return found
  | _ => throw .usage

end Rollout.Arguments
