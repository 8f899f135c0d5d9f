import Rollout.Bytes
import Rollout.Failure

/-!
# The machine this program runs on

Files and programs, as far as they are used here. `System` is any machine: what each operation answers
and how it changes the state. What a program writes on its error output goes where ours goes.
-/

namespace Rollout

/-- What a program has come to. -/
structure Finished where
  status : ExitStatus
  output : Bytes

structure System (σ : Type) where
  isDirectory : σ → (path : String) → Except Fault Bool
  read : σ → (path : String) → Except Fault Bytes
  /-- Replaces the content of a file, which is created if need be. From then on only its owner may
  read it. -/
  write : σ → (path : String) → Bytes → σ × Except Fault Unit
  /-- Makes a directory and all directories above it. -/
  makeDirectory : σ → (path : String) → σ × Except Fault Unit
  /-- Runs a program to its end. -/
  run : σ → (program : String) → (args : List String) → (input : Option Bytes) →
    σ × Except Fault Finished

namespace System

variable {σ : Type}

def runHelper (sys : System σ) (s : σ) (program : String) (args : List String)
    (input : Option Bytes) : σ × Except HelperFault Bytes :=
  match sys.run s program args input with
  | (s, .error fault) => (s, .error (.unusable "run" program fault))
  | (s, .ok finished) =>
    if finished.status.isSuccess then (s, .ok finished.output)
    else (s, .error (.failed (program ++ " " ++ " ".intercalate args) finished.status))

def exists? (sys : System σ) (s : σ) (path : String) : Bool := (sys.isDirectory s path).isOk

/-- A machine that is part of something larger. -/
def within {τ : Type} (sys : System τ) (get : σ → τ) (set : σ → τ → σ) : System σ where
  isDirectory s path := sys.isDirectory (get s) path
  read s path := sys.read (get s) path
  write s path content :=
    let (t, r) := sys.write (get s) path content
    (set s t, r)
  makeDirectory s path :=
    let (t, r) := sys.makeDirectory (get s) path
    (set s t, r)
  run s program args input :=
    let (t, r) := sys.run (get s) program args input
    (set s t, r)

end System

/-- A name inside a directory; a name that starts at the root stays as it is. -/
def joinPath (dir name : String) : String :=
  if name.startsWith "/" || dir.isEmpty then name
  else if dir.endsWith "/" then dir ++ name
  else dir ++ "/" ++ name

end Rollout
