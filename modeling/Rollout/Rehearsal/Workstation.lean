import Rollout.Files.System
import Rollout.Rehearsal.Shell.Running

/-!
# A workstation

The operator's machine in a rehearsal: a tree of files, some of them scripts, the few programs a helper
may also be, and what was written on the error output. A program without a slash in its name is looked
for along the search path.
-/

namespace Rollout

structure Workstation where
  root : Files.Item
  cwd : Files.Place := []
  searchPath : List String := ["/usr/bin", "/bin"]
  /-- What scripts know by name. -/
  environment : List (String × String) := []
  errors : Bytes := []

namespace Workstation

open Files

/-- A machine with nothing on it but those programs. -/
def bare : Item :=
  let bin := .directory (Shell.programs.map fun p => (p, .program p))
  .directory
    [("bin", bin), ("usr", .directory [("bin", bin)]), ("dev", .directory [("null", .void)]),
     ("etc", .directory []), ("home", .directory []), ("root", .directory []),
     ("tmp", .directory []), ("var", .directory [])]

def addFile (s : Workstation) (path : String) (content : Bytes) (runnable : Bool) : Workstation :=
  { s with root := s.root.put (.file content runnable false) (s.cwd.reverse ++ partsOf path) }

def addDirectory (s : Workstation) (path : String) : Workstation :=
  match makeDirectory s.root s.cwd path with
  | .ok root => { s with root }
  | .error _ => s

def shell (s : Workstation) (input : Option Bytes) : Shell.Runner :=
  { root := s.root, cwd := s.cwd, searchPath := s.searchPath, name := "sh", args := []
    assigned := s.environment, input := input.getD [] }

def run (s : Workstation) (program : String) (args : List String) (input : Option Bytes) :
    Workstation × Except Fault Finished :=
  if program.toList.contains '\x00' || args.any (·.toList.contains '\x00') then
    (s, .error .zeroInName)
  else
    match
      (do
        let (path, item) ← Shell.find s.root s.cwd s.searchPath program
        Shell.start path item args (s.shell input)) with
    | .error fault => (s, .error fault)
    | .ok (status, sh) =>
      ({ s with root := sh.root, errors := s.errors ++ sh.errors }, .ok ⟨status, sh.output⟩)

def system : System Workstation where
  isDirectory s path := (lookup s.root s.cwd path).map Item.isDirectory
  read s path := readFile s.root s.cwd path
  write s path content :=
    match changeFile s.root s.cwd path true fun _ => content with
    | .ok root => ({ s with root }, .ok ())
    | .error fault => (s, .error fault)
  makeDirectory s path :=
    match makeDirectory s.root s.cwd path with
    | .ok root => ({ s with root }, .ok ())
    | .error fault => (s, .error fault)
  run := run

end Workstation
end Rollout
