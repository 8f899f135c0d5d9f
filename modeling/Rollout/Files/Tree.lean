import Rollout.Bytes
import Rollout.Files.Fault

/-!
# File trees

Directories, files and programs as a tree, and how paths lead through it. Every part of a path but the
last has to be a directory that is there; `.` and `..` are parts like any other.
-/

namespace Rollout.Files

inductive Item where
  /-- A file, and whether it may be run and may be read by others. -/
  | file (content : Bytes) (runnable : Bool) (secret : Bool)
  | directory (entries : List (String × Item))
  /-- A program of the system. -/
  | program (name : String)
  /-- Takes everything and holds nothing. -/
  | void

/-- A place in a tree: the names from the innermost directory up to the root. -/
abbrev Place := List String

def setEntry (name : String) (item : Item) : List (String × Item) → List (String × Item)
  | [] => [(name, item)]
  | (n, i) :: rest => if n == name then (n, item) :: rest else (n, i) :: setEntry name item rest

namespace Item

/-- The item at a path of names from here. -/
def find? (i : Item) : List String → Option Item
  | [] => some i
  | name :: rest =>
    match i with
    | directory entries => (entries.lookup name).bind fun child => child.find? rest
    | _ => none

def put (i : Item) (new : Item) : List String → Item
  | [] => new
  | name :: rest =>
    match i with
    | directory entries =>
      let child := (entries.lookup name).getD (directory [])
      directory (setEntry name (child.put new rest) entries)
    | i => i

/-- The tree without what is at a path of names. -/
def erase (i : Item) : List String → Item
  | [] => i
  | name :: rest =>
    match i with
    | directory entries =>
      match entries.lookup name with
      | some child =>
        if rest.isEmpty then directory (entries.filter (·.1 ≠ name))
        else directory (setEntry name (child.erase rest) entries)
      | none => directory entries
    | i => i

def isDirectory : Item → Bool
  | directory _ => true
  | _ => false

end Item

/-- The longest name, in bytes. -/
def maxName : Nat := 255

/-- The names of a path; a slash at the end asks for a directory. -/
def partsOf (path : String) : List String :=
  let parts := (path.splitOn "/").filter (· ≠ "")
  if path.endsWith "/" then parts ++ ["."] else parts

/-- Where a path leads from a place. The last part need not exist. -/
def walk (root : Item) (place : Place) : List String → Except Fault Place
  | [] => .ok place
  | part :: rest =>
    match root.find? place.reverse with
    | some (.directory entries) =>
      if part == "." then walk root place rest
      else if part == ".." then walk root place.tail rest
      else if maxName < part.utf8ByteSize then .error .nameTooLong
      else if rest.isEmpty || (entries.lookup part).isSome then walk root (part :: place) rest
      else .error .notFound
    | some _ => .error .notADirectory
    | none => .error .notFound

/-- Where a path leads from the directory `cwd`. -/
def locate (root : Item) (cwd : Place) (path : String) : Except Fault Place :=
  if path.isEmpty then .error .notFound
  else if path.toList.contains '\x00' then .error .zeroInName
  else walk root (if path.startsWith "/" then [] else cwd) (partsOf path)

def lookup (root : Item) (cwd : Place) (path : String) : Except Fault Item := do
  match root.find? (← locate root cwd path).reverse with
  | some item => return item
  | none => throw .notFound

def readFile (root : Item) (cwd : Place) (path : String) : Except Fault Bytes := do
  match ← lookup root cwd path with
  | .file content _ _ => return content
  | .directory _ => throw .isADirectory
  | .program _ | .void => return []

def changeFile (root : Item) (cwd : Place) (path : String) (secret : Bool) (f : Bytes → Bytes) :
    Except Fault Item := do
  let place ← locate root cwd path
  match root.find? place.reverse with
  | some (.file content runnable wasSecret) =>
    return root.put (.file (f content) (runnable && !secret) (secret || wasSecret)) place.reverse
  | some (.directory _) => throw .isADirectory
  | some _ => return root
  | none =>
    match root.find? place.tail.reverse with
    | some (.directory _) => return root.put (.file (f []) false secret) place.reverse
    | _ => throw .notFound

def makeAlong (root : Item) (place : Place) : List String → Except Fault Item
  | [] =>
    match root.find? place.reverse with
    | some (.directory _) => .ok root
    | _ => .error .alreadyThere
  | part :: rest =>
    match root.find? place.reverse with
    | some (.directory entries) =>
      if part == "." then makeAlong root place rest
      else if part == ".." then makeAlong root place.tail rest
      else if maxName < part.utf8ByteSize then .error .nameTooLong
      else
        let inner := part :: place
        if (entries.lookup part).isSome then makeAlong root inner rest
        else makeAlong (root.put (.directory []) inner.reverse) inner rest
    | _ => .error .notADirectory

def makeDirectory (root : Item) (cwd : Place) (path : String) : Except Fault Item :=
  if path.isEmpty then .ok root
  else if path.toList.contains '\x00' then .error .zeroInName
  else makeAlong root (if path.startsWith "/" then [] else cwd) (partsOf path)

end Rollout.Files
