import Rollout.Error
import Rollout.Yaml.Free
import Rollout.Yaml.Node.Reading

/-!
# Machine configurations

A rendered configuration is a stream of YAML documents of which this library needs one value, the
installer image: the first non-empty `machine.install.image`. Documents of any other shape are passed
over, but a document that cannot be read ends the search, and what follows the image does not matter.
-/

namespace Rollout.MachineConfig

open Yaml

/-- A tree without its tags. -/
def untagged : Tree → Tree
  | .tagged _ t => untagged t
  | t => t

/-- The text that a tree is, whatever its tags. -/
def text? (t : Tree) : Option String :=
  match untagged t with
  | .text s => some s
  | _ => none

/-- The value under a name. There is none if the tree is no mapping, has a key that is no text, or has the name
more than once, which takes tags to tell the keys apart. -/
def field? (name : String) (t : Tree) : Option Tree :=
  match untagged t with
  | .map pairs =>
    if pairs.all fun p => (text? p.1).isSome then
      match pairs.filter fun p => text? p.1 == some name with
      | [(_, value)] => some value
      | _ => none
    else none
  | _ => none

def imageIn? (t : Tree) : Option String := do
  let machine ← field? "machine" t
  let install ← field? "install" machine
  let image ← text? (← field? "image" install)
  if image.isEmpty then none else some image

def firstImage : List Document → Except Error String
  | [] => .error (.config "machine configuration does not set machine.install.image")
  | d :: rest =>
    match d.decode Decoder.tree with
    | .error problem => .error (.render s!"invalid machine configuration: {problem.message}")
    | .ok t =>
      match imageIn? t with
      | some image => .ok image
      | none => firstImage rest

def installerImage (config : Bytes) : Except Error String := firstImage (documentsOf config)

end Rollout.MachineConfig
