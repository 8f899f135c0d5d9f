import Rollout.Error

/-!
# Installer images

An image reference `registry/schematic:version`. The schematic follows the last slash behind which a
schematic and a version can be read; a `v` in front of a version is not part of it unless nothing else
is there.
-/

namespace Rollout

structure InstallerImage where
  schematic : String
  version : String
  deriving DecidableEq, Repr

namespace InstallerImage

def isAlphanumeric (c : Char) : Bool :=
  ('a' ≤ c && c ≤ 'z') || ('A' ≤ c && c ≤ 'Z') || ('0' ≤ c && c ≤ '9')

/-- A version without one `v` in front. -/
def dropV : List Char → List Char
  | 'v' :: c :: rest => c :: rest
  | version => version

/-- Reads `schematic:version`. -/
def splitTag (s : List Char) : Option (List Char × List Char) :=
  match s.takeWhile isAlphanumeric, s.dropWhile isAlphanumeric with
  | c :: schematic, ':' :: d :: version => some (c :: schematic, dropV (d :: version))
  | _, _ => none

/-- What stands behind the last slash that a schematic and a version follow. -/
def lastTag : List Char → Option (List Char × List Char)
  | [] => none
  | c :: rest =>
    match lastTag rest with
    | some tag => some tag
    | none => if c == '/' then splitTag rest else none

def parse (s : String) : Except Error InstallerImage :=
  match if s.toList.contains '\n' then none else lastTag s.toList with
  | some (schematic, version) => .ok ⟨String.ofList schematic, String.ofList version⟩
  | none => .error (.installerImage s)

end InstallerImage
end Rollout
