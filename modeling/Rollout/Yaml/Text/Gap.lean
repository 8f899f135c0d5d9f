import Rollout.Yaml.Cursor

/-!
# White space inside a value

Between two words of a plain or quoted value there are blanks, or line breaks with indentation. One
line break counts as a blank, more of them as one less; blanks around line breaks do not count.
-/

namespace Rollout.Yaml

/-- White space read since the last word. -/
inductive Gap where
  | blanks (chars : List Char)
  | breaks (first more : List Char)
  deriving Repr, DecidableEq

namespace Gap

def empty : Gap := blanks []

def isEmpty : Gap → Bool
  | blanks [] => true
  | _ => false

def hasBreak : Gap → Bool
  | breaks _ _ => true
  | blanks _ => false

def addBlank (c : Char) : Gap → Gap
  | blanks chars => blanks (chars ++ [c])
  | g => g

def addBreak (c : Char) : Gap → Gap
  | blanks _ => breaks (breakText c) []
  | breaks first more => breaks first (more ++ breakText c)

/-- What the white space stands for once another word follows. -/
def fold : Gap → List Char
  | blanks chars => chars
  | breaks first more =>
    if first = ['\n'] then (if more.isEmpty then [' '] else more) else first ++ more

end Gap
end Rollout.Yaml
