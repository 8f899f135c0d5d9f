import Rollout.Yaml.Mark

/-!
# Tokens

What a YAML text consists of. Block collections have tokens for their start and end although the text
shows them by indentation only.
-/

namespace Rollout.Yaml

inductive Style where
  | plain
  | quoted
  | block
  deriving DecidableEq, Repr

namespace Token

inductive Kind where
  | version (major minor : Nat)
  | tagDirective (handle leading : String)
  | documentStart
  | documentEnd
  | streamEnd
  | blockSequenceStart
  | blockMappingStart
  | blockEnd
  | flowSequenceStart
  | flowSequenceEnd
  | flowMappingStart
  | flowMappingEnd
  | blockEntry
  | flowEntry
  | key
  | value
  | reference (name : String)
  | anchor (name : String)
  | tag (handle suffix : String)
  | scalar (text : String) (style : Style)
  deriving DecidableEq, Repr

end Token

structure Token where
  kind : Token.Kind
  start : Mark
  stop : Mark
  deriving Repr

end Rollout.Yaml
