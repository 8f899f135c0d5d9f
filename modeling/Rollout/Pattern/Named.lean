import Rollout.Pattern.CharSet
import Rollout.Text.Runs

/-!
# Named sets

The names that patterns give to sets of characters: the classes of ASCII between colons, and Unicode's
general categories, scripts and other properties, in short and in full. Capitals, blanks, dashes and
underscores in a name do not matter, nor does a leading `is`.
-/

namespace Rollout.Pattern

/-- A property's name in its plainest form. -/
def plainName (s : List Char) : List Char :=
  let s := (s.filter fun c => !(c == ' ' || c == '_' || c == '-')).map Char.toLower
  match s with
  | ['i', 's', 'c'] => s
  | 'i' :: 's' :: rest => rest
  | _ => s

/-- The general categories: group, member, and full name. -/
def categoryNames : List (Char × Option Char × String) :=
  [('C', none, "other"), ('C', some 'c', "control"), ('C', some 'f', "format"),
   ('C', some 'n', "unassigned"), ('C', some 'o', "privateuse"), ('C', some 's', "surrogate"),
   ('L', none, "letter"), ('L', some 'l', "lowercaseletter"), ('L', some 'm', "modifierletter"),
   ('L', some 'o', "otherletter"), ('L', some 't', "titlecaseletter"),
   ('L', some 'u', "uppercaseletter"), ('M', none, "mark"), ('M', none, "combiningmark"),
   ('M', some 'c', "spacingmark"), ('M', some 'e', "enclosingmark"),
   ('M', some 'n', "nonspacingmark"), ('N', none, "number"), ('N', some 'd', "decimalnumber"),
   ('N', some 'd', "digit"), ('N', some 'l', "letternumber"), ('N', some 'o', "othernumber"),
   ('P', none, "punctuation"), ('P', none, "punct"), ('P', some 'c', "connectorpunctuation"),
   ('P', some 'd', "dashpunctuation"), ('P', some 'e', "closepunctuation"),
   ('P', some 'f', "finalpunctuation"), ('P', some 'i', "initialpunctuation"),
   ('P', some 'o', "otherpunctuation"), ('P', some 's', "openpunctuation"), ('S', none, "symbol"),
   ('S', some 'c', "currencysymbol"), ('S', some 'k', "modifiersymbol"),
   ('S', some 'm', "mathsymbol"), ('S', some 'o', "othersymbol"), ('Z', none, "separator"),
   ('Z', some 'l', "lineseparator"), ('Z', some 'p', "paragraphseparator"),
   ('Z', some 's', "spaceseparator")]

def categorySet? (name : List Char) : Option CharSet :=
  let name := plainName name
  if name == "any".toList then some (.property .any)
  else if name == "assigned".toList then some (.property .assigned)
  else if name == "ascii".toList then some (.range '\x00' '\x7f')
  else if name == "lc".toList || name == "casedletter".toList then some (.property .casedLetter)
  else
    (categoryNames.find? fun (group, member, full) =>
        name == group.toLower :: member.toList || name == full.toList).map
      fun (group, member, _) => .property (.category group member)

/-- The characters of a property that its general categories give away. -/
def impliedSet (name : List Char) : CharSet :=
  let isOne (names : List String) : Bool := names.any (·.toList == name)
  if isOne ["alphabetic", "alpha"] then
    .union (.property (.category 'L' none)) (.property (.category 'N' (some 'l')))
  else if isOne ["lowercase", "lower"] then .property (.category 'L' (some 'l'))
  else if isOne ["uppercase", "upper"] then .property (.category 'L' (some 'u'))
  else .empty

def scriptSet? (name : List Char) : Option CharSet :=
  (Text.rangesOf? Text.scriptRuns (plainName name)).map fun ranges => .property (.within ranges)

/-- The set of a property's name. A name that several kinds of property have is taken from the first kind:
properties with two values, general categories, scripts. -/
def propertySet? (name : List Char) : Option CharSet :=
  if ["whitespace", "wspace", "space"].any (·.toList == plainName name) then some (.property .space)
  else match Text.rangesOf? Text.propertyRuns (plainName name) with
    | some ranges => some (.union (impliedSet (plainName name)) (.property (.within ranges)))
    | none => (categorySet? name).or (scriptSet? name)

def valueSet? (property value : List Char) : Option CharSet :=
  if ["gc", "generalcategory"].any (·.toList == plainName property) then categorySet? value
  else if ["sc", "script"].any (·.toList == plainName property) then scriptSet? value
  else none

/-- The classes of ASCII. -/
def asciiClasses : List (String × List (Char × Char)) :=
  [("alnum", [('0', '9'), ('A', 'Z'), ('a', 'z')]), ("alpha", [('A', 'Z'), ('a', 'z')]),
   ("ascii", [('\x00', '\x7f')]), ("blank", [('\t', '\t'), (' ', ' ')]),
   ("cntrl", [('\x00', '\x1f'), ('\x7f', '\x7f')]), ("digit", [('0', '9')]),
   ("graph", [('!', '~')]), ("lower", [('a', 'z')]), ("print", [(' ', '~')]),
   ("punct", [('!', '/'), (':', '@'), ('[', '\x60'), ('{', '~')]),
   ("space", [('\t', '\r'), (' ', ' ')]), ("upper", [('A', 'Z')]),
   ("word", [('0', '9'), ('A', 'Z'), ('_', '_'), ('a', 'z')]),
   ("xdigit", [('0', '9'), ('A', 'F'), ('a', 'f')])]

def asciiSet? (name : List Char) : Option CharSet :=
  (asciiClasses.find? (·.1.toList == name)).map fun c => .ofRanges c.2

end Rollout.Pattern
