import Rollout.Bytes
import Rollout.Text.Blank

/-!
# The operator's console

Questions are answered with a line of text. A line that is neither yes nor no is asked again, the end of
the input counts as no, and every question takes exactly the lines up to its decision.
-/

namespace Rollout.Console

/-- The first line, with its line feed, and what follows it. -/
def splitLine : Bytes → Bytes × Bytes
  | [] => ([], [])
  | b :: rest =>
    if b == 10 then ([b], rest)
    else
      let (line, after) := splitLine rest
      (b :: line, after)

theorem splitLine_append (b : Bytes) : (splitLine b).1 ++ (splitLine b).2 = b := by
  induction b with
  | nil => rfl
  | cons c rest ih =>
    by_cases h : c == 10
    · simp [splitLine, h]
    · simp [splitLine, h, ih]

theorem length_splitLine_cons (c : UInt8) (rest : Bytes) :
    (splitLine (c :: rest)).2.length < (c :: rest).length := by
  have h := congrArg List.length (splitLine_append (c :: rest))
  have : (splitLine (c :: rest)).1 ≠ [] := by
    by_cases hc : c == 10 <;> simp [splitLine, hc]
  have := List.length_pos_iff.2 this
  simp only [List.length_append] at h
  omega

def decision? (line : String) : Option Bool :=
  let answer := Text.lower (Text.trim line)
  if answer = "y" ∨ answer = "yes" then some true
  else if answer = "n" ∨ answer = "no" then some false
  else none

/-- What the next line of the input comes to, and the input behind it. -/
inductive Heard where
  | nothing
  | noText (rest : Bytes)
  | undecided (rest : Bytes)
  | decided (answer : Bool) (rest : Bytes)

def hear (input : Bytes) : Heard :=
  match input with
  | [] => .nothing
  | b :: more =>
    let (line, rest) := splitLine (b :: more)
    match line.text?.map decision? with
    | none => .noText rest
    | some none => .undecided rest
    | some (some answer) => .decided answer rest

theorem length_of_hear_undecided {input rest : Bytes} (h : hear input = .undecided rest) :
    rest.length < input.length := by
  unfold hear at h
  split at h
  · cases h
  · next b more =>
    have := length_splitLine_cons b more
    simp only at h
    split at h <;> cases h
    exact this

/-- A question and what came of it. -/
structure Exchange where
  /-- What was written. -/
  output : String
  /-- The input behind the lines that were read. -/
  unread : Bytes
  /-- The decision; none if a line was no text. -/
  answer : Option Bool
  deriving Repr

def prompt (question : String) : String := question ++ " [y/n]: "

/-- Asks until there is a decision. -/
def ask (question : String) (input : Bytes) : Exchange :=
  match _h : hear input with
  | .nothing => ⟨prompt question ++ "\n", [], some false⟩
  | .noText rest => ⟨prompt question, rest, none⟩
  | .decided answer rest => ⟨prompt question, rest, some answer⟩
  | .undecided rest =>
    let again := ask question rest
    { again with output := prompt question ++ "Please enter y or n\n" ++ again.output }
termination_by input.length
decreasing_by exact length_of_hear_undecided (by assumption)

/-- The lines of a text: a carriage return in front of a line feed is part of the line break, and a line
break at the end starts no line. -/
def linesOf : List Char → List (List Char)
  | [] => []
  | '\n' :: rest => [] :: linesOf rest
  | '\r' :: '\n' :: rest => [] :: linesOf rest
  | c :: rest =>
    match linesOf rest with
    | [] => [[c]]
    | line :: lines => (c :: line) :: lines

/-- A shown text stands out by five blanks before each line. -/
def indent (text : String) : String :=
  "\n".intercalate ((linesOf text.toList).map fun line => "     " ++ String.ofList line)

end Rollout.Console
