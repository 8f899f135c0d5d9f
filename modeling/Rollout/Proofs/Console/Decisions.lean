import Rollout.Console

/-!
# One decision for each question

A question takes lines from the input up to the first that decides: one that says yes or no, or that is no
text. `Console.Asked` says what that comes to. Questions that are put one after the other over the same input
are decided by the lines that decide, in their order, so none is answered by a line that belongs to another.
-/

namespace Rollout.Console

/-! ## Lines -/

/-- Lines as they are read: each goes up to its line feed, which the last may lack. -/
inductive Lines : List Bytes → Prop
  | nil : Lines []
  | last {line} (hne : line ≠ []) (hopen : 10 ∉ line) : Lines [line]
  | cons {body ls} (hbody : 10 ∉ body) (hrest : Lines ls) : Lines ((body ++ [10]) :: ls)

def lines : Bytes → List Bytes
  | [] => []
  | b :: rest =>
    if b = 10 then [b] :: lines rest
    else match lines rest with
      | [] => [[b]]
      | line :: ls => (b :: line) :: ls

variable {question : String} {input line body rest : Bytes} {ls : List Bytes}

theorem flatten_lines (input : Bytes) : (lines input).flatten = input := by
  induction input with
  | nil => rfl
  | cons b rest ih =>
    by_cases hb : b = 10
    · simp [lines, hb, ih]
    · cases hrest : lines rest with
      | nil =>
        obtain rfl : [] = rest := by simpa [hrest] using ih
        simp [lines, hb]
      | cons line ls =>
        have hflat : line ++ ls.flatten = rest := by simpa [hrest] using ih
        simp [lines, hb, hrest, hflat]

theorem lines_lines (input : Bytes) : Lines (lines input) := by
  induction input with
  | nil => exact .nil
  | cons b rest ih =>
    by_cases hb : b = 10
    · have hline : Lines (([] ++ [10]) :: lines rest) := .cons (by simp) ih
      simpa [lines, hb] using hline
    · cases hrest : lines rest with
      | nil =>
        simp only [lines, hb, hrest, if_false]
        exact .last (by simp) (by simpa using Ne.symm hb)
      | cons line ls =>
        simp only [lines, hb, hrest, if_false]
        rw [hrest] at ih
        generalize hline : line :: ls = all at ih
        cases ih with
        | nil => cases hline
        | last hne hopen =>
          obtain ⟨rfl, rfl⟩ := List.cons.inj hline
          exact .last (by simp) (by simpa [Ne.symm hb] using hopen)
        | @cons body _ hbody hls =>
          obtain ⟨rfl, rfl⟩ := List.cons.inj hline
          have hbody : 10 ∉ b :: body := by simpa [Ne.symm hb] using hbody
          exact .cons hbody hls

theorem lines_append (hbody : 10 ∉ body) : lines (body ++ 10 :: rest) = (body ++ [10]) :: lines rest := by
  induction body with
  | nil => simp [lines]
  | cons b body ih =>
    rw [List.mem_cons, not_or] at hbody
    simp [lines, Ne.symm hbody.1, ih hbody.2]

theorem lines_of_open (hne : line ≠ []) (hopen : 10 ∉ line) : lines line = [line] := by
  induction line with
  | nil => exact absurd rfl hne
  | cons b line ih =>
    rw [List.mem_cons, not_or] at hopen
    by_cases hline : line = []
    · simp [hline, lines, Ne.symm hopen.1]
    · simp [lines, Ne.symm hopen.1, ih hline hopen.2]

/-- There is one way to read an input in lines. -/
theorem Lines.eq_lines (h : Lines ls) : lines ls.flatten = ls := by
  induction h with
  | nil => rfl
  | last hne hopen => simpa using lines_of_open hne hopen
  | cons hbody _ ih => simp [lines_append hbody, ih]

theorem lines_cons (b : UInt8) (more : Bytes) :
    lines (b :: more) = (splitLine (b :: more)).1 :: lines (splitLine (b :: more)).2 := by
  induction more generalizing b with
  | nil => by_cases hb : b = 10 <;> simp [lines, splitLine, hb]
  | cons c more ih =>
    by_cases hb : b = 10
    · simp [lines, splitLine, hb]
    · rw [lines, ih c]
      simp [hb, splitLine]

theorem eq_nil_of_lines (h : lines input = []) : input = [] := by
  rw [← flatten_lines input, h]
  rfl

theorem Lines.tail (h : Lines (line :: ls)) : Lines ls := by
  cases h with
  | last => exact .nil
  | cons _ hrest => exact hrest

theorem lines_flatten_of_append (read : List Bytes) (h : lines input = read ++ ls) :
    lines ls.flatten = ls := by
  have hlines : Lines (read ++ ls) := h ▸ lines_lines input
  clear h
  induction read with
  | nil => exact hlines.eq_lines
  | cons line read ih => exact ih hlines.tail

/-! ## What a line says -/

/-- A line as it is heard, if it is a text: without blanks at its ends, and in lower case. -/
def heard? (line : Bytes) : Option String :=
  line.text?.map fun text => Text.lower (Text.trim text)

/-- Is this the last line that a question needs? -/
def decides (line : Bytes) : Bool := (heard? line).all (· ∈ ["y", "yes", "n", "no"])

/-- The answer that the deciding line gives. The end of the input says no, and there is no answer if the line
is no text. -/
inductive Answers : Option Bytes → Option Bool → Prop
  | endOfInput : Answers none (some false)
  | yes {l} (h : heard? l = some "y" ∨ heard? l = some "yes") : Answers (some l) (some true)
  | no {l} (h : heard? l = some "n" ∨ heard? l = some "no") : Answers (some l) (some false)
  | noText {l} (h : l.text? = none) : Answers (some l) none

theorem Answers.eq_some_true_iff {l? : Option Bytes} {answer : Option Bool} (h : Answers l? answer) :
    answer = some true ↔ ∃ line, l? = some line ∧ (heard? line = some "y" ∨ heard? line = some "yes") := by
  cases h with
  | endOfInput => simp
  | yes h => simp [h]
  | no h => rcases h with h | h <;> simp [h]
  | noText h => simp [heard?, h]

/-- What is written while `n` lines decide nothing. -/
def asking (question : String) : (n : Nat) → String
  | 0 => ""
  | n + 1 => prompt question ++ "Please enter y or n\n" ++ asking question n

/-- What a question comes to if the lines `before` decide nothing, and the first of those `after` them
does. -/
structure Asked (question : String) (before after : List Bytes) (x : Exchange) : Prop where
  output : x.output =
    asking question before.length ++ prompt question ++ if after = [] then "\n" else ""
  unread : x.unread = after.tail.flatten
  answer : Answers after.head? x.answer

/-! ## A single question -/

theorem hear_of_lines (h : lines input = line :: ls) : hear input =
    match line.text?.map decision? with
    | none => .noText ls.flatten
    | some none => .undecided ls.flatten
    | some (some answer) => .decided answer ls.flatten := by
  cases input with
  | nil => cases h
  | cons b more =>
    rw [lines_cons] at h
    obtain ⟨rfl, rfl⟩ := List.cons.inj h
    rw [flatten_lines]
    rfl

/-- A line is no text, says nothing, or answers the question. -/
theorem line_cases (line : Bytes) :
    (line.text?.map decision? = none ∧ line.text? = none ∧ decides line = true) ∨
      (line.text?.map decision? = some none ∧ decides line = false) ∨
      ∃ answer, line.text?.map decision? = some (some answer) ∧ decides line = true ∧
        Answers (some line) (some answer) := by
  cases htext : line.text? with
  | none => exact .inl ⟨rfl, rfl, by simp [decides, heard?, htext]⟩
  | some text =>
    have hheard : heard? line = some (Text.lower (Text.trim text)) := by simp [heard?, htext]
    by_cases hyes : Text.lower (Text.trim text) = "y" ∨ Text.lower (Text.trim text) = "yes"
    · refine .inr (.inr ⟨true, ?_, ?_, .yes (by simpa [hheard] using hyes)⟩)
      · simp [decision?, hyes]
      · rcases hyes with h | h <;> simp [decides, hheard, h]
    by_cases hno : Text.lower (Text.trim text) = "n" ∨ Text.lower (Text.trim text) = "no"
    · refine .inr (.inr ⟨false, ?_, ?_, .no (by simpa [hheard] using hno)⟩)
      · simp [decision?, hyes, hno]
      · rcases hno with h | h <;> simp [decides, hheard, h]
    · rw [not_or] at hyes hno
      exact .inr (.inl ⟨by simp [decision?, hyes, hno], by simp [decides, hheard, hyes, hno]⟩)

/-- A question is asked once, and is over unless the line that is read says nothing. -/
theorem ask_eq : ask question input =
    match hear input with
    | .nothing => ⟨prompt question ++ "\n", [], some false⟩
    | .noText rest => ⟨prompt question, rest, none⟩
    | .decided answer rest => ⟨prompt question, rest, some answer⟩
    | .undecided rest =>
      { ask question rest with
        output := prompt question ++ "Please enter y or n\n" ++ (ask question rest).output } := by
  rw [ask]
  split <;> simp_all

theorem asked (question : String) (input : Bytes) :
    Asked question ((lines input).takeWhile (!decides ·)) ((lines input).dropWhile (!decides ·))
      (ask question input) := by
  generalize hlines : lines input = ls
  induction ls generalizing input with
  | nil =>
    obtain rfl := eq_nil_of_lines hlines
    rw [ask_eq]
    exact ⟨by simp [hear, asking], rfl, .endOfInput⟩
  | cons line ls ih =>
    rw [ask_eq, hear_of_lines hlines]
    rcases line_cases line with ⟨hverdict, htext, hdecides⟩ | ⟨hverdict, hdecides⟩ |
      ⟨answer, hverdict, hdecides, hanswers⟩
    · rw [hverdict]
      simp only [List.takeWhile_cons, List.dropWhile_cons, hdecides, Bool.not_true, Bool.false_eq_true,
        if_false]
      exact ⟨by simp [asking], rfl, .noText htext⟩
    · obtain ⟨houtput, hunread, hanswer⟩ := ih ls.flatten (lines_flatten_of_append [line] hlines)
      rw [hverdict]
      simp only [List.takeWhile_cons, List.dropWhile_cons, hdecides, Bool.not_false, if_true]
      exact ⟨by simp [houtput, asking, String.append_assoc], hunread, hanswer⟩
    · rw [hverdict]
      simp only [List.takeWhile_cons, List.dropWhile_cons, hdecides, Bool.not_true, Bool.false_eq_true,
        if_false]
      exact ⟨by simp [asking], rfl, hanswers⟩

/-- What is read for a question is what decides nothing, and the next line that decides. -/
theorem exists_asked (question : String) (input : Bytes) :
    ∃ before after, lines input = before ++ after ∧ before.filter decides = [] ∧
      (∀ line, after.head? = some line → decides line = true) ∧
      Asked question before after (ask question input) := by
  refine ⟨_, _, List.takeWhile_append_dropWhile.symm, ?_, ?_, asked question input⟩
  · refine List.filter_eq_nil_iff.2 fun line hline => ?_
    simpa using List.all_eq_true.1 List.all_takeWhile line hline
  · intro line hline
    simpa [hline] using List.head?_dropWhile_not (!decides ·) (lines input)

/-! ## One question after the other -/

/-- Questions put one after the other over the same input. -/
def series : (questions : List String) → Bytes → List Exchange
  | [], _ => []
  | question :: rest, input =>
    let x := ask question input
    x :: series rest x.unread

/-- What question `i` of a series comes to: it is decided by line `i` of those that decide, and the input has
been read up to this line. -/
structure InTurn (input : Bytes) (i : Nat) (x : Exchange) : Prop where
  answer : Answers ((lines input).filter decides)[i]? x.answer
  read : ∃ read rest, lines input = read ++ rest ∧ x.unread = rest.flatten ∧
    read.filter decides = ((lines input).filter decides).take (i + 1) ∧
    (rest ≠ [] → read.getLast?.any decides = true)

theorem length_series (questions : List String) (input : Bytes) :
    (series questions input).length = questions.length := by
  induction questions generalizing input with
  | nil => rfl
  | cons question rest ih => simp [series, ih]

theorem InTurn.first (question : String) (input : Bytes) : InTurn input 0 (ask question input) := by
  obtain ⟨before, after, hlines, hbefore, hafter, hasked⟩ := exists_asked question input
  have hfilter : (lines input).filter decides = after.filter decides := by simp [hlines, hbefore]
  cases after with
  | nil =>
    have hnone : (lines input).filter decides = [] := hfilter
    refine ⟨?_, lines input, [], by simp, hasked.unread, by simp [hnone], by simp⟩
    simpa [hnone] using hasked.answer
  | cons line after =>
    have hdecides : decides line = true := hafter line rfl
    have hcons : (lines input).filter decides = line :: after.filter decides := by
      rw [hfilter, List.filter_cons_of_pos hdecides]
    refine ⟨?_, before ++ [line], after, by simp [hlines], hasked.unread, ?_, by simp [hdecides]⟩
    · simpa [hcons] using hasked.answer
    · simp [hcons, hbefore, hdecides]

/-- A question that goes before the others takes one line that decides. -/
theorem InTurn.later {i : Nat} {x : Exchange} (h : InTurn (ask question input).unread i x) :
    InTurn input (i + 1) x := by
  obtain ⟨before, after, hlines, hbefore, hafter, hasked⟩ := exists_asked question input
  have hfilter : (lines input).filter decides = after.filter decides := by simp [hlines, hbefore]
  obtain ⟨hanswer, read, left, hread, hunread, hdecided, hlast⟩ := h
  cases after with
  | nil =>
    have hnone : (lines input).filter decides = [] := hfilter
    have hnothing : lines (ask question input).unread = [] := by
      rw [hasked.unread]
      rfl
    obtain ⟨rfl, rfl⟩ := List.append_eq_nil_iff.1 (hread.symm.trans hnothing)
    refine ⟨?_, lines input, [], by simp, hunread, by simp [hnone], by simp⟩
    simpa [hnone, hnothing] using hanswer
  | cons line after =>
    have hdecides : decides line = true := hafter line rfl
    have hcons : (lines input).filter decides = line :: after.filter decides := by
      rw [hfilter, List.filter_cons_of_pos hdecides]
    have hsplit : lines input = (before ++ [line]) ++ after := by simp [hlines]
    have hrest : lines (ask question input).unread = after := by
      rw [hasked.unread]
      exact lines_flatten_of_append (before ++ [line]) hsplit
    rw [hrest] at hanswer hread hdecided
    refine ⟨?_, before ++ line :: read, left, by simp [hlines, hread], hunread, ?_, fun hleft => ?_⟩
    · simpa [hcons] using hanswer
    · simp [hcons, hbefore, hdecides, hdecided]
    · cases hend : read.getLast? with
      | none =>
        have hdecidedLast := hlast hleft
        simp [hend] at hdecidedLast
      | some last => simpa [List.getLast?_cons, hend] using hlast hleft

theorem series_inTurn {questions : List String} {i : Nat} {x : Exchange}
    (h : (series questions input)[i]? = some x) : InTurn input i x := by
  induction questions generalizing input i with
  | nil => simp [series] at h
  | cons question rest ih =>
    cases i with
    | zero =>
      obtain rfl : ask question input = x := by simpa [series] using h
      exact .first question input
    | succ i =>
      have hlater : (series rest (ask question input).unread)[i]? = some x := by simpa [series] using h
      exact (ih hlater).later

end Rollout.Console
