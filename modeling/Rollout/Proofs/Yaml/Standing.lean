import Rollout.Proofs.Yaml.Words
import Rollout.Yaml.Token.Reading

/-!
# Where a reader of tokens stands

A reader is described by the kinds of the tokens it has handed out or kept a place for, the columns
of the open blocks, and what is in front of it. `Reader.Before` describes it with the white space
in front of the next token still unread and the blocks that this token ends still open.
-/

namespace Rollout.Yaml

variable {c : Char} {cs tail : List Char} {m : Mark} {n column : Nat} {r : Reader}
  {ks : List Token.Kind} {indents : List Nat}

/-! ## White space -/

theorem Cursor.skipMany_eq (n : Nat) (cursor : Cursor) :
    skipMany n cursor = ⟨cursor.rest.drop n, skipColumns cursor.mark n⟩ := by
  induction n generalizing cursor with
  | zero => rfl
  | succ n ih =>
    rw [skipMany, ih, skip, skipColumns_succ]
    cases cursor.rest with
    | nil => simp
    | cons c rest => rfl

theorem head?_of_startsToken (h : startsToken tail = true) :
    ∀ c ∈ tail.head?, isSpaceOrTab c = false ∧ isBreak c = false ∧ c ≠ '#' ∧ c ≠ '\ufeff' := by
  intro c hc
  cases tail with
  | nil => cases hc
  | cons d rest =>
    cases hc
    simpa [startsToken, and_assoc] using h

theorem takeWhile_blanks {p : Char → Bool} (hspace : p ' ' = true)
    (htail : ∀ c ∈ tail.head?, p c = false) :
    (blanks n ++ tail).takeWhile p = blanks n := by
  rw [List.takeWhile_append_of_pos]
  · cases tail with
    | nil => exact List.append_nil _
    | cons c rest => rw [List.takeWhile_cons_of_neg (by simp [htail c rfl]), List.append_nil]
  · intro c hc
    rw [List.eq_of_mem_replicate hc]
    exact hspace

namespace Reader

theorem skipToToken_blanks {fuel : Nat} (hrest : r.cursor.rest = blanks n ++ tail)
    (htail : startsToken tail = true) :
    r.skipToToken (fuel + 1) = { r with cursor := ⟨tail, skipColumns r.mark n⟩ } := by
  have hhead := head?_of_startsToken htail
  have hmark : (r.cursor.mark.index == 0 && r.cursor.rest.head? == some '\ufeff') = false := by
    rw [hrest, Bool.and_eq_false_iff]
    right
    cases n with
    | zero =>
      cases htail' : tail.head? with
      | none => simp [blanks, htail']
      | some c => simpa [blanks, htail'] using (hhead c htail').2.2.2
    | succ n => rfl
  have hskip (tabs : Bool) : r.cursor.skipWhile (fun ch => ch == ' ' || (tabs && ch == '\t')) =
      ⟨tail, skipColumns r.mark n⟩ := by
    rw [Cursor.skipWhile, hrest, takeWhile_blanks (by simp), blanks, List.length_replicate,
      Cursor.skipMany_eq, hrest, blanks, List.drop_left' List.length_replicate]
    · rfl
    · intro c hc
      have hblank := (hhead c hc).1
      rw [isSpaceOrTab, Bool.or_eq_false_iff] at hblank
      simp [hblank]
  have hcomment : (⟨tail, skipColumns r.mark n⟩ : Cursor).skipComment =
      ⟨tail, skipColumns r.mark n⟩ := by
    unfold Cursor.skipComment
    split
    · next heq =>
      have heq : tail = '#' :: _ := heq
      exact absurd rfl (hhead '#' (by rw [heq]; rfl)).2.2.1
    · rfl
  rw [skipToToken]
  simp only [hmark, Bool.false_eq_true, if_false, hskip, hcomment]
  cases tail with
  | nil => rfl
  | cons c rest => simp [(hhead c rfl).2.1]

/-- The rest of a line that is over, and blanks on the next one. -/
theorem skipToToken_line (fuel : Nat) (hflow : r.inFlow = false)
    (hrest : r.cursor.rest = '\n' :: (blanks n ++ tail)) (htail : startsToken tail = true) :
    r.skipToToken (fuel + 2) =
      { r with cursor := ⟨tail, skipColumns (r.mark.nextLine 1) n⟩, keyAllowed := true } := by
  have hskip (tabs : Bool) : r.cursor.skipWhile (fun ch => ch == ' ' || (tabs && ch == '\t')) =
      r.cursor := by
    rw [Cursor.skipWhile, hrest, List.takeWhile_cons_of_neg (by simp)]
    rfl
  have hcomment : r.cursor.skipComment = r.cursor := by
    unfold Cursor.skipComment
    rw [hrest]
    rfl
  have hbreak : r.cursor.skipBreak = ⟨blanks n ++ tail, r.mark.nextLine 1⟩ := by
    unfold Cursor.skipBreak
    rw [hrest]
    rfl
  have hmark : (r.cursor.mark.index == 0 && r.cursor.rest.head? == some '\ufeff') = false := by
    rw [hrest, Bool.and_eq_false_iff]
    exact .inr rfl
  rw [skipToToken]
  simp only [hmark, Bool.false_eq_true, if_false, hskip, hcomment, hflow, Bool.not_false,
    Bool.or_true, hbreak]
  split
  · next c rest hc =>
    rw [hrest] at hc
    cases hc
    rw [if_pos (by decide), skipToToken_blanks rfl htail]
    rfl
  · next hc =>
    rw [hrest] at hc
    cases hc

/-! ## Tokens and blocks -/

/-- The kinds of the tokens so far, those in filled places among them. -/
def kinds (r : Reader) : List Token.Kind := (r.entries.toList.flatMap Entry.tokens).map Token.kind

@[simp] theorem kinds_push {kind : Token.Kind} {start stop : Mark} :
    (r.push kind start stop).kinds = r.kinds ++ [kind] := by
  simp [kinds, push, Entry.tokens]

theorem kinds_pushEnds : (r.pushEnds n).kinds = r.kinds ++ List.replicate n .blockEnd := by
  induction n generalizing r with
  | zero => simp [pushEnds]
  | succ n ih =>
    rw [pushEnds, ih, kinds_push, List.append_assoc, List.singleton_append, List.replicate_succ]

/-- Ending blocks leaves everything but the tokens. -/
theorem pushEnds_eq : ∃ entries, r.pushEnds n = { r with entries } := by
  induction n generalizing r with
  | zero => exact ⟨r.entries, rfl⟩
  | succ n ih => exact ih

theorem closedAt_of_le (h : ∀ i ∈ indents.head?, i ≤ column) :
    closedAt column indents = (indents, 0) := by
  cases indents with
  | nil => rfl
  | cons i rest =>
    have hle := h i rfl
    rw [closedAt, if_neg (by omega)]

theorem head?_closedAt : ∀ i ∈ (closedAt column indents).1.head?, i ≤ column := by
  intro i hi
  induction indents with
  | nil => cases hi
  | cons j rest ih =>
    rw [closedAt] at hi
    split at hi
    · exact ih hi
    · cases hi
      omega

/-! ## In front of a token -/

/-- The reader stands in front of a token; the blocks it ends are ended. -/
structure Stands (r : Reader) (ks : List Token.Kind) (indents : List Nat) (rest : List Char)
    (column : Nat) : Prop where
  kinds_eq : r.kinds = ks
  indents_eq : r.indents = indents
  keys_eq : r.keys = [none]
  keyAllowed : r.keyAllowed = true
  rest_eq : r.cursor.rest = rest
  column_eq : r.mark.column = column

def prepare (r : Reader) : Except Problem Reader :=
  (r.skipToToken (r.cursor.rest.length + 1)).dropStale.map fun r => r.closeTo r.mark.column

theorem fetch_eq : r.fetch = r.prepare.bind fetchHere := by
  unfold fetch prepare
  change (_ >>= fun r : Reader => (r.closeTo r.mark.column).fetchHere) = _
  cases (r.skipToToken (r.cursor.rest.length + 1)).dropStale <;> rfl

theorem closeTo_eq (column : Nat) (hkeys : r.keys.length = 1) : ∃ entries,
    r.closeTo column =
      { r with indents := (closedAt column r.indents).1, entries } ∧
      (r.closeTo column).kinds =
        r.kinds ++ List.replicate (closedAt column r.indents).2 .blockEnd := by
  have hflow : r.inFlow = false := by simp [inFlow, depth, hkeys]
  obtain ⟨entries, hentries⟩ :=
    pushEnds_eq (r := { r with indents := (closedAt column r.indents).1 })
      (n := (closedAt column r.indents).2)
  have hclose : r.closeTo column = { r with indents := (closedAt column r.indents).1 }.pushEnds
      (closedAt column r.indents).2 := by
    rw [closeTo, if_neg (by simp [hflow])]
  refine ⟨entries, hclose.trans hentries, ?_⟩
  rw [hclose, kinds_pushEnds]
  rfl

theorem dropStale_none (hkeys : r.keys = [none]) : r.dropStale = .ok r := by
  cases r with
  | mk cursor entries indents keys keyAllowed =>
    cases hkeys
    rfl

/-- What the next token is read from: the tokens and blocks before the blocks that it ends are
ended. -/
def Before (r : Reader) (ks : List Token.Kind) (indents : List Nat) (rest : List Char)
    (column : Nat) : Prop :=
  rest.length ≤ r.cursor.rest.length ∧ ∃ r', r.prepare = .ok r' ∧
    r'.Stands (ks ++ List.replicate (closedAt column indents).2 .blockEnd)
      (closedAt column indents).1 rest column

/-- A block whose column is greater than that of the next token is over. -/
theorem Before.ended {i : Nat} (h : r.Before ks (i :: indents) tail column) (hless : column < i) :
    r.Before (ks ++ [.blockEnd]) indents tail column := by
  obtain ⟨hlength, r', hprepare, hstands⟩ := h
  refine ⟨hlength, r', hprepare, ?_⟩
  rw [closedAt, if_pos hless] at hstands
  rw [List.append_assoc, List.singleton_append, ← List.replicate_succ]
  exact hstands

theorem before_of_skip {r' : Reader} (hskip : r.skipToToken (r.cursor.rest.length + 1) = r')
    (h : r'.Stands ks indents tail column) (hlength : tail.length ≤ r.cursor.rest.length) :
    r.Before ks indents tail column := by
  have hkeys : r'.keys.length = 1 := by rw [h.keys_eq]; rfl
  obtain ⟨entries, hclose, hkinds⟩ := closeTo_eq column hkeys
  refine ⟨hlength, r'.closeTo column, ?_, ?_⟩
  · rw [prepare, hskip, dropStale_none h.keys_eq, ← h.column_eq]
    rfl
  · rw [h.kinds_eq, h.indents_eq] at hkinds
    refine ⟨hkinds, ?_, ?_, ?_, ?_, ?_⟩ <;> rw [hclose]
    · rw [← h.indents_eq]
    · exact h.keys_eq
    · exact h.keyAllowed
    · exact h.rest_eq
    · exact h.column_eq

theorem inFlow_of_keys (h : r.keys.length = 1) : r.inFlow = false := by
  simp [inFlow, depth, h]

theorem before_of_blanks (hks : r.kinds = ks) (hindents : r.indents = indents)
    (hkeys : r.keys = [none]) (hallowed : r.keyAllowed = true)
    (hrest : r.cursor.rest = blanks n ++ tail) (htail : startsToken tail = true) :
    r.Before ks indents tail (r.mark.column + n) := by
  refine before_of_skip (skipToToken_blanks hrest htail)
    ⟨hks, hindents, hkeys, hallowed, rfl, rfl⟩ ?_
  rw [hrest, List.length_append]
  exact Nat.le_add_left _ _

theorem before_of_line (hks : r.kinds = ks) (hindents : r.indents = indents)
    (hkeys : r.keys = [none]) (hrest : r.cursor.rest = '\n' :: (blanks n ++ tail))
    (htail : startsToken tail = true) : r.Before ks indents tail n := by
  have hflow : r.inFlow = false := inFlow_of_keys (by rw [hkeys]; rfl)
  have hskip := skipToToken_line (blanks n ++ tail).length hflow hrest htail
  have hfuel : r.cursor.rest.length + 1 = (blanks n ++ tail).length + 2 := by
    rw [hrest, List.length_cons]
  rw [← hfuel] at hskip
  refine before_of_skip hskip ⟨hks, hindents, hkeys, rfl, rfl, Nat.zero_add n⟩ ?_
  rw [hrest, List.length_cons, List.length_append]
  omega

end Reader
end Rollout.Yaml
