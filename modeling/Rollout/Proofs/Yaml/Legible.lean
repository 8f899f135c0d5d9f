import Rollout.Proofs.Yaml.Records

/-!
# Written characters

Every character that is written is one that YAML allows, whatever the texts hold: what may not
stand in a document is written as an escape.
-/

namespace Rollout.Yaml

variable {c d : Char} {cs : List Char} {indent : Nat} {afterBreak : Bool}

/-- All characters are such that YAML allows them. -/
def Legible (cs : List Char) : Prop := ∀ c ∈ cs, isAllowed c.toNat = true

theorem Legible.nil : Legible [] := List.forall_mem_nil _

theorem Legible.append {ds : List Char} (hcs : Legible cs) (hds : Legible ds) :
    Legible (cs ++ ds) :=
  List.forall_mem_append.2 ⟨hcs, hds⟩

theorem Legible.cons (hc : isAllowed c.toNat = true) (hcs : Legible cs) : Legible (c :: cs) :=
  List.forall_mem_cons.2 ⟨hc, hcs⟩

theorem legible_blanks {n : Nat} : Legible (blanks n) := by
  intro c hc
  rw [List.eq_of_mem_replicate hc]
  decide

theorem legible_of_writable (h : ∀ c ∈ cs, isWritable c = true) : Legible cs :=
  fun c hc => isAllowed_of_isWritable (h c hc)

theorem legible_escaped : Legible (escaped c) := by
  cases hwritten : isWritable c && !isBreak c with
  | true =>
    have hc : isAllowed c.toNat = true := by
      rw [Bool.and_eq_true] at hwritten
      exact isAllowed_of_isWritable hwritten.1
    by_cases hspecial : c = '"' ∨ c = '\\'
    · rw [show escaped c = ['\\', c] by simp [escaped, hspecial]]
      exact .cons (by decide) (.cons hc .nil)
    · rw [not_or] at hspecial
      rw [show escaped c = [c] by simp [escaped, hspecial, hwritten]]
      exact .cons hc .nil
  | false =>
    have hall : (escaped c).all (isAllowed ·.toNat) = true :=
      of_not_written (p := fun c => (escaped c).all (isAllowed ·.toNat)) hwritten
        (by decide +kernel) (by decide +kernel)
    exact List.all_eq_true.1 hall

theorem legible_doubleQuoted : Legible (doubleQuoted cs) := by
  refine .append (.cons (by decide) fun d hd => ?_) (.cons (by decide) .nil)
  obtain ⟨c, -, hd⟩ := List.mem_flatMap.1 hd
  exact legible_escaped d hd

theorem legible_singleQuotedFrom (h : Legible cs) :
    Legible (singleQuotedFrom indent afterBreak cs) := by
  have hindent : Legible (if afterBreak then blanks indent else []) := by
    split
    · exact legible_blanks
    · exact .nil
  induction cs generalizing afterBreak with
  | nil => exact .append hindent (.cons (by decide) .nil)
  | cons c rest ih =>
    obtain ⟨hc, hrest⟩ := List.forall_mem_cons.1 h
    rw [singleQuotedFrom]
    split
    · exact .cons hc (ih hrest legible_blanks)
    · refine .append (.append hindent ?_) (ih hrest .nil)
      split
      · exact .cons (by decide) (.cons (by decide) .nil)
      · exact .cons hc .nil

theorem legible_blockLines (h : Legible cs) : Legible (blockLines indent afterBreak cs) := by
  induction cs generalizing afterBreak with
  | nil => exact .nil
  | cons c rest ih =>
    obtain ⟨hc, hrest⟩ := List.forall_mem_cons.1 h
    rw [blockLines]
    split
    · exact .cons hc (ih hrest)
    · refine .append ?_ (.cons hc (ih hrest))
      split
      · exact legible_blanks
      · exact .nil

theorem legible_blockHeader : Legible (blockHeader cs) := by
  unfold blockHeader
  dsimp only
  refine .append (.cons (by decide) ?_) ?_
  · split
    · exact .cons (by decide) .nil
    · exact .nil
  · split
    · exact .cons (by decide) .nil
    split
    · exact .cons (by decide) .nil
    · exact .nil

theorem legible_textPiece {key : Bool} {s : String} : Legible (textPiece key indent s).chars := by
  unfold textPiece
  dsimp only
  split
  · next hform => exact legible_of_writable (formOf_eq_plain hform).1.writable
  · next hform =>
    have hwritable := (SingleText.of_singleAllowed (formOf_eq_single hform).1
      (formOf_eq_single hform).2).writable
    exact .cons (by decide) (legible_singleQuotedFrom (legible_of_writable hwritable))
  · exact legible_doubleQuoted
  · next hform =>
    have hwritable := (formOf_eq_block hform).2
    exact .append legible_blockHeader
      (.cons (by decide) (legible_blockLines (legible_of_writable hwritable)))

theorem legible_endLine {p : Piece} (h : Legible p.chars) : Legible (endLine p) := by
  unfold endLine
  split
  · exact h
  · exact h.append (.cons (by decide) .nil)

mutual

theorem legible_writeValue (value : Output) (hvalue : IsRecord value) {afterKey : Bool}
    {listIndent mapIndent inner : Nat} :
    Legible (writeValue afterKey listIndent mapIndent inner value) := by
  cases value with
  | text s =>
    rw [writeValue]
    exact .cons (by decide) (legible_endLine legible_textPiece)
  | bool b =>
    rw [writeValue]
    cases b <;> exact List.all_eq_true.1 (by decide)
  | list items =>
    obtain ⟨hne, hitems⟩ := hvalue
    cases items with
    | nil => exact absurd rfl hne
    | cons item rest =>
      rw [writeValue]
      split
      · exact .cons (by decide) (legible_writeItems (item :: rest) hitems)
      · exact .cons (by decide) (legible_writeItems (item :: rest) hitems)
  | map fields =>
    obtain ⟨hne, hfields⟩ := hvalue
    cases fields with
    | nil => exact absurd rfl hne
    | cons field rest =>
      rw [writeValue]
      split
      · exact .cons (by decide) (legible_writeFields (field :: rest) hfields)
      · exact .cons (by decide) (legible_writeFields (field :: rest) hfields)
  | _ => cases hvalue

theorem legible_writeFields (fields : List (String × Output)) (hfields : AreFields fields)
    {indentFirst : Bool} {indent : Nat} : Legible (writeFields indentFirst indent fields) := by
  cases fields with
  | nil =>
    rw [writeFields]
    exact .nil
  | cons field rest =>
    obtain ⟨name, value⟩ := field
    obtain ⟨hname, hvalue, hrest⟩ := hfields
    rw [writeFields, if_pos hname.simple]
    refine .append (.append (.append ?_ (.append legible_textPiece (.cons (by decide) .nil)))
      (legible_writeValue value hvalue)) (legible_writeFields rest hrest)
    split
    · exact legible_blanks
    · exact .nil

theorem legible_writeItems (items : List Output) (hitems : AreItems items) {indentFirst : Bool}
    {indent : Nat} : Legible (writeItems indentFirst indent items) := by
  match items with
  | [] =>
    rw [writeItems]
    exact .nil
  | .map fields :: rest =>
    obtain ⟨hfields, hrest⟩ := hitems
    rw [writeItems]
    refine .append (.append ?_ (.cons (by decide) (legible_writeValue (.map fields) hfields)))
      (legible_writeItems rest hrest)
    split
    · exact legible_blanks
    · exact .nil

end
end Rollout.Yaml
