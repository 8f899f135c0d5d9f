import Rollout.Proofs.Yaml.Legible

/-!
# The tokens of a written record

The tokens of the document of a record are those of the record, and what ends the document and the
text.
-/

namespace Rollout.Yaml

variable {n : Nat} {r r' : Reader} {ks : List Token.Kind} {indents : List Nat}
  {fields : List (String × Output)}

namespace Reader

/-! ## Reading to the end -/

theorem readAll_of_fetches (h : r.Fetches r') {fuel : Nat} (hfuel : r.cursor.rest.length < fuel) :
    ∃ left, r'.cursor.rest.length < left ∧ r.readAll none fuel = r'.readAll none left := by
  induction h using Relation.ReflTransGen.head_induction_on generalizing fuel with
  | refl => exact ⟨fuel, hfuel, rfl⟩
  | head hstep _ ih =>
    cases fuel with
    | zero => cases hfuel
    | succ fuel =>
      obtain ⟨left, hleft, hread⟩ :=
        ih (Nat.lt_of_lt_of_le hstep.shorter (Nat.le_of_lt_succ hfuel))
      refine ⟨left, hleft, ?_⟩
      rw [readAll, hstep.fetch_eq]
      simp only [hstep.not_ended, Bool.false_eq_true, if_false, hread]

theorem readAll_of_end (hfetch : r.fetch = .ok r') (hended : r'.ended = true) {fuel : Nat}
    (hfuel : r.cursor.rest.length < fuel) : r.readAll none fuel = r'.handOut none := by
  cases fuel with
  | zero => cases hfuel
  | succ fuel =>
    rw [readAll, hfetch]
    simp only [hended, if_true]

theorem closeAll_eq (hkeys : r.keys.length = 1) : ∃ entries, r.closeAll =
    { r with indents := [], entries } ∧
      r.closeAll.kinds = r.kinds ++ List.replicate r.indents.length .blockEnd := by
  obtain ⟨entries, hentries⟩ := pushEnds_eq (r := { r with indents := [] }) (n := r.indents.length)
  have hclose : r.closeAll = { r with indents := [] }.pushEnds r.indents.length := by
    rw [closeAll, if_neg (by simp [inFlow_of_keys hkeys])]
  refine ⟨entries, hclose.trans hentries, ?_⟩
  rw [hclose, kinds_pushEnds]
  rfl

def pastStream (r : Reader) : Reader :=
  { r.closeAll.push .streamEnd r.mark r.mark with keyAllowed := false }

def pastDocument (r : Reader) : Reader :=
  { r.closeAll.pushHere .documentEnd 3 with keyAllowed := false }

theorem Stands.fetchHere_end (h : r.Stands ks indents [] 0) :
    r.fetchHere = .ok r.pastStream ∧
      r.pastStream.kinds = ks ++ List.replicate indents.length .blockEnd ++ [.streamEnd] := by
  obtain ⟨entries, hclose, hkinds⟩ := closeAll_eq (r := r) (by rw [h.keys_eq]; rfl)
  rw [h.kinds_eq, h.indents_eq] at hkinds
  refine ⟨?_, kinds_push.trans (by rw [hkinds])⟩
  unfold fetchHere
  rw [h.rest_eq]
  dsimp only
  unfold fetchStreamEnd
  dsimp only
  rw [if_pos (by rw [h.column_eq]; rfl)]
  change (dropKey (closeAll r) >>= _) = _
  rw [dropKey_none (by rw [hclose]; exact h.keys_eq)]
  rfl

theorem Stands.fetchHere_marker (h : r.Stands ks indents "...\n".toList 0) :
    r.fetchHere = .ok r.pastDocument ∧
      r.pastDocument.kinds = ks ++ List.replicate indents.length .blockEnd ++ [.documentEnd] ∧
      r.pastDocument.indents = [] ∧ r.pastDocument.keys = [none] ∧
      r.pastDocument.cursor.rest = ['\n'] := by
  obtain ⟨entries, hclose, hkinds⟩ := closeAll_eq (r := r) (by rw [h.keys_eq]; rfl)
  rw [h.kinds_eq, h.indents_eq] at hkinds
  have hkeys : r.closeAll.keys = [none] := by rw [hclose]; exact h.keys_eq
  have hcursor : r.closeAll.cursor = r.cursor := by rw [hclose]
  have hmarker : r.cursor.atDocumentMarker = true := by
    unfold Cursor.atDocumentMarker
    rw [h.rest_eq, show r.cursor.column = 0 from h.column_eq]
    rfl
  refine ⟨?_, kinds_push.trans (by rw [hkinds]), ?_, hkeys, ?_⟩
  · have hfetch : r.fetchHere = r.fetchDocumentMarker .documentEnd := by
      unfold fetchHere
      rw [h.rest_eq, show "...\n".toList = ['.', '.', '.', '\n'] from rfl]
      simp [hmarker]
    rw [hfetch]
    change (dropKey (closeAll r) >>= _) = _
    rw [dropKey_none hkeys]
    rfl
  · change r.closeAll.indents = []
    rw [hclose]
  · change (Cursor.skipMany 3 r.closeAll.cursor).rest = _
    rw [Cursor.skipMany_eq, hcursor, h.rest_eq]
    rfl

variable (hopen : closedAt 0 indents = (indents, 0))
include hopen

/-- At the end of the text all blocks are over. -/
theorem Before.fetch_end (h : r.Before ks indents [] 0) :
    ∃ r', r.fetch = .ok r' ∧ r'.ended = true ∧
      r'.kinds = ks ++ List.replicate indents.length .blockEnd ++ [.streamEnd] := by
  obtain ⟨-, r₁, hprepare, hstands⟩ := h
  rw [hopen, List.replicate_zero, List.append_nil] at hstands
  obtain ⟨hfetch, hkinds⟩ := hstands.fetchHere_end
  refine ⟨r₁.pastStream, ?_, ended_of_entries (t := ⟨.streamEnd, r₁.mark, r₁.mark⟩) rfl, hkinds⟩
  rw [fetch_eq, hprepare]
  exact hfetch

/-- A document marker ends all blocks and the document. -/
theorem Before.documentEnd (h : r.Before ks indents "...\n".toList 0) :
    ∃ r', r.Advances r' ∧
      r'.Before (ks ++ List.replicate indents.length .blockEnd ++ [.documentEnd]) [] [] 0 := by
  obtain ⟨hlength, r₁, hprepare, hstands⟩ := h
  rw [hopen, List.replicate_zero, List.append_nil] at hstands
  obtain ⟨hfetch, hkinds, hindents, hkeys, hrest⟩ := hstands.fetchHere_marker
  refine ⟨r₁.pastDocument, ⟨?_, ended_of_entries (t := ⟨.documentEnd, _, _⟩) rfl, ?_⟩,
    before_of_line (n := 0) hkinds hindents hkeys hrest rfl⟩
  · rw [fetch_eq, hprepare]
    exact hfetch
  · rw [hrest]
    exact Nat.lt_of_lt_of_le (by decide) hlength

end Reader

/-! ## The document of a record -/

/-- What stands behind the fields of a document. -/
def documentTail (fields : List (String × Output)) : List Char :=
  if endsOpen (.map fields) then "...\n".toList else []

def endTokens (fields : List (String × Output)) : List Token.Kind :=
  if endsOpen (.map fields) then [.documentEnd, .streamEnd] else [.streamEnd]

theorem write_eq (hne : fields ≠ []) (hfields : AreFields fields) :
    (Output.map fields).write.toList = front 0 0 (documentTail fields) fields := by
  obtain ⟨⟨name, value⟩, rest, rfl⟩ := List.exists_cons_of_ne_nil hne
  obtain ⟨hname, -, hrest⟩ := hfields
  have hkey : (textPiece true 2 name).chars = name.toList := by rw [textPiece, hname.plain]
  have hfront := writeFields_append 0 0 (documentTail ((name, value) :: rest)) hrest
  rw [Output.write, String.toList_ofList, writeValue, if_neg Bool.false_ne_true, front, fieldText,
    ← hfront, writeFields, if_pos hname.simple, hkey]
  simp [writeValue.gap, documentTail, blanks]

theorem startsToken_documentTail : startsToken (documentTail fields) = true := by
  unfold documentTail
  split <;> rfl

theorem legible_write (hne : fields ≠ []) (hfields : AreFields fields) :
    Legible (Output.map fields).write.toList := by
  obtain ⟨field, rest, rfl⟩ := List.exists_cons_of_ne_nil hne
  rw [Output.write, String.toList_ofList, writeValue, if_neg Bool.false_ne_true]
  refine .append (legible_writeFields _ hfields) ?_
  split
  · exact List.all_eq_true.1 (by decide)
  · exact .nil

theorem Reader.Before.readAll_end {fuel : Nat} (h : r.Before ks [0] (documentTail fields) 0)
    (hfuel : r.cursor.rest.length < fuel) :
    ∃ tokens, r.readAll none fuel = ⟨tokens, none⟩ ∧
      tokens.map Token.kind = ks ++ .blockEnd :: endTokens fields := by
  unfold documentTail at h
  unfold endTokens
  split at h
  · next hopen =>
    obtain ⟨r₁, hadvances, hbefore⟩ := h.documentEnd rfl
    obtain ⟨left, hleft, hread⟩ := readAll_of_fetches (.single hadvances) hfuel
    obtain ⟨r₂, hfetch, hended, hkinds⟩ := hbefore.fetch_end rfl
    refine ⟨_, hread.trans (readAll_of_end hfetch hended hleft), hkinds.trans ?_⟩
    rw [if_pos hopen]
    simp
  · next hclosed =>
    obtain ⟨r₂, hfetch, hended, hkinds⟩ := h.fetch_end rfl
    refine ⟨_, readAll_of_end hfetch hended hfuel, hkinds.trans ?_⟩
    rw [if_neg hclosed]
    simp

theorem tokensOf_write (hne : fields ≠ []) (hfields : AreFields fields) :
    ∃ tokens, tokensOf (.ofText (Output.map fields).write) = ⟨tokens, none⟩ ∧
      tokens.map Token.kind = recordTokens (.map fields) ++ endTokens fields := by
  have hstart : Reader.Before { cursor := { rest := (Output.map fields).write.toList } } [] []
      (front 0 0 (documentTail fields) fields) 0 := by
    rw [write_eq hne hfields]
    exact Reader.before_of_blanks (n := 0) rfl rfl rfl rfl rfl
      (startsToken_front hfields startsToken_documentTail)
  obtain ⟨r', hread, hbefore⟩ := hstart.mapping fields hne hfields (fun j hj => by cases hj)
    (Nat.le_refl 0) startsToken_documentTail
  obtain ⟨left, hleft, hall⟩ := Reader.readAll_of_fetches hread (Nat.lt_succ_self _)
  obtain ⟨tokens, htokens, hkinds⟩ := hbefore.readAll_end hleft
  refine ⟨tokens, ?_, ?_⟩
  · rw [tokensOf, readable_ofText (legible_write hne hfields)]
    exact hall.trans htokens
  · rw [hkinds, recordTokens]
    simp

end Rollout.Yaml
