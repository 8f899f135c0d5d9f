import Rollout.Proofs.Yaml.Tokens
import Rollout.Yaml.Node.Reading

/-!
# The tree of a written record

The tokens of a record make up the tree of the record: every mapping has its names and values in
order, every list its items, and every other value is its text. So the document of a record is read as that
record.
-/

namespace Rollout.Yaml

mutual

/-- The node that says what a record says, wherever it stands and in whatever style. Without quotes only a text
that reads as nothing else says itself. -/
inductive Denotes : Node → Output → Prop
  | text {m style s} (h : style = .plain → isAmbiguous s = false) :
    Denotes (.scalar m none style s) (.text s)
  | bool {m s b} (h : Plain.bool? s = some b) : Denotes (.scalar m none .plain s) (.bool b)
  | list {m nodes items} (h : DenotesItems nodes items) : Denotes (.sequence m none nodes) (.list items)
  | map {m pairs fields} (h : DenotesAll pairs fields) :
    Denotes (.mapping m none pairs) (.map fields)

inductive DenotesItems : List Node → List Output → Prop
  | nil : DenotesItems [] []
  | cons {node item nodes items} (hitem : Denotes node item) (hrest : DenotesItems nodes items) :
    DenotesItems (node :: nodes) (item :: items)

inductive DenotesAll : List (Node × Node) → List (String × Output) → Prop
  | nil : DenotesAll [] []
  | cons {m style name node value pairs fields} (hvalue : Denotes node value)
      (hrest : DenotesAll pairs fields) :
      DenotesAll ((.scalar m none style name, node) :: pairs) ((name, value) :: fields)

end

theorem isAmbiguous_of_bool? {s : String} {b : Bool} (h : Plain.bool? s = some b) : isAmbiguous s = true := by
  unfold isAmbiguous plainOf
  rw [h]
  by_cases hnull : (s.isEmpty || Plain.isNull s) = true
  · rw [if_pos hnull]
  · rw [if_neg hnull]

theorem bool?_flagText (b : Bool) : Plain.bool? (flagText b) = some b := by cases b <;> rfl

theorem styleOf_eq_plain {s : String} (h : styleOf s = .plain) : isAmbiguous s = false := by
  have hform : formOf false s = .plain := by
    unfold styleOf at h
    split at h
    · assumption
    all_goals cases h
  unfold formOf at hform
  dsimp only at hform
  split at hform
  · split at hform <;> cases hform
  split at hform
  · next hallowed =>
    rw [Bool.and_eq_true, Bool.not_eq_true'] at hallowed
    exact hallowed.1
  · split at hform <;> cases hform

mutual

theorem Denotes.unique {node : Node} {a b : Output} (ha : Denotes node a) (hb : Denotes node b) :
    a = b := by
  cases ha with
  | text ha =>
    cases hb with
    | text => rfl
    | bool hb =>
      rw [isAmbiguous_of_bool? hb] at ha
      cases ha rfl
  | bool ha =>
    cases hb with
    | text hb =>
      rw [isAmbiguous_of_bool? ha] at hb
      cases hb rfl
    | bool hb =>
      rw [ha] at hb
      rw [Option.some.inj hb]
  | list ha =>
    cases hb with
    | list hb => rw [ha.unique hb]
  | map ha =>
    cases hb with
    | map hb => rw [ha.unique hb]

theorem DenotesItems.unique {nodes : List Node} {as bs : List Output} (ha : DenotesItems nodes as)
    (hb : DenotesItems nodes bs) : as = bs := by
  cases ha with
  | nil => cases hb; rfl
  | cons hitem hrest =>
    cases hb with
    | cons hitem' hrest' => rw [hitem.unique hitem', hrest.unique hrest']

theorem DenotesAll.unique {pairs : List (Node × Node)} {fs gs : List (String × Output)}
    (hf : DenotesAll pairs fs) (hg : DenotesAll pairs gs) : fs = gs := by
  cases hf with
  | nil => cases hg; rfl
  | cons hvalue hrest =>
    cases hg with
    | cons hvalue' hrest' => rw [hvalue.unique hvalue', hrest.unique hrest']

end

namespace Composing

variable {s : Composing} {t : Token} {ts : List Token} {fuel : Nat}

/-- Composing stands in front of these tokens, and nothing was wrong so far. -/
structure Stands (s : Composing) (ts : List Token) : Prop where
  problem_eq : s.problem = none
  tokens_eq : s.tokens = ts

theorem Stands.peek (h : s.Stands (t :: ts)) : s.peek = (some t, s) := by
  unfold Composing.peek
  rw [h.problem_eq, h.tokens_eq]
  rfl

theorem Stands.skip (h : s.Stands (t :: ts)) : s.skip.Stands ts := by
  refine ⟨h.problem_eq, ?_⟩
  rw [Composing.skip, h.tokens_eq]
  rfl

theorem Stands.count (h : s.Stands ts) : s.count.Stands ts := ⟨h.problem_eq, h.tokens_eq⟩

theorem composeNode_scalar (block indentless : Bool) (fuel : Nat) {text : String} {style : Style}
    (h : s.Stands (t :: ts)) (ht : t.kind = .scalar text style) :
    ∃ s', composeNode block indentless s (fuel + 1) = (.scalar t.start none style text, s') ∧
      s'.Stands ts := by
  obtain ⟨kind, start, stop⟩ := t
  obtain rfl : kind = .scalar text style := ht
  refine ⟨s.count.skip, ?_, h.count.skip⟩
  rw [composeNode, h.peek]
  simp only [properties, fullTag, h.peek]
  rfl

theorem composeNode_mapping (indentless : Bool) (fuel : Nat) (h : s.Stands (t :: ts))
    (ht : t.kind = .blockMappingStart) :
    ∃ s₁, s₁.Stands ts ∧ composeNode true indentless s (fuel + 1) =
      (.mapping t.start none (composeBlockPairs t.start s₁ fuel).1,
        (composeBlockPairs t.start s₁ fuel).2) := by
  obtain ⟨kind, start, stop⟩ := t
  obtain rfl : kind = .blockMappingStart := ht
  refine ⟨s.count.skip, h.count.skip, ?_⟩
  rw [composeNode, h.peek]
  simp only [properties, fullTag, h.peek]
  rfl

theorem composeNode_indentless (fuel : Nat) (h : s.Stands (t :: ts)) (ht : t.kind = .blockEntry) :
    ∃ s₁, s₁.Stands (t :: ts) ∧ composeNode true true s (fuel + 1) =
      (.sequence t.start none (composeIndentless s₁ fuel).1, (composeIndentless s₁ fuel).2) := by
  obtain ⟨kind, start, stop⟩ := t
  obtain rfl : kind = .blockEntry := ht
  refine ⟨s.count, h.count, ?_⟩
  rw [composeNode, h.peek]
  simp only [properties, fullTag, h.peek]
  rfl

theorem composeItem_node (ends : List Token.Kind) (indentless : Bool) (m : Mark) (fuel : Nat)
    (h : s.Stands (t :: ts)) (ht : ends.contains t.kind = false) :
    composeItem ends indentless m s (fuel + 1) = composeNode true indentless s fuel := by
  rw [composeItem, h.peek]
  simp only [ht, Bool.false_eq_true, if_false]

theorem composeBlockPairs_end (opened : Mark) (fuel : Nat) (h : s.Stands (t :: ts))
    (ht : t.kind = .blockEnd) :
    ∃ s', composeBlockPairs opened s (fuel + 1) = ([], s') ∧ s'.Stands ts := by
  refine ⟨s.skip.count, ?_, h.skip.count⟩
  rw [composeBlockPairs, h.peek]
  simp only [ht]

theorem composeBlockPairs_key {opened : Mark} {s₁ s₂ s₃ : Composing} {key value : Node}
    {pairs : List (Node × Node)} (h : s.Stands (t :: ts)) (ht : t.kind = .key)
    (hkey : composeItem [.key, .value, .blockEnd] true t.stop s.skip fuel = (key, s₁))
    (hvalue : composeBlockValue s₁ fuel = (value, s₂))
    (hpairs : composeBlockPairs opened s₂ fuel = (pairs, s₃)) :
    composeBlockPairs opened s (fuel + 1) = ((key, value) :: pairs, s₃) := by
  rw [composeBlockPairs, h.peek]
  simp only [ht, hkey, hvalue, hpairs]

theorem composeBlockValue_value (fuel : Nat) (h : s.Stands (t :: ts)) (ht : t.kind = .value) :
    composeBlockValue s (fuel + 1) =
      composeItem [.key, .value, .blockEnd] true t.stop s.skip fuel := by
  rw [composeBlockValue, h.peek]
  simp only [ht]

theorem composeIndentless_end (fuel : Nat) (h : s.Stands (t :: ts)) (ht : t.kind ≠ .blockEntry) :
    ∃ s', composeIndentless s (fuel + 1) = ([], s') ∧ s'.Stands (t :: ts) := by
  refine ⟨s.count, ?_, h.count⟩
  rw [composeIndentless, h.peek]
  split
  · next heq => cases heq
  · next heq =>
    cases heq
    split
    · exact absurd ‹_› ht
    · rfl

theorem composeIndentless_entry {s₁ s₂ : Composing} {item : Node} {items : List Node}
    (h : s.Stands (t :: ts)) (ht : t.kind = .blockEntry)
    (hitem : composeItem [.blockEntry, .key, .value, .blockEnd] false t.stop s.skip fuel = (item, s₁))
    (hitems : composeIndentless s₁ fuel = (items, s₂)) :
    composeIndentless s (fuel + 1) = (item :: items, s₂) := by
  rw [composeIndentless, h.peek]
  simp only [ht, hitem, hitems]

theorem itemTokens_head {items : List Output} (hne : items ≠ []) :
    ∃ rest, itemTokens items = .blockEntry :: rest := by
  obtain ⟨item, others, rfl⟩ := List.exists_cons_of_ne_nil hne
  exact ⟨_, by rw [itemTokens]; rfl⟩

/-- The first token of a record does not end a field. -/
theorem recordTokens_head {value : Output} (hvalue : IsRecord value) :
    ∃ kind rest, recordTokens value = kind :: rest ∧
      [Token.Kind.key, .value, .blockEnd].contains kind = false := by
  cases value with
  | text text => exact ⟨_, _, by rw [recordTokens], rfl⟩
  | bool b => exact ⟨_, _, by rw [recordTokens], rfl⟩
  | list items =>
    obtain ⟨rest, hhead⟩ := itemTokens_head hvalue.1
    exact ⟨_, rest, by rw [recordTokens, hhead], rfl⟩
  | map fields => exact ⟨_, _, by rw [recordTokens]; rfl, rfl⟩
  | _ => cases hvalue

theorem fieldTokens_head {fields : List (String × Output)} {kind : Token.Kind} {rest : List Token.Kind}
    (h : fieldTokens fields = kind :: rest) : kind = .key := by
  cases fields with
  | nil =>
    rw [fieldTokens] at h
    cases h
  | cons field others =>
    obtain ⟨name, value⟩ := field
    rw [fieldTokens] at h
    cases h
    rfl

/-! ## Composing records

Every token takes at most three calls, so three times the number of tokens is fuel enough. -/

/-- The fields of a mapping are composed up to and with its end. -/
def ComposesFields (fields : List (String × Output)) : Prop :=
  ∀ (opened : Mark) (fuel : Nat) {s : Composing} {ts rest : List Token} {t : Token},
    s.Stands (ts ++ t :: rest) → ts.map Token.kind = fieldTokens fields → t.kind = .blockEnd →
    3 * ts.length < fuel →
    ∃ pairs s', composeBlockPairs opened s fuel = (pairs, s') ∧ DenotesAll pairs fields ∧
      s'.Stands rest

theorem ComposesFields.composeNode {fields : List (String × Output)} (hfields : ComposesFields fields)
    (indentless : Bool) (fuel : Nat) {rest : List Token} (h : s.Stands (ts ++ rest))
    (hts : ts.map Token.kind = recordTokens (.map fields)) (hfuel : 3 * ts.length ≤ fuel) :
    ∃ node s', composeNode true indentless s fuel = (node, s') ∧ Denotes node (.map fields) ∧
      s'.Stands rest := by
  rw [recordTokens, List.cons_append] at hts
  obtain ⟨first, ts, rfl, hfirst, hts⟩ := List.map_eq_cons_iff.1 hts
  obtain ⟨middle, last, rfl, hmiddle, hlast⟩ := List.map_eq_append_iff.1 hts
  obtain ⟨last, rfl, hend⟩ := List.map_eq_singleton_iff.1 hlast
  rw [List.cons_append, List.append_assoc, List.singleton_append] at h
  simp only [List.length_cons, List.length_append, List.length_nil] at hfuel
  obtain ⟨left, rfl⟩ : ∃ left, fuel = left + 1 := ⟨fuel - 1, by omega⟩
  obtain ⟨s₁, hs₁, hnode⟩ := composeNode_mapping indentless left h hfirst
  obtain ⟨pairs, s', hpairs, hdenotes, hs'⟩ := hfields first.start left hs₁ hmiddle hend (by omega)
  rw [hpairs] at hnode
  exact ⟨_, s', hnode, .map hdenotes, hs'⟩

mutual

/-- The tokens of a record behind its key are composed to its tree. What follows is no item, so a list at the
column of its key is over. -/
theorem composeNode_record (value : Output) (fuel : Nat) {s : Composing} {ts rest : List Token} {t : Token}
    (hvalue : IsRecord value) (h : s.Stands (ts ++ t :: rest))
    (hts : ts.map Token.kind = recordTokens value) (ht : t.kind ≠ .blockEntry)
    (hfuel : 3 * ts.length ≤ fuel) :
    ∃ node s', composeNode true true s fuel = (node, s') ∧ Denotes node value ∧
      s'.Stands (t :: rest) := by
  cases value with
  | text text =>
    rw [recordTokens] at hts
    obtain ⟨t, rfl, ht⟩ := List.map_eq_singleton_iff.1 hts
    obtain ⟨left, rfl⟩ := Nat.exists_eq_add_of_le' hfuel
    obtain ⟨s', hnode, hs'⟩ := composeNode_scalar true true (left + 2) h ht
    exact ⟨_, s', hnode, .text styleOf_eq_plain, hs'⟩
  | bool b =>
    rw [recordTokens] at hts
    obtain ⟨t, rfl, ht⟩ := List.map_eq_singleton_iff.1 hts
    obtain ⟨left, rfl⟩ := Nat.exists_eq_add_of_le' hfuel
    obtain ⟨s', hnode, hs'⟩ := composeNode_scalar true true (left + 2) h ht
    exact ⟨_, s', hnode, .bool (bool?_flagText b), hs'⟩
  | list items =>
    obtain ⟨hne, hitems⟩ := hvalue
    rw [recordTokens] at hts
    obtain ⟨more, hhead⟩ := itemTokens_head hne
    obtain ⟨first, ts, rfl, hentry, -⟩ := List.map_eq_cons_iff.1 (hts.trans hhead)
    rw [List.length_cons] at hfuel
    obtain ⟨left, rfl⟩ : ∃ left, fuel = left + 1 := ⟨fuel - 1, by omega⟩
    obtain ⟨s₁, hs₁, hnode⟩ := composeNode_indentless left h hentry
    obtain ⟨nodes, s', hnodes, hdenotes, hs'⟩ := composeIndentless_items items left hitems hs₁
      hts ht (by rw [List.length_cons]; omega) (by omega)
    rw [hnodes] at hnode
    exact ⟨_, s', hnode, .list hdenotes, hs'⟩
  | map fields => exact (composeBlockPairs_fields fields hvalue.2).composeNode true fuel h hts hfuel
  | _ => cases hvalue

theorem composeIndentless_items (items : List Output) (fuel : Nat) {s : Composing} {ts rest : List Token}
    {t : Token} (hitems : AreItems items) (h : s.Stands (ts ++ t :: rest))
    (hts : ts.map Token.kind = itemTokens items) (ht : t.kind ≠ .blockEntry)
    (hfuel : 3 * ts.length ≤ fuel + 1) (hpos : 0 < fuel) :
    ∃ nodes s', composeIndentless s fuel = (nodes, s') ∧ DenotesItems nodes items ∧
      s'.Stands (t :: rest) := by
  match items with
  | [] =>
    rw [itemTokens, List.map_eq_nil_iff] at hts
    subst hts
    obtain ⟨left, rfl⟩ : ∃ left, fuel = left + 1 := ⟨fuel - 1, by omega⟩
    obtain ⟨s', hnodes, hs'⟩ := composeIndentless_end left h ht
    exact ⟨[], s', hnodes, .nil, hs'⟩
  | .map fields :: others =>
    obtain ⟨⟨-, hfields⟩, hothers⟩ := hitems
    rw [itemTokens, List.cons_append] at hts
    obtain ⟨dash, ts, rfl, hdash, hts⟩ := List.map_eq_cons_iff.1 hts
    obtain ⟨vs, us, rfl, hvs, hus⟩ := List.map_eq_append_iff.1 hts
    simp only [List.length_cons, List.length_append] at hfuel
    -- An item has a token to start with, so there is fuel for the dash, the item and what follows it.
    obtain ⟨front, vs, rfl, hfront, -⟩ := List.map_eq_cons_iff.1 (hvs.trans (by rw [recordTokens]; rfl))
    obtain ⟨left, rfl⟩ : ∃ left, fuel = left + 2 := ⟨fuel - 2, by omega⟩
    simp only [List.cons_append, List.append_assoc] at h
    obtain ⟨node, s₁, hnode, hdenotes, hs₁⟩ := (composeBlockPairs_fields fields hfields).composeNode
      false left h.skip hvs (by simp only [List.length_cons] at hfuel ⊢; omega)
    have hitem := (composeItem_node [.blockEntry, .key, .value, .blockEnd] false dash.stop left h.skip
      (by rw [hfront]; rfl)).trans hnode
    obtain ⟨nodes, s', hnodes, hall, hs'⟩ := composeIndentless_items others (left + 1) hothers hs₁ hus ht
      (by omega) (Nat.succ_pos left)
    exact ⟨_, s', composeIndentless_entry h hdash hitem hnodes, .cons hdenotes hall, hs'⟩

theorem composeBlockPairs_fields (fields : List (String × Output)) (hfields : AreFields fields) :
    ComposesFields fields := by
  intro opened fuel s ts rest t h hts ht hfuel
  cases fields with
  | nil =>
    rw [fieldTokens, List.map_eq_nil_iff] at hts
    subst hts
    obtain ⟨left, rfl⟩ : ∃ left, fuel = left + 1 := ⟨fuel - 1, by omega⟩
    obtain ⟨s', hpairs, hs'⟩ := composeBlockPairs_end opened left h ht
    exact ⟨[], s', hpairs, .nil, hs'⟩
  | cons field others =>
    obtain ⟨name, value⟩ := field
    obtain ⟨hname, hvalue, hothers⟩ := hfields
    rw [fieldTokens, List.cons_append, List.cons_append, List.cons_append] at hts
    obtain ⟨key, ts, rfl, hkey, hts⟩ := List.map_eq_cons_iff.1 hts
    obtain ⟨text, ts, rfl, htext, hts⟩ := List.map_eq_cons_iff.1 hts
    obtain ⟨colon, ts, rfl, hcolon, hts⟩ := List.map_eq_cons_iff.1 hts
    obtain ⟨vs, us, rfl, hvs, hus⟩ := List.map_eq_append_iff.1 hts
    simp only [List.length_cons, List.length_append] at hfuel
    obtain ⟨left, rfl⟩ : ∃ left, fuel = left + 4 := ⟨fuel - 4, by omega⟩
    simp only [List.cons_append, List.append_assoc] at h
    -- The key is one scalar.
    obtain ⟨s₁, hscalar, hs₁⟩ := composeNode_scalar true true (left + 1) h.skip htext
    have hitem := composeItem_node [.key, .value, .blockEnd] true key.stop (left + 2) h.skip
      (by rw [htext]; rfl)
    -- The value starts with a token that does not end the field.
    obtain ⟨kind, more, hhead, hends⟩ := recordTokens_head hvalue
    obtain ⟨front, vs, rfl, hfront, -⟩ := List.map_eq_cons_iff.1 (hvs.trans hhead)
    -- Behind the value is the next key or the end of the mapping.
    obtain ⟨after, behind, hbehind, hafter⟩ : ∃ after behind, us ++ t :: rest = after :: behind ∧
        after.kind ≠ .blockEntry := by
      cases us with
      | nil => exact ⟨t, rest, rfl, by rw [ht]; nofun⟩
      | cons u us => exact ⟨u, us ++ t :: rest, rfl, by rw [fieldTokens_head hus.symm]; nofun⟩
    obtain ⟨node, s₂, hnode, hdenotes, hs₂⟩ := composeNode_record value (left + 1) hvalue
      (hbehind ▸ hs₁.skip) hvs hafter (by simp only [List.length_cons] at hfuel ⊢; omega)
    rw [← hbehind] at hs₂
    have hvalue' := (composeBlockValue_value (left + 2) hs₁ hcolon).trans
      ((composeItem_node _ true colon.stop (left + 1) hs₁.skip
        (by rw [hfront]; exact hends)).trans hnode)
    obtain ⟨pairs, s', hpairs, hall, hs'⟩ := composeBlockPairs_fields others hothers opened (left + 3)
      hs₂ hus ht (by omega)
    exact ⟨_, s', composeBlockPairs_key h hkey (hitem.trans hscalar) hvalue' hpairs,
      .cons hdenotes hall, hs'⟩

end

/-! ## The only document -/

theorem Stands.fresh (h : s.Stands ts) : s.fresh.Stands ts := ⟨h.problem_eq, h.tokens_eq⟩

theorem documents_end (h : s.Stands [t]) (ht : t.kind = .streamEnd) :
    s.documents false (fuel + 1) = [] := by
  have hends : s.skipDocumentEnds.Stands [t] := by
    refine ⟨h.problem_eq, ?_⟩
    rw [skipDocumentEnds, h.tokens_eq]
    simp [ht]
  rw [documents]
  simp only [Bool.false_eq_true, if_false, hends.fresh.peek, ht]

theorem documents_mapping {s₁ : Composing} {m : Mark} {pairs : List (Node × Node)} {last : Token}
    (h : s.Stands (t :: ts)) (ht : t.kind = .blockMappingStart)
    (hroot : composeNode true false s.fresh (fuel + 2) = (.mapping m none pairs, s₁))
    (hs₁ : s₁.documentEnd.Stands [last]) (hlast : last.kind = .streamEnd) :
    s.documents true (fuel + 2) = [document (.mapping m none pairs) s₁.documentEnd] := by
  rw [documents]
  simp only [if_true, h.fresh.peek, ht, hroot, hs₁.problem_eq, documents_end hs₁ hlast]
  rfl

/-- What follows the record is the end of the text, perhaps behind a marker. -/
theorem Stands.documentEnd {fields : List (String × Output)} (h : s.Stands ts)
    (hts : ts.map Token.kind = endTokens fields) :
    ∃ last, s.documentEnd.Stands [last] ∧ last.kind = .streamEnd := by
  unfold endTokens at hts
  split at hts
  · obtain ⟨⟨kind, start, stop⟩, ts, rfl, hkind, hmore⟩ := List.map_eq_cons_iff.1 hts
    obtain rfl : kind = .documentEnd := hkind
    obtain ⟨last, rfl, hlast⟩ := List.map_eq_singleton_iff.1 hmore
    refine ⟨last, ?_, hlast⟩
    unfold Composing.documentEnd
    rw [h.peek]
    exact h.skip
  · obtain ⟨⟨kind, start, stop⟩, rfl, hkind⟩ := List.map_eq_singleton_iff.1 hts
    obtain rfl : kind = .streamEnd := hkind
    refine ⟨⟨.streamEnd, start, stop⟩, ?_, rfl⟩
    unfold Composing.documentEnd
    rw [h.peek]
    exact h

end Composing

/-- A written record is one document, and that document says what the record says. -/
theorem documentsOf_write {fields : List (String × Output)} (hne : fields ≠ [])
    (hfields : AreFields fields) :
    ∃ d, documentsOf (.ofText (Output.map fields).write) = [d] ∧ d.problem = none ∧
      Denotes d.root (.map fields) := by
  obtain ⟨tokens, htokens, hkinds⟩ := tokensOf_write hne hfields
  obtain ⟨ts, rest, rfl, hts, hrest⟩ := List.map_eq_append_iff.1 hkinds
  obtain ⟨first, more, rfl, hfirst, -⟩ :=
    List.map_eq_cons_iff.1 (hts.trans (by rw [recordTokens]; rfl))
  have hstands : Composing.Stands ⟨first :: more ++ rest, none, none, [], [], [], 0⟩
    (first :: more ++ rest) := ⟨rfl, rfl⟩
  obtain ⟨root, s₁, hroot, hdenotes, hs₁⟩ :=
    (Composing.composeBlockPairs_fields fields hfields).composeNode false
      (4 * (first :: more ++ rest).length + 8) hstands.fresh hts (by rw [List.length_append]; omega)
  obtain ⟨last, hlast, hend⟩ := hs₁.documentEnd hrest
  cases hdenotes with
  | @map m pairs _ hall =>
    refine ⟨Composing.document (.mapping m none pairs) s₁.documentEnd, ?_, hlast.problem_eq,
      .map hall⟩
    rw [documentsOf, htokens]
    exact Composing.documents_mapping hstands hfirst hroot hlast hend

theorem write_injective {fs gs : List (String × Output)} (hf : fs ≠ []) (hg : gs ≠ [])
    (hfs : AreFields fs) (hgs : AreFields gs)
    (h : (Output.map fs).write = (Output.map gs).write) : fs = gs := by
  obtain ⟨d, hd, -, hdenotes⟩ := documentsOf_write hf hfs
  obtain ⟨e, he, -, hdenotes'⟩ := documentsOf_write hg hgs
  rw [h, he] at hd
  obtain rfl : e = d := List.singleton_inj.1 hd
  exact Output.map.inj (hdenotes.unique hdenotes')

end Rollout.Yaml
