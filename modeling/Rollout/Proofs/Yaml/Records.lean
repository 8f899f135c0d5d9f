import Rollout.Proofs.Yaml.Characters
import Rollout.Proofs.Yaml.Keys

/-!
# Written records

A record is a text, a flag, a mapping of names to records, or a list of such mappings. The document of a
record is read as the tokens of the record: every text and flag as one scalar, every mapping with its start
and end, and every item of a list behind its dash. A list stands at the column of its key, so it has no start
and no end of its own.
-/

namespace Rollout.Yaml

mutual

/-- Texts and flags, mappings that have fields, all with plain names, and lists that have items. -/
def IsRecord : Output → Prop
  | .text _ => True
  | .bool _ => True
  | .list items => items ≠ [] ∧ AreItems items
  | .map fields => fields ≠ [] ∧ AreFields fields
  | _ => False

def AreItems : List Output → Prop
  | [] => True
  | .map fields :: rest => (fields ≠ [] ∧ AreFields fields) ∧ AreItems rest
  | _ => False

def AreFields : List (String × Output) → Prop
  | [] => True
  | (name, value) :: rest => IsName name ∧ IsRecord value ∧ AreFields rest

end

theorem AreFields.append {fs gs : List (String × Output)} (hfs : AreFields fs)
    (hgs : AreFields gs) : AreFields (fs ++ gs) := by
  induction fs with
  | nil => exact hgs
  | cons field rest ih => exact ⟨hfs.1, hfs.2.1, ih hfs.2.2⟩

def flagText (b : Bool) : String := if b then "true" else "false"

mutual

def recordTokens : Output → List Token.Kind
  | .text s => [.scalar s (styleOf s)]
  | .bool b => [.scalar (flagText b) .plain]
  | .list items => itemTokens items
  | .map fields => .blockMappingStart :: fieldTokens fields ++ [.blockEnd]
  | _ => []

def itemTokens : List Output → List Token.Kind
  | [] => []
  | item :: rest => .blockEntry :: recordTokens item ++ itemTokens rest

def fieldTokens : List (String × Output) → List Token.Kind
  | [] => []
  | (name, value) :: rest =>
    .key :: .scalar name .plain :: .value :: recordTokens value ++ fieldTokens rest

end

variable {i n : Nat} {tail : List Char} {r : Reader} {ks : List Token.Kind} {indents : List Nat}
  {name : String} {value : Output} {fields : List (String × Output)} {items : List Output}

/-! ## Fields and what follows them -/

/-- A field behind the blanks of its line, and what follows it. -/
def fieldText (i : Nat) (name : String) (value : Output) (tail : List Char) : List Char :=
  name.toList ++ ':' :: (writeValue true i (i + 2) (i + 2) value ++ tail)

/-- The column of what comes first, the fields at column `i` or what follows them at column `n`. -/
def frontColumn (i n : Nat) : List (String × Output) → Nat
  | [] => n
  | _ :: _ => i

/-- What comes first: the fields at column `i`, or what follows them at column `n`. -/
def front (i n : Nat) (tail : List Char) : List (String × Output) → List Char
  | [] => tail
  | (name, value) :: rest =>
    fieldText i name value (blanks (frontColumn i n rest) ++ front i n tail rest)

theorem writeFields_append (i n : Nat) (tail : List Char) (h : AreFields fields) :
    writeFields true i fields ++ (blanks n ++ tail) =
      blanks (frontColumn i n fields) ++ front i n tail fields := by
  induction fields with
  | nil => rfl
  | cons field rest ih =>
    obtain ⟨name, value⟩ := field
    obtain ⟨hname, -, hrest⟩ := h
    have hkey : (textPiece true (i + 2) name).chars = name.toList := by
      rw [textPiece, hname.plain]
    rw [writeFields, front, frontColumn, fieldText, ← ih hrest]
    simp [hname.simple, hkey]

theorem startsToken_front (h : AreFields fields) (htail : startsToken tail = true) :
    startsToken (front i n tail fields) = true := by
  cases fields with
  | nil => exact htail
  | cons field rest =>
    obtain ⟨name, value⟩ := field
    obtain ⟨hplain, hne⟩ := formOf_eq_plain h.1.plain
    exact Reader.startsToken_of_plainText hplain hne

theorem frontColumn_le (hn : n ≤ i) : frontColumn i n fields ≤ i := by
  cases fields with
  | nil => exact hn
  | cons field rest => exact Nat.le_refl i

/-- The fields of a mapping that starts behind something on its line. -/
theorem writeFields_first (i n : Nat) (tail : List Char) (hne : fields ≠ []) (h : AreFields fields) :
    writeFields false i fields ++ (blanks n ++ tail) = front i n tail fields := by
  obtain ⟨⟨name, value⟩, rest, rfl⟩ := List.exists_cons_of_ne_nil hne
  have hfront := writeFields_append i n tail h
  rw [writeFields, if_pos rfl] at hfront
  rw [writeFields, if_neg Bool.false_ne_true]
  simpa [frontColumn] using hfront

/-! ## Items and what follows them -/

/-- The column of what comes first, the items at column `i` or what follows them at column `n`. -/
def itemColumn (i n : Nat) : List Output → Nat
  | [] => n
  | _ :: _ => i

/-- What comes first: the items at column `i`, or what follows them at column `n`. -/
def itemFront (i n : Nat) (tail : List Char) : List Output → List Char
  | [] => tail
  | item :: rest =>
    '-' :: (writeValue false (i + 2) (i + 2) (i + 2) item ++
      (blanks (itemColumn i n rest) ++ itemFront i n tail rest))

theorem writeItems_append (i n : Nat) (tail : List Char) :
    writeItems true i items ++ (blanks n ++ tail) =
      blanks (itemColumn i n items) ++ itemFront i n tail items := by
  induction items with
  | nil => rfl
  | cons item rest ih =>
    rw [writeItems, itemFront, itemColumn, ← ih]
    simp

theorem startsToken_itemFront (htail : startsToken tail = true) :
    startsToken (itemFront i n tail items) = true := by
  cases items with
  | nil => exact htail
  | cons item rest => rfl

theorem itemColumn_le (hn : n ≤ i) : itemColumn i n items ≤ i := by
  cases items with
  | nil => exact hn
  | cons item rest => exact Nat.le_refl i

theorem endsWord_writeValue (h : IsRecord value) :
    endsWord (writeValue true i (i + 2) (i + 2) value ++ tail) = true := by
  cases value with
  | text s =>
    rw [writeValue]
    rfl
  | bool b =>
    rw [writeValue]
    rfl
  | list items =>
    obtain ⟨item, rest, rfl⟩ := List.exists_cons_of_ne_nil h.1
    rw [writeValue]
    rfl
  | map fields =>
    obtain ⟨field, rest, rfl⟩ := List.exists_cons_of_ne_nil h.1
    rw [writeValue]
    rfl
  | _ => cases h

theorem plainText_flagText (b : Bool) : PlainText (flagText b).toList :=
  .of_plainAllowed (by cases b <;> decide)

namespace Reader

/-- The dash of an item at the column of the block it is in. What follows it may start with a key. -/
theorem Before.entry (h : r.Before ks (i :: indents) ('-' :: ' ' :: tail) i)
    (htail : startsToken tail = true) :
    ∃ r', r.Fetches r' ∧ r'.Before (ks ++ [.blockEntry]) (i :: indents) tail (i + 2) := by
  obtain ⟨hlength, r₁, hprepare, hstands⟩ := h
  have hopen : closedAt i (i :: indents) = (i :: indents, 0) := if_neg (Nat.lt_irrefl i)
  rw [hopen, List.replicate_zero, List.append_nil] at hstands
  have hflow : r₁.inFlow = false := inFlow_of_keys (by rw [hstands.keys_eq]; rfl)
  have hopened : r₁.openBlock .blockSequenceStart = r₁ := by
    unfold openBlock deeper
    rw [hflow, hstands.indents_eq, show r₁.mark.column = i from hstands.column_eq]
    simp
  have hentered : r₁.enterBlock .blockSequenceStart
      "block sequence entries are not allowed in this context" = .ok r₁ := by
    unfold enterBlock
    rw [hflow, hstands.keyAllowed, hopened]
    rfl
  have hentry : r₁.fetchBlockEntry = .ok { r₁.pushHere .blockEntry 1 with keyAllowed := true } := by
    unfold fetchBlockEntry
    rw [hentered]
    change (r₁.dropKey >>= _) = _
    rw [dropKey_none hstands.keys_eq]
    rfl
  have hcursor : (r₁.cursor.skipMany 1).rest = ' ' :: tail := by
    rw [Cursor.skipMany_eq, hstands.rest_eq]
    rfl
  have hbefore : Reader.Before { r₁.pushHere .blockEntry 1 with keyAllowed := true }
      (ks ++ [.blockEntry]) (i :: indents) tail (r₁.mark.column + 1 + 1) :=
    before_of_blanks (n := 1) (kinds_push.trans (by rw [hstands.kinds_eq])) hstands.indents_eq
      hstands.keys_eq rfl hcursor htail
  rw [show r₁.mark.column = i from hstands.column_eq] at hbefore
  refine ⟨_, .single ⟨?_, ended_of_entries (t := ⟨.blockEntry, _, _⟩) rfl, ?_⟩, hbefore⟩
  · rw [fetch_eq, hprepare]
    exact (fetchHere_entry hstands.rest_eq).trans hentry
  · change (r₁.cursor.skipMany 1).rest.length < _
    rw [hcursor]
    exact Nat.lt_of_lt_of_le (Nat.lt_succ_self _) hlength

mutual

theorem Behind.record (value : Output) {r : Reader} {ks : List Token.Kind} {indents : List Nat}
    {i n : Nat} {tail : List Char} (hvalue : IsRecord value) (hn : n ≤ i)
    (htail : startsToken tail = true)
    (h : r.Behind ks i indents (writeValue true i (i + 2) (i + 2) value ++ (blanks n ++ tail))) :
    ∃ r', r.Fetches r' ∧ r'.Before (ks ++ recordTokens value) (i :: indents) tail n := by
  cases value with
  | text s =>
    rw [writeValue] at h
    obtain ⟨r', hadvances, hbefore⟩ := h.written hn htail
    rw [recordTokens]
    exact ⟨r', .single hadvances, hbefore⟩
  | bool b =>
    have hwritten : writeValue true i (i + 2) (i + 2) (.bool b) ++ (blanks n ++ tail) =
        ' ' :: ((flagText b).toList ++ '\n' :: (blanks n ++ tail)) := by
      rw [writeValue, flagText]
      cases b <;> rfl
    rw [hwritten] at h
    obtain ⟨r', hadvances, hbefore⟩ := h.plain (plainText_flagText b) (by cases b <;> decide) hn htail
    rw [String.ofList_toList] at hbefore
    rw [recordTokens]
    exact ⟨r', .single hadvances, hbefore⟩
  | list items =>
    obtain ⟨hne, hitems⟩ := hvalue
    -- The items stand at the column of the key, so no block begins with them and none ends.
    have hline : r.Before ks (i :: indents) (itemFront i n tail items) (itemColumn i n items) := by
      refine before_of_line h.kinds_eq h.indents_eq h.keys_eq ?_ (startsToken_itemFront htail)
      rw [h.rest_eq, ← writeItems_append]
      obtain ⟨item, rest, rfl⟩ := List.exists_cons_of_ne_nil hne
      rw [writeValue, if_pos rfl]
      rfl
    rw [recordTokens]
    exact Before.items items hitems hn htail hline
  | map fields =>
    obtain ⟨hne, hfields⟩ := hvalue
    -- The line of the key is over, and the mapping starts on the next one.
    have hline : r.Before ks (i :: indents) (front (i + 2) n tail fields) (i + 2) := by
      refine before_of_line h.kinds_eq h.indents_eq h.keys_eq ?_ (startsToken_front hfields htail)
      have hfront := writeFields_append (i + 2) n tail hfields
      cases fields with
      | nil => exact absurd rfl hne
      | cons field rest =>
        rw [h.rest_eq, writeValue, if_pos rfl, List.cons_append, hfront]
        rfl
    obtain ⟨r', hread, hafter⟩ := Before.mapping fields hne hfields
      (fun j hj => by cases hj; omega) (Nat.le_add_right_of_le hn) htail hline
    refine ⟨r', hread, ?_⟩
    rw [recordTokens]
    simpa using hafter.ended (by omega)
  | _ => cases hvalue

/-- A mapping that is deeper than the block it is in is read to the end of its fields. -/
theorem Before.mapping (fields : List (String × Output)) {r : Reader} {ks : List Token.Kind}
    {indents : List Nat} {i n : Nat} {tail : List Char} (hne : fields ≠ [])
    (hfields : AreFields fields) (hdeeper : ∀ j ∈ indents.head?, j < i) (hn : n ≤ i)
    (htail : startsToken tail = true) (h : r.Before ks indents (front i n tail fields) i) :
    ∃ r', r.Fetches r' ∧
      r'.Before (ks ++ .blockMappingStart :: fieldTokens fields) (i :: indents) tail n := by
  cases fields with
  | nil => exact absurd rfl hne
  | cons field rest =>
    obtain ⟨name, value⟩ := field
    obtain ⟨hname, hvalue, hrest⟩ := hfields
    obtain ⟨r₁, hkey, hbehind⟩ := h.firstKey hname (endsWord_writeValue hvalue) hdeeper
    obtain ⟨r₂, hread, hbefore⟩ := Behind.record value hvalue (frontColumn_le hn)
      (startsToken_front hrest htail) hbehind
    obtain ⟨r', hfields, hafter⟩ := Before.fields rest hrest hn htail hbefore
    refine ⟨r', (hkey.trans hread).trans hfields, ?_⟩
    rw [fieldTokens]
    simpa using hafter

theorem Before.fields (fields : List (String × Output)) {r : Reader} {ks : List Token.Kind}
    {indents : List Nat} {i n : Nat} {tail : List Char} (hfields : AreFields fields) (hn : n ≤ i)
    (htail : startsToken tail = true)
    (h : r.Before ks (i :: indents) (front i n tail fields) (frontColumn i n fields)) :
    ∃ r', r.Fetches r' ∧ r'.Before (ks ++ fieldTokens fields) (i :: indents) tail n := by
  cases fields with
  | nil =>
    rw [fieldTokens, List.append_nil]
    exact ⟨r, .refl, h⟩
  | cons field rest =>
    obtain ⟨name, value⟩ := field
    obtain ⟨hname, hvalue, hrest⟩ := hfields
    obtain ⟨r₁, hkey, hbehind⟩ := h.nextKey hname (endsWord_writeValue hvalue)
    obtain ⟨r₂, hread, hbefore⟩ := Behind.record value hvalue (frontColumn_le hn)
      (startsToken_front hrest htail) hbehind
    obtain ⟨r', hfields, hafter⟩ := Before.fields rest hrest hn htail hbefore
    refine ⟨r', (hkey.trans hread).trans hfields, ?_⟩
    rw [fieldTokens]
    simpa using hafter

theorem Before.items (items : List Output) {r : Reader} {ks : List Token.Kind} {indents : List Nat}
    {i n : Nat} {tail : List Char} (hitems : AreItems items) (hn : n ≤ i)
    (htail : startsToken tail = true)
    (h : r.Before ks (i :: indents) (itemFront i n tail items) (itemColumn i n items)) :
    ∃ r', r.Fetches r' ∧ r'.Before (ks ++ itemTokens items) (i :: indents) tail n := by
  match items with
  | [] =>
    rw [itemTokens, List.append_nil]
    exact ⟨r, .refl, h⟩
  | .map fields :: rest =>
    obtain ⟨⟨hne, hfields⟩, hrest⟩ := hitems
    have hnext : itemColumn i n rest ≤ i := itemColumn_le hn
    have hfront : startsToken (itemFront i n tail rest) = true := startsToken_itemFront htail
    have hitem : itemFront i n tail (.map fields :: rest) = '-' :: ' ' ::
        front (i + 2) (itemColumn i n rest) (itemFront i n tail rest) fields := by
      rw [itemFront, ← writeFields_first _ _ _ hne hfields]
      obtain ⟨field, others, rfl⟩ := List.exists_cons_of_ne_nil hne
      rw [writeValue, if_neg Bool.false_ne_true]
      rfl
    rw [hitem] at h
    obtain ⟨r₁, hdash, hbehind⟩ := h.entry (startsToken_front hfields hfront)
    obtain ⟨r₂, hread, hbefore⟩ := Before.mapping fields hne hfields
      (fun j hj => by cases hj; omega) (Nat.le_add_right_of_le hnext) hfront hbehind
    obtain ⟨r', hothers, hafter⟩ := Before.items rest hrest hn htail (hbefore.ended (by omega))
    refine ⟨r', (hdash.trans hread).trans hothers, ?_⟩
    rw [itemTokens, recordTokens]
    simpa using hafter

end

end Reader
end Rollout.Yaml
