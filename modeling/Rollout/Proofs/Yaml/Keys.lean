import Mathlib.Logic.Relation
import Rollout.Proofs.Yaml.Fetching

/-!
# Fetching a key and its colon

A key is read as a plain text with a place kept in front of it. The colon fills the place: with the
key token, and before it with the start of a mapping where the key is deeper than the block it is
in.
-/

namespace Rollout.Yaml

variable {tail : List Char} {n : Nat} {r : Reader} {ks : List Token.Kind} {indents : List Nat}
  {name : String}

/-- A name that is written as a plain key on one line. -/
structure IsName (name : String) : Prop where
  plain : formOf true name = .plain
  simple : isSimpleKey name = true
  short : name.toList.length ≤ Reader.maxKeyLength
  not_marker : (name.toList.head?.all fun c => c != '-' && c != '.') = true

instance (name : String) : Decidable (IsName name) :=
  decidable_of_iff (formOf true name = .plain ∧ isSimpleKey name = true ∧
      name.toList.length ≤ Reader.maxKeyLength ∧
      (name.toList.head?.all fun c => c != '-' && c != '.') = true)
    ⟨fun h => ⟨h.1, h.2.1, h.2.2.1, h.2.2.2⟩,
      fun h => ⟨h.plain, h.simple, h.short, h.not_marker⟩⟩

namespace Reader

/-- What a key at a column adds in front of its text, and the blocks that are open then. -/
def opening (column : Nat) : List Nat → List Token.Kind × List Nat
  | [] => ([.blockMappingStart, .key], [column])
  | i :: rest =>
    if i < column then ([.blockMappingStart, .key], column :: i :: rest) else ([.key], i :: rest)

/-- The colon fills the place in front of the key's text. -/
theorem fill_eq {entries : Array Entry} {t : Token} {k : PossibleKey}
    (hentries : r.entries = (entries.push (.place [])).push (.token t))
    (hplace : k.place = entries.size) (hflow : r.inFlow = false) :
    ∃ filled, r.fill k =
        { r with entries := filled, indents := (opening k.mark.column r.indents).2 } ∧
      (filled.toList.flatMap Entry.tokens).map Token.kind =
        (entries.toList.flatMap Entry.tokens).map Token.kind ++
          (opening k.mark.column r.indents).1 ++ [t.kind] := by
  have hset (tokens : List Token) :
      (r.entries.setIfInBounds k.place (.place tokens)).toList =
        entries.toList ++ [.place tokens, .token t] := by
    rw [hentries, hplace]
    simp
  unfold fill deeper opening
  rw [hflow]
  cases hindents : r.indents with
  | nil =>
    refine ⟨_, rfl, ?_⟩
    rw [hset]
    simp [Entry.tokens]
  | cons i rest =>
    by_cases hless : i < k.mark.column
    · simp only [hless, decide_true, Bool.not_false, Bool.and_true, if_true]
      refine ⟨_, rfl, ?_⟩
      rw [hset]
      simp [Entry.tokens]
    · simp only [hless, decide_false, Bool.not_false, Bool.and_false, Bool.false_eq_true, if_false]
      refine ⟨_, rfl, ?_⟩
      rw [hset]
      simp [Entry.tokens]

/-- The reader with a place kept for a key that starts here. -/
def keeping (r : Reader) (required : Bool) : Reader :=
  { r with
    keys := [some ⟨r.entries.size, required, r.mark⟩]
    entries := r.entries.push (.place []) }

theorem Stands.saveKey (h : r.Stands ks indents tail n) :
    ∃ required, r.saveKey = .ok (r.keeping required) := by
  refine ⟨!r.inFlow && r.indents.head? == some r.mark.column, ?_⟩
  unfold Reader.saveKey
  rw [h.keyAllowed, dropKey_none h.keys_eq]
  simp only [Bool.not_true, Bool.false_eq_true, if_false]
  change Except.ok _ = _
  rw [keeping, h.keys_eq]
  rfl

def pastKey (r : Reader) (required : Bool) (name : String) (tail : List Char) : Reader :=
  (r.keeping required).past (.scalar name .plain)
    ⟨':' :: tail, skipColumns r.mark name.toList.length⟩ false

theorem Stands.fetchHere_key (h : r.Stands ks indents (name.toList ++ ':' :: tail) n)
    (hname : IsName name) (htail : endsWord tail = true) :
    ∃ required, r.fetchHere = .ok (r.pastKey required name tail) := by
  obtain ⟨hplain, hne⟩ := formOf_eq_plain hname.plain
  obtain ⟨required, hsave⟩ := h.saveKey
  have hmarker : r.cursor.atDocumentMarker = false := by
    obtain ⟨c, rest, hcs⟩ := List.exists_cons_of_ne_nil hne
    have hc := hname.not_marker
    simp only [hcs, List.head?_cons, Option.all_some, Bool.and_eq_true, bne_iff_ne] at hc
    exact atDocumentMarker_of_rest (by rw [h.rest_eq, hcs]; rfl) hc.1 hc.2
  have hcursor : r.cursor = ⟨name.toList ++ ':' :: tail, r.mark⟩ := by
    rw [← h.rest_eq]
    rfl
  have hread :=
    readPlain_key (m := r.mark) (leastColumn indents) hplain hne (hcursor ▸ hmarker) htail
  rw [String.ofList_toList, ← hcursor] at hread
  refine ⟨required, ?_⟩
  rw [fetchHere_plain hplain hne (by rw [h.keys_eq]; rfl) h.rest_eq hmarker]
  exact fetchPlain_eq hsave rfl (by rw [keeping, h.indents_eq]; exact hread)

theorem dropStale_fresh {k : PossibleKey} (hkeys : r.keys = [some k])
    (hfresh : r.isStale k = false) :
    r.dropStale = .ok r := by
  cases r with
  | mk cursor entries indents keys keyAllowed =>
    cases hkeys
    simp only [dropStale, List.mapM_cons, List.mapM_nil, hfresh]
    rfl

/-- The colon behind a key is the next token. -/
theorem Stands.fetch_colon {required : Bool}
    (h : r.Stands ks indents (name.toList ++ ':' :: tail) n) (hname : IsName name)
    (htail : endsWord tail = true) (hindents : ∀ i ∈ indents.head?, i ≤ n) :
    (r.pastKey required name tail).fetch = (r.pastKey required name tail).fetchValue := by
  have hskip : (r.pastKey required name tail).skipToToken
      ((r.pastKey required name tail).cursor.rest.length + 1) = r.pastKey required name tail :=
    skipToToken_blanks (n := 0) rfl rfl
  have hfresh :
      (r.pastKey required name tail).isStale ⟨r.entries.size, required, r.mark⟩ = false := by
    have hshort := hname.short
    rw [isStale, Bool.or_eq_false_iff, decide_eq_false_iff_not, decide_eq_false_iff_not]
    refine ⟨Nat.lt_irrefl r.mark.line, ?_⟩
    change ¬ r.mark.index + maxKeyLength < r.mark.index + name.toList.length
    omega
  have hclose : (r.pastKey required name tail).closeTo (r.pastKey required name tail).mark.column =
      r.pastKey required name tail := by
    refine closeTo_of_le (fun i hi => ?_) rfl
    change i ∈ r.indents.head? at hi
    rw [h.indents_eq] at hi
    have hle := hindents i hi
    change i ≤ r.mark.column + _
    rw [h.column_eq]
    omega
  rw [fetch_eq, prepare, hskip, dropStale_fresh rfl hfresh]
  change fetchHere (Reader.closeTo _ _) = _
  rw [hclose]
  exact fetchHere_colon rfl htail

theorem Stands.advances_colon (required : Bool)
    (h : r.Stands ks indents (name.toList ++ ':' :: tail) n) (hname : IsName name)
    (htail : endsWord tail = true) (hindents : ∀ i ∈ indents.head?, i ≤ n) :
    ∃ r', (r.pastKey required name tail).Advances r' ∧
      r'.kinds = ks ++ (opening n indents).1 ++ [.scalar name .plain, .value] ∧
      r'.indents = (opening n indents).2 ∧ r'.keys = [none] ∧ r'.keyAllowed = false ∧
      r'.cursor.rest = tail ∧ n < r'.mark.column := by
  have hlength : 0 < name.toList.length := List.length_pos_iff.2 (formOf_eq_plain hname.plain).2
  obtain ⟨filled, hfill, hkinds⟩ := fill_eq (r := r.pastKey required name tail)
    (k := ⟨r.entries.size, required, r.mark⟩) rfl rfl rfl
  have hindents_eq : (r.pastKey required name tail).indents = indents := h.indents_eq
  have hks : (r.entries.toList.flatMap Entry.tokens).map Token.kind = ks := h.kinds_eq
  rw [hindents_eq] at hfill hkinds
  have hvalue : (r.pastKey required name tail).fetchValue = .ok
      { ((r.pastKey required name tail).fill ⟨r.entries.size, required, r.mark⟩).pushHere
        .value 1 with keys := [none], keyAllowed := false } := rfl
  rw [hfill] at hvalue
  refine ⟨_, ⟨(h.fetch_colon hname htail hindents).trans hvalue, ?_, ?_⟩, ?_, ?_, rfl, rfl, rfl, ?_⟩
  · simp [ended, pushHere, push]
  · exact Nat.lt_succ_self _
  · refine kinds_push.trans ?_
    change (filled.toList.flatMap Entry.tokens).map Token.kind ++ [.value] = _
    rw [hkinds, hks, show r.mark.column = n from h.column_eq, List.append_assoc]
    rfl
  · rw [← h.column_eq]
    rfl
  · rw [← h.column_eq]
    change r.mark.column < r.mark.column + name.toList.length + 1
    omega

/-- A run of `Advances`. -/
def Fetches : Reader → Reader → Prop := Relation.ReflTransGen Advances

theorem closedAt_of_lt {column : Nat} (h : ∀ i ∈ indents.head?, i < column) :
    closedAt column indents = (indents, 0) :=
  closedAt_of_le fun i hi => Nat.le_of_lt (h i hi)

/-- A key that stands where a reader is: the blocks that it ends are ended, and one may begin. -/
theorem Before.key (h : r.Before ks indents (name.toList ++ ':' :: tail) n) (hname : IsName name)
    (htail : endsWord tail = true) (hopen : closedAt n indents = (indents, 0)) :
    ∃ r', r.Fetches r' ∧ r'.kinds = ks ++ (opening n indents).1 ++ [.scalar name .plain, .value] ∧
      r'.indents = (opening n indents).2 ∧ r'.keys = [none] ∧ r'.keyAllowed = false ∧
      r'.cursor.rest = tail ∧ n < r'.mark.column := by
  obtain ⟨hlength, r₁, hprepare, hstands⟩ := h
  have hindents : ∀ i ∈ indents.head?, i ≤ n := by
    have hle : ∀ i ∈ (closedAt n indents).1.head?, i ≤ n := head?_closedAt
    rwa [hopen] at hle
  rw [hopen, List.replicate_zero, List.append_nil] at hstands
  obtain ⟨required, hkey⟩ := hstands.fetchHere_key hname htail
  obtain ⟨r₂, hcolon, hr₂⟩ := hstands.advances_colon required hname htail hindents
  refine ⟨r₂, .tail (.single ⟨?_, ended_past, ?_⟩) hcolon, hr₂⟩
  · rw [fetch_eq, hprepare]
    exact hkey
  · have hpos : 0 < name.toList.length := List.length_pos_iff.2 (formOf_eq_plain hname.plain).2
    rw [List.length_append] at hlength
    exact Nat.lt_of_lt_of_le (Nat.lt_add_of_pos_left hpos) hlength

theorem Before.firstKey (h : r.Before ks indents (name.toList ++ ':' :: tail) n)
    (hname : IsName name) (htail : endsWord tail = true) (hdeeper : ∀ i ∈ indents.head?, i < n) :
    ∃ r', r.Fetches r' ∧
      r'.Behind (ks ++ [.blockMappingStart, .key, .scalar name .plain, .value]) n indents tail := by
  obtain ⟨r', hfetches, hks, hindents, hkeys, hallowed, hrest, hcolumn⟩ :=
    h.key hname htail (closedAt_of_lt hdeeper)
  have hopening : opening n indents = ([.blockMappingStart, .key], n :: indents) := by
    cases indents with
    | nil => rfl
    | cons i rest => exact if_pos (hdeeper i rfl)
  rw [hopening] at hks hindents
  refine ⟨r', hfetches, ?_, hindents, hkeys, hallowed, hrest, hcolumn⟩
  rw [hks, List.append_assoc]
  rfl

theorem Before.nextKey (h : r.Before ks (n :: indents) (name.toList ++ ':' :: tail) n)
    (hname : IsName name) (htail : endsWord tail = true) :
    ∃ r', r.Fetches r' ∧ r'.Behind (ks ++ [.key, .scalar name .plain, .value]) n indents tail := by
  obtain ⟨r', hfetches, hks, hindents, hkeys, hallowed, hrest, hcolumn⟩ :=
    h.key hname htail (if_neg (Nat.lt_irrefl n))
  have hopening : opening n (n :: indents) = ([.key], n :: indents) := if_neg (Nat.lt_irrefl n)
  rw [hopening] at hks hindents
  refine ⟨r', hfetches, ?_, hindents, hkeys, hallowed, hrest, hcolumn⟩
  rw [hks, List.append_assoc]
  rfl

end Reader
end Rollout.Yaml
