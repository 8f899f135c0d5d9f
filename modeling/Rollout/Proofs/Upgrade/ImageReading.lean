import Rollout.Pattern.Reading
import Rollout.Proofs.Pattern.Selection
import Rollout.Proofs.Upgrade.Image

/-!
# What can be read as an image reference

A text of one line can be read if somewhere in it a slash, a schematic, a colon and at least one more
character follow each other. The last such slash counts, and the version is all that follows the colon but for
one `v` in front of it. This is what the pattern `^.*/([a-zA-Z0-9]+):v?(.+)$` takes in its preferred match,
although the dots, the schematic and the `v` may all give back some of what they have taken.
-/

namespace Rollout.InstallerImage

open Pattern

variable {s front rest schematic version : List Char} {before : Option Char}

/-! ## Tags -/

/-- Behind `front` and a slash there is a schematic, and behind a colon there is the `rest`. -/
structure TagBehind (s front schematic rest : List Char) : Prop where
  eq : s = front ++ '/' :: (schematic ++ ':' :: rest)
  schematic_ne : schematic ≠ []
  schematic_alphanumeric : ∀ c ∈ schematic, c.isAlphanum = true
  rest_ne : rest ≠ []

/-- No tag begins at a later slash. -/
structure LastTagBehind (s front schematic rest : List Char) : Prop extends
    TagBehind s front schematic rest where
  last : ∀ front' schematic' rest', TagBehind s front' schematic' rest' → front'.length ≤ front.length

/-- The version that stands for what follows the colon: one `v` in front of something is left out. -/
inductive Unmarked : (rest version : List Char) → Prop
  | marked {v} (h : v ≠ []) : Unmarked ('v' :: v) v
  | bare {v} (h : ∀ rest, v = 'v' :: rest → rest = []) : Unmarked v v

theorem isAlphanumeric_eq (c : Char) : isAlphanumeric c = c.isAlphanum := by
  have hupper : c.isUpper = ('A' ≤ c && c ≤ 'Z') := Bool.decide_and ..
  have hletter : c.isAlpha = (c.isLower || 'A' ≤ c && c ≤ 'Z') := hupper ▸ Bool.or_comm c.isUpper c.isLower
  have hdigit : c.isDigit = ('0' ≤ c && c ≤ '9') := rfl
  exact (congrArg₂ or hletter hdigit).symm

theorem unmarked_dropV (rest : List Char) : Unmarked rest (dropV rest) := by
  unfold dropV
  split
  · exact .marked (by simp)
  · next hbare =>
    refine .bare fun rest' hrest => ?_
    subst hrest
    cases rest' with
    | nil => rfl
    | cons c rest' => exact absurd rfl (hbare c rest')

theorem Unmarked.eq_dropV (h : Unmarked rest version) : version = dropV rest := by
  cases h with
  | marked h => exact (dropV_marked h).symm
  | bare h =>
    unfold dropV
    split
    · next c rest => simpa using h (c :: rest) rfl
    · rfl

theorem splitTag_eq_some_iff : splitTag s = some (schematic, version) ↔
    ∃ rest, TagBehind ('/' :: s) [] schematic rest ∧ version = dropV rest := by
  constructor
  · intro h
    unfold splitTag at h
    split at h
    · next c letters d tail htake hdrop =>
      obtain ⟨rfl, rfl⟩ := Prod.mk.inj (Option.some.inj h)
      refine ⟨d :: tail, ⟨?_, by simp, ?_, by simp⟩, rfl⟩
      · rw [← htake, ← hdrop, List.takeWhile_append_dropWhile]
        rfl
      · intro x hx
        rw [← htake] at hx
        rw [← isAlphanumeric_eq]
        exact List.mem_takeWhile_imp hx
    · cases h
  · rintro ⟨rest, htag, rfl⟩
    have hs : s = schematic ++ ':' :: rest := List.cons.inj htag.eq |>.2
    rw [hs]
    refine splitTag_append htag.schematic_ne (fun c hc => ?_) htag.rest_ne
    rw [isAlphanumeric_eq]
    exact htag.schematic_alphanumeric c hc

theorem TagBehind.splitTag (h : TagBehind s front schematic rest) :
    InstallerImage.splitTag (schematic ++ ':' :: rest) = some (schematic, dropV rest) :=
  splitTag_eq_some_iff.2 ⟨rest, ⟨rfl, h.schematic_ne, h.schematic_alphanumeric, h.rest_ne⟩, rfl⟩

theorem tagBehind_cons_iff {c : Char} : TagBehind (c :: s) front schematic rest ↔
    (front = [] ∧ c = '/' ∧ TagBehind ('/' :: s) [] schematic rest) ∨
      ∃ front', front = c :: front' ∧ TagBehind s front' schematic rest := by
  constructor
  · intro h
    cases front with
    | nil =>
      obtain ⟨rfl, hs⟩ := List.cons.inj h.eq
      exact .inl ⟨rfl, rfl, h⟩
    | cons c' front' =>
      obtain ⟨rfl, hs⟩ := List.cons.inj h.eq
      exact .inr ⟨front', rfl, hs, h.schematic_ne, h.schematic_alphanumeric, h.rest_ne⟩
  · rintro (⟨rfl, rfl, h⟩ | ⟨front', rfl, h⟩)
    · exact h
    · exact ⟨congrArg (c :: ·) h.eq, h.schematic_ne, h.schematic_alphanumeric, h.rest_ne⟩

theorem lastTag_eq_none_iff :
    lastTag s = none ↔ ∀ front schematic rest, ¬ TagBehind s front schematic rest := by
  induction s with
  | nil =>
    refine iff_of_true rfl fun front schematic rest h => ?_
    simpa using h.eq
  | cons c s ih =>
    constructor
    · intro h front schematic rest htag
      unfold lastTag at h
      cases hlater : lastTag s with
      | some tag => simp [hlater] at h
      | none =>
        rw [hlater] at h
        rcases tagBehind_cons_iff.1 htag with ⟨-, rfl, hhere⟩ | ⟨front', -, hthere⟩
        · obtain ⟨-, hs⟩ := List.cons.inj hhere.eq
          simp [hs, hhere.splitTag] at h
        · exact ih.1 hlater front' schematic rest hthere
    · intro h
      have hlater : lastTag s = none := ih.2 fun front schematic rest htag =>
        h (c :: front) schematic rest (tagBehind_cons_iff.2 (.inr ⟨front, rfl, htag⟩))
      unfold lastTag
      rw [hlater]
      by_cases hc : c = '/'
      · subst hc
        by_contra hsome
        obtain ⟨⟨schematic, version⟩, hsplit⟩ := Option.ne_none_iff_exists'.1 hsome
        obtain ⟨rest, htag, -⟩ := splitTag_eq_some_iff.1 (by simpa using hsplit)
        exact h [] schematic rest htag
      · simp [hc]

theorem TagBehind.cons (c : Char) (h : TagBehind s front schematic rest) :
    TagBehind (c :: s) (c :: front) schematic rest :=
  tagBehind_cons_iff.2 (.inr ⟨front, rfl, h⟩)

/-- The tag that is read begins at the last slash at which one begins. -/
theorem exists_lastTagBehind (h : lastTag s = some (schematic, version)) :
    ∃ front rest, LastTagBehind s front schematic rest ∧ version = dropV rest := by
  induction s with
  | nil => cases h
  | cons c s ih =>
    cases hlater : lastTag s with
    | some tag =>
      have hsame : lastTag s = some (schematic, version) := by simpa [lastTag, hlater] using h
      obtain ⟨front, rest, htag, hversion⟩ := ih hsame
      refine ⟨c :: front, rest, ⟨htag.toTagBehind.cons c, ?_⟩, hversion⟩
      intro front' schematic' rest' htag'
      rcases tagBehind_cons_iff.1 htag' with ⟨rfl, -, -⟩ | ⟨front', rfl, hthere⟩
      · simp
      · simpa using htag.last _ _ _ hthere
    | none =>
      by_cases hc : c = '/'
      · subst hc
        have hsplit : splitTag s = some (schematic, version) := by simpa [lastTag, hlater] using h
        obtain ⟨rest, htag, hversion⟩ := splitTag_eq_some_iff.1 hsplit
        refine ⟨[], rest, ⟨htag, ?_⟩, hversion⟩
        intro front' schematic' rest' htag'
        rcases tagBehind_cons_iff.1 htag' with ⟨rfl, -, -⟩ | ⟨front', -, hthere⟩
        · simp
        · exact absurd hthere (lastTag_eq_none_iff.1 hlater _ _ _)
      · simp [lastTag, hlater, hc] at h

theorem LastTagBehind.unique {front' schematic' rest' : List Char}
    (h : LastTagBehind s front schematic rest) (h' : LastTagBehind s front' schematic' rest') :
    front = front' ∧ schematic = schematic' ∧ rest = rest' := by
  have hlength : front.length = front'.length :=
    Nat.le_antisymm (h'.last _ _ _ h.toTagBehind) (h.last _ _ _ h'.toTagBehind)
  obtain ⟨hfront, htail⟩ := List.append_inj (h.eq.symm.trans h'.eq) hlength
  have htext : schematic ++ ':' :: rest = schematic' ++ ':' :: rest' := (List.cons.inj htail).2
  have hsplit := h.splitTag
  rw [htext, h'.splitTag] at hsplit
  have hschematic : schematic' = schematic := (Prod.mk.inj (Option.some.inj hsplit)).1
  subst hschematic
  simpa using And.intro hfront htext

theorem lastTag_eq_some_iff : lastTag s = some (schematic, version) ↔
    ∃ front rest, LastTagBehind s front schematic rest ∧ version = dropV rest := by
  refine ⟨exists_lastTagBehind, ?_⟩
  rintro ⟨front, rest, htag, rfl⟩
  cases hread : lastTag s with
  | none => exact absurd htag.toTagBehind (lastTag_eq_none_iff.1 hread _ _ _)
  | some tag =>
    obtain ⟨schematic', version'⟩ := tag
    obtain ⟨front', rest', htag', hversion⟩ := exists_lastTagBehind hread
    obtain ⟨-, hschematic, hrest⟩ := htag'.unique htag
    rw [← hschematic, ← hrest, ← hversion]

/-! ## The pattern -/

def dotSet : CharSet := .negated (.single '\n')

def alphanumericSet : CharSet :=
  .union (.union (.union .empty (.range 'a' 'z')) (.range 'A' 'Z')) (.range '0' '9')

/-- What stands behind the last slash in the pattern. -/
def tagParts : List Pattern :=
  [.times (.set alphanumericSet) 1 none, .set (.single ':'), .times (.set (.single 'v')) 0 (some 1),
    .times (.set dotSet) 1 none, .look .textEnd]

def parts : List Pattern :=
  .look .textStart :: .times (.set dotSet) 0 none :: .set (.single '/') :: tagParts

theorem contains_single {c x : Char} : (CharSet.single c).contains x = (x == c) := by
  rw [Bool.eq_iff_iff]
  simp only [CharSet.single, CharSet.contains, Bool.and_eq_true, decide_eq_true_eq, beq_iff_eq]
  constructor
  · rintro ⟨hle, hge⟩
    exact Char.le_antisymm hge hle
  · rintro rfl
    exact ⟨Char.le_refl _, Char.le_refl _⟩

theorem contains_dotSet {x : Char} : dotSet.contains x = (x != '\n') := by
  have hsingle := contains_single (c := '\n') (x := x)
  simpa [dotSet, CharSet.contains, bne] using hsingle

theorem contains_alphanumericSet : alphanumericSet.contains = isAlphanumeric := by
  funext x
  simp [alphanumericSet, CharSet.contains, isAlphanumeric]

/-- The end of the text takes nothing, and only there. -/
theorem splits_textEnd : splits [.look .textEnd] before s = if s = [] then [[[]]] else [] := by
  cases s <;> simp [splits, ways, Look.holds]

theorem takeWhile_dotSet (h : '\n' ∉ s) : s.takeWhile dotSet.contains = s := by
  refine List.takeWhile_eq_self_iff.2 fun x hx => ?_
  rw [contains_dotSet, bne_iff_ne]
  exact ne_of_mem_of_not_mem hx h

theorem drop_takeWhile_dotSet (h : '\n' ∈ s) :
    s.drop (s.takeWhile dotSet.contains).length ≠ [] := by
  intro hdrop
  have hall : s.takeWhile dotSet.contains = s :=
    (List.takeWhile_prefix _).eq_of_length_le (List.drop_eq_nil_iff.1 hdrop)
  have hdot := List.takeWhile_eq_self_iff.1 hall _ h
  rw [contains_dotSet] at hdot
  exact absurd hdot (by simp)

/-- The version takes all there is. -/
theorem head?_splits_version :
    (splits [.times (.set dotSet) 1 none, .look .textEnd] before s).head? =
      if s = [] ∨ '\n' ∈ s then none else some [s, []] := by
  rw [head?_splits_cons, findSome?_ways_plus]
  · by_cases hline : '\n' ∈ s
    · simp [splits_textEnd, drop_takeWhile_dotSet hline, hline]
    · simp [takeWhile_dotSet hline, splits_textEnd, hline]
  · rintro t x ⟨u, rfl⟩ -
    simp [splits_textEnd]

/-- The `v` in front of a version, if one is left out. -/
def mark : List Char → List Char
  | 'v' :: _ :: _ => ['v']
  | _ => []

/-- A `v` is taken unless the version needs it. -/
theorem head?_splits_marked :
    (splits [.times (.set (.single 'v')) 0 (some 1), .times (.set dotSet) 1 none, .look .textEnd]
        before s).head? =
      if s = [] ∨ '\n' ∈ s then none else some [mark s, dropV s, []] := by
  rw [head?_splits_cons]
  cases s with
  | nil => simp [ways_optional_nil, head?_splits_version]
  | cons x s =>
    rw [ways_optional_cons, contains_single]
    by_cases hv : x = 'v'
    · subst hv
      cases s with
      | nil => simp [head?_splits_version, mark, dropV]
      | cons y s => by_cases hline : '\n' ∈ y :: s <;> simp [head?_splits_version, mark, dropV, hline]
    · by_cases hline : '\n' ∈ x :: s <;> simp [head?_splits_version, mark, dropV, hv, hline]

theorem head?_splits_colon :
    (splits (.set (.single ':') :: [.times (.set (.single 'v')) 0 (some 1), .times (.set dotSet) 1 none,
        .look .textEnd]) before s).head? =
      match s with
      | ':' :: rest => if rest = [] ∨ '\n' ∈ rest then none else some [[':'], mark rest, dropV rest, []]
      | _ => none := by
  rw [head?_splits_cons]
  cases s with
  | nil => simp
  | cons x s =>
    by_cases hx : x = ':'
    · subst hx
      simp only [ways_set_cons, contains_single, beq_self_eq_true, if_true, List.findSome?_singleton,
        List.length_singleton, List.drop_succ_cons, List.drop_zero, head?_splits_marked]
      split <;> rfl
    · simp [contains_single, hx]

/-- The schematic and the version in what the parts of a tag take. -/
def tagOf (taken : List (List Char)) : List Char × List Char := (taken.getD 0 [], taken.getD 3 [])

/-- The tag behind a slash, if the text begins with one. -/
def slashTag : List Char → Option (List Char × List Char)
  | '/' :: rest => if '\n' ∈ rest then none else splitTag rest
  | _ => none

theorem alphanumeric_ne_newline {x : Char} (h : isAlphanumeric x = true) : x ≠ '\n' := by
  rintro rfl
  exact absurd h (by decide)

/-- The parts of a tag take what is split in two. -/
theorem head?_splits_tag : (splits tagParts before s).head?.map tagOf =
    if '\n' ∈ s then none else splitTag s := by
  rw [tagParts, head?_splits_cons, findSome?_ways_plus]
  · rw [contains_alphanumericSet]
    have hs : s = s.takeWhile isAlphanumeric ++ s.dropWhile isAlphanumeric :=
      List.takeWhile_append_dropWhile.symm
    have hrun : '\n' ∉ s.takeWhile isAlphanumeric := fun h =>
      alphanumeric_ne_newline (List.mem_takeWhile_imp h) rfl
    have hline : '\n' ∈ s ↔ '\n' ∈ s.dropWhile isAlphanumeric := by
      conv_lhs => rw [hs, List.mem_append]
      simp [hrun]
    have hdrop : s.drop (s.takeWhile isAlphanumeric).length = s.dropWhile isAlphanumeric := by
      have hleft : (s.takeWhile isAlphanumeric ++ s.dropWhile isAlphanumeric).drop
          (s.takeWhile isAlphanumeric).length = s.dropWhile isAlphanumeric := List.drop_left
      rwa [← hs] at hleft
    rw [hdrop, head?_splits_colon, splitTag]
    simp only [hline]
    rcases s.takeWhile isAlphanumeric with _ | ⟨c, schematic⟩
    · simp
    · rcases s.dropWhile isAlphanumeric with _ | ⟨x, rest⟩
      · simp
      · by_cases hx : x = ':'
        · subst hx
          rcases rest with _ | ⟨d, version⟩
          · simp
          · by_cases hmem : '\n' ∈ d :: version <;> simp [tagOf, hmem]
        · simp [hx]
  · rintro t x ⟨u, rfl⟩ hx
    have hcolon : x ≠ ':' := by
      rintro rfl
      rw [contains_alphanumericSet] at hx
      exact absurd hx (by decide)
    simp [head?_splits_colon, hcolon]

theorem head?_splits_slash :
    (splits (.set (.single '/') :: tagParts) before s).head?.map (fun taken => tagOf taken.tail) =
      slashTag s := by
  rw [head?_splits_cons]
  cases s with
  | nil => simp [slashTag]
  | cons x s =>
    by_cases hx : x = '/'
    · subst hx
      simp only [ways_set_cons, contains_single, beq_self_eq_true, if_true, List.findSome?_singleton,
        List.length_singleton, List.drop_succ_cons, List.drop_zero, Option.map_map, Function.comp_def,
        List.tail_cons, head?_splits_tag, slashTag]
    · simp [contains_single, slashTag, hx]

/-- Of the places on the first line, the last is tried first. -/
theorem findSome?_slashTag :
    (s.takeWhile dotSet.contains).inits.reverse.findSome? (fun t => slashTag (s.drop t.length)) =
      if '\n' ∈ s then none else lastTag s := by
  induction s with
  | nil => simp [slashTag, lastTag]
  | cons x s ih =>
    by_cases hx : x = '\n'
    · subst hx
      simp [contains_dotSet, slashTag]
    · have hhere : slashTag (x :: s) = if x = '/' ∧ '\n' ∉ s then splitTag s else none := by
        by_cases hslash : x = '/'
        · subst hslash
          by_cases hline : '\n' ∈ s <;> simp [slashTag, hline]
        · simp [slashTag, hslash]
      have hrun : (x :: s).takeWhile dotSet.contains = x :: s.takeWhile dotSet.contains := by
        simp [contains_dotSet, hx]
      rw [hrun, List.inits_cons, List.reverse_cons, List.findSome?_append, ← List.map_reverse,
        List.findSome?_map]
      simp only [Function.comp_def, List.length_cons, List.drop_succ_cons, ih]
      by_cases hline : '\n' ∈ s
      · simp [hhere, hline]
      · cases hlater : lastTag s <;> simp [hhere, hline, Ne.symm hx, lastTag, hlater]

theorem splits_parts_behind (c : Char) : splits parts (some c) s = [] := by
  simp [parts, splits, ways, Look.holds]

theorem leftmost?_parts_behind (c : Char) : leftmost? parts (some c) s = none := by
  induction s generalizing c with
  | nil => simp [leftmost?, splits_parts_behind]
  | cons x s ih => simp [leftmost?, splits_parts_behind, ih]

theorem head?_splits_parts : (splits parts none s).head?.map (fun taken => tagOf (taken.drop 3)) =
    if '\n' ∈ s then none else lastTag s := by
  have hbehind (before : Option Char) (t : List Char) :
      (splits (.set (.single '/') :: tagParts) before (s.drop t.length)).head?.map
        (fun taken => tagOf (([] :: t :: taken).drop 3)) = slashTag (s.drop t.length) := by
    have hslash : (splits (.set (.single '/') :: tagParts) before (s.drop t.length)).head?.map
        (fun taken => tagOf taken.tail) = slashTag (s.drop t.length) := head?_splits_slash
    simpa [List.drop_one] using hslash
  rw [parts, head?_splits_cons, ← findSome?_slashTag]
  simp only [ways, Look.holds, Option.isNone_none, if_true, List.findSome?_singleton]
  rw [head?_splits_cons, ways_star]
  simp only [List.map_findSome?, List.length_nil, List.drop_zero]
  refine congrArg (List.findSome? · _) (funext fun t => ?_)
  rw [Function.comp_apply, Function.comp_apply, Option.map_map, Option.map_map]
  exact hbehind _ t

theorem leftmost?_parts : (leftmost? parts none s).map (fun taken => tagOf (taken.drop 3)) =
    if '\n' ∈ s then none else lastTag s := by
  rw [← head?_splits_parts]
  cases s with
  | nil => rfl
  | cons x s => rw [leftmost?, leftmost?_parts_behind, Option.or_none]

theorem parse_parts : Pattern.parse "^.*/([a-zA-Z0-9]+):v?(.+)$" = .ok (inRow parts) := by
  rfl

/-! ## Reading a reference -/

def readTag (s : List Char) : Option (List Char × List Char) :=
  if '\n' ∈ s then none else lastTag s

theorem parse_eq (s : String) : parse s =
    match readTag s.toList with
    | some (schematic, version) => .ok ⟨String.ofList schematic, String.ofList version⟩
    | none => .error (.installerImage s) := by
  by_cases hline : '\n' ∈ s.toList
  · simp only [parse, readTag, List.contains_eq_mem, hline, decide_true, if_true]
  · cases hlast : lastTag s.toList <;>
      simp only [parse, readTag, List.contains_eq_mem, hline, hlast, decide_false, Bool.false_eq_true, if_false]

theorem readTag_eq_some_iff : readTag s = some (schematic, version) ↔
    '\n' ∉ s ∧ ∃ front rest, LastTagBehind s front schematic rest ∧ version = dropV rest := by
  by_cases hline : '\n' ∈ s <;> simp [readTag, hline, lastTag_eq_some_iff]

theorem readTag_eq_none_iff : readTag s = none ↔
    '\n' ∈ s ∨ ∀ front schematic rest, ¬ TagBehind s front schematic rest := by
  by_cases hline : '\n' ∈ s <;> simp [readTag, hline, lastTag_eq_none_iff]

theorem parse_eq_leftmost? (s : String) : parse s =
    match leftmost? parts none s.toList with
    | some taken => .ok ⟨String.ofList (taken.getD 3 []), String.ofList (taken.getD 6 [])⟩
    | none => .error (.installerImage s) := by
  have hread : readTag s.toList = _ := leftmost?_parts.symm
  rw [parse_eq, hread]
  cases leftmost? parts none s.toList with
  | none => rfl
  | some taken => simp [tagOf, List.getElem?_drop]

theorem exists_parse_iff_selects (s : String) :
    (∃ i, parse s = .ok i) ↔ (inRow parts).selects s = true := by
  rw [selects_inRow_iff, parse_eq_leftmost?]
  cases leftmost? parts none s.toList <;> simp

theorem parse_eq_error_iff (s : String) (e : Error) : parse s = .error e ↔
    ('\n' ∈ s.toList ∨ ∀ front schematic rest, ¬ TagBehind s.toList front schematic rest) ∧
      e = .installerImage s := by
  rw [parse_eq, ← readTag_eq_none_iff]
  cases readTag s.toList <;> simp [eq_comm]

theorem parse_eq_ok_iff (s : String) (i : InstallerImage) : parse s = .ok i ↔
    '\n' ∉ s.toList ∧ ∃ front schematic rest version, LastTagBehind s.toList front schematic rest ∧
      Unmarked rest version ∧ i = ⟨String.ofList schematic, String.ofList version⟩ := by
  rw [parse_eq]
  constructor
  · intro h
    cases hread : readTag s.toList with
    | none => simp [hread] at h
    | some tag =>
      obtain ⟨schematic, version⟩ := tag
      obtain ⟨hline, front, rest, htag, rfl⟩ := readTag_eq_some_iff.1 hread
      refine ⟨hline, front, schematic, rest, _, htag, unmarked_dropV rest, ?_⟩
      simpa [hread, eq_comm] using h
  · rintro ⟨hline, front, schematic, rest, version, htag, hversion, rfl⟩
    have hread := readTag_eq_some_iff.2 ⟨hline, front, rest, htag, hversion.eq_dropV⟩
    rw [hread]

theorem exists_parse_iff (s : String) : (∃ i, parse s = .ok i) ↔
    '\n' ∉ s.toList ∧ ∃ front schematic rest, TagBehind s.toList front schematic rest := by
  rw [← not_iff_not]
  have herror : (¬ ∃ i, parse s = .ok i) ↔ parse s = .error (.installerImage s) := by
    rw [parse_eq]
    cases readTag s.toList <;> simp
  rw [herror, parse_eq_error_iff]
  simp only [and_true, not_and_or, not_not, not_exists]

/-- A text is an image reference if it is one line with a tag. What is read is the last tag, its version
without one `v`; a text that cannot be read is named in the error. In particular a reference that is written
down with a schematic and a version names these. The texts that can be read are those that the pattern
selects, and what is read is what its groups hold in the preferred match. -/
theorem reads_last_tag :
    (∀ s : String,
      ((∃ i, parse s = .ok i) ↔
        '\n' ∉ s.toList ∧ ∃ front schematic rest, TagBehind s.toList front schematic rest) ∧
      (∀ i, parse s = .ok i ↔ '\n' ∉ s.toList ∧ ∃ front schematic rest version,
        LastTagBehind s.toList front schematic rest ∧ Unmarked rest version ∧
          i = ⟨String.ofList schematic, String.ofList version⟩) ∧
      ∀ e, parse s = .error e → e = .installerImage s) ∧
    (∀ i : TaggedImage, parse i.text = .ok ⟨i.schematic, i.version⟩) ∧
    Pattern.parse "^.*/([a-zA-Z0-9]+):v?(.+)$" = .ok (inRow parts) ∧
    ∀ s : String, ((∃ i, parse s = .ok i) ↔ (inRow parts).selects s = true) ∧
      parse s =
        match leftmost? parts none s.toList with
        | some taken => .ok ⟨String.ofList (taken.getD 3 []), String.ofList (taken.getD 6 [])⟩
        | none => .error (.installerImage s) := by
  refine ⟨fun s => ⟨exists_parse_iff s, parse_eq_ok_iff s, fun e h => ?_⟩, TaggedImage.parse_text,
    parse_parts, fun s => ⟨exists_parse_iff_selects s, parse_eq_leftmost? s⟩⟩
  exact ((parse_eq_error_iff s e).1 h).2

end Rollout.InstallerImage
