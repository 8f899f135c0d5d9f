import Rollout.Proofs.Wire.Refilling

/-!
# Parts that come more than once

Records may come in any number and order. Of a part with a single value the last one counts, and inner messages
of one field are read as one; so a part of what was read is the last value among the records that carry it,
and the default where there is none.
-/

namespace Rollout.Wire

variable {α β : Type}

/-- The value that a record carries, if it has that number. -/
def Scalar.carried (s : Scalar β) (number : Nat) (r : Record) : List β :=
  if r.number = number then (s.read r.payload).toOption.toList else []

/-- The records of the message that a record carries, if it has that number. -/
def innerRecords (limit number : Nat) (r : Record) : List Record :=
  match r.payload with
  | .delimited b => if r.number = number then (recordsOf limit b).1 else []
  | _ => []

/-- What a part of a value is after it was read: the last that was there, or what it was before. -/
def latest (before : β) (values : List β) : β := values.getLast?.getD before

@[simp] theorem latest_nil {before : β} : latest before [] = before := rfl

theorem latest_append {before : β} {xs ys : List β} :
    latest before (xs ++ ys) = latest (latest before xs) ys := by
  unfold latest
  rw [List.getLast?_append]
  cases ys.getLast? <;> rfl

theorem getLast?_of_latest {before value : β} {values : List β} (h : latest before values = value)
    (hne : before ≠ value) : values.getLast? = some value := by
  unfold latest at h
  cases hlast : values.getLast? with
  | none =>
    rw [hlast] at h
    exact absurd h hne
  | some last =>
    rw [hlast] at h
    exact congrArg some h

namespace Message

variable {m : Message α} {limit : Nat} {a a' : α} {b : Bytes} {r : Record} {get : α → β}
  {values : Record → List β}

theorem merge_eq_ok (h : m.merge limit a b = .ok a') :
    (recordsOf limit b).1.foldlM (m.take limit) a = .ok a' := by
  unfold merge at h
  cases htaken : (recordsOf limit b).1.foldlM (m.take limit) a with
  | error p =>
    simp only [htaken] at h
    cases h
  | ok x =>
    simp only [htaken] at h
    cases hending : (recordsOf limit b).2 with
    | some reason =>
      simp only [hending] at h
      cases h
    | none =>
      simp only [hending] at h
      cases h
      rfl

/-- A part that every record changes to the last of its values is after all records the last of theirs. -/
theorem latest_of_merge (get : α → β)
    (htake : ∀ a r a', m.take limit a r = .ok a' → get a' = latest (get a) (values r))
    (h : m.merge limit a b = .ok a') :
    get a' = latest (get a) ((recordsOf limit b).1.flatMap values) := by
  have hfold := merge_eq_ok h
  clear h
  generalize (recordsOf limit b).1 = rs at hfold
  induction rs generalizing a with
  | nil =>
    cases hfold
    rfl
  | cons r rs ih =>
    rw [List.foldlM_cons] at hfold
    cases hfirst : m.take limit a r with
    | error p =>
      rw [hfirst] at hfold
      cases hfold
    | ok x =>
      rw [hfirst] at hfold
      rw [List.flatMap_cons, latest_append, ← htake a r x hfirst]
      exact ih hfold

theorem take_cases (h : m.take limit a r = .ok a') :
    (m.fields.find? (·.number == r.number) = none ∧ a' = a) ∨
      ∃ f, m.fields.find? (·.number == r.number) = some f ∧ f.read limit r.payload a = .ok a' := by
  unfold take at h
  split at h
  · next hfield =>
    cases h
    exact .inl ⟨hfield, rfl⟩
  · next f hfield =>
    refine .inr ⟨f, hfield, ?_⟩
    cases hread : f.read limit r.payload a with
    | error p =>
      rw [hread] at h
      cases h
    | ok x =>
      rw [hread] at h
      cases h
      rfl

end Message

/-! ## Fields -/

namespace Field

variable {s : Scalar β} {m : Message β} {name : String} {number limit : Nat} {p : Payload} {a a' : α}

theorem read_one [DecidableEq β] {get : α → β} {set : β → α → α}
    (h : (Field.one s name number get set).read limit p a = .ok a') :
    ∃ v, s.read p = .ok v ∧ a' = set v a := by
  simp only [Field.one, plain] at h
  cases hread : s.read p with
  | error reason =>
    rw [hread] at h
    cases h
  | ok v =>
    rw [hread] at h
    cases h
    exact ⟨v, rfl, rfl⟩

theorem read_optional {get : α → Option β} {set : Option β → α → α}
    (h : (Field.optional m name number get set).read limit p a = .ok a') :
    ∃ b v, p = .delimited b ∧ m.merge (limit - 1) ((get a).getD m.empty) b = .ok v ∧ a' = set (some v) a := by
  simp only [Field.optional] at h
  cases p with
  | delimited b =>
    rw [inner_delimited, pure_bind] at h
    cases hmerge : m.merge (limit - 1) ((get a).getD m.empty) b with
    | error problem =>
      rw [hmerge] at h
      cases h
    | ok v =>
      rw [hmerge] at h
      cases h
      exact ⟨b, v, rfl, hmerge, rfl⟩
  | _ => cases h

theorem read_repeated {get : α → List β} {set : List β → α → α}
    (h : (Field.repeated m name number get set).read limit p a = .ok a') : ∃ vs, a' = set vs a := by
  simp only [Field.repeated] at h
  cases p with
  | delimited b =>
    rw [inner_delimited, pure_bind] at h
    cases hmerge : m.merge (limit - 1) m.empty b with
    | error problem =>
      rw [hmerge] at h
      cases h
    | ok v =>
      rw [hmerge] at h
      cases h
      exact ⟨_, rfl⟩
  | _ => cases h

/-- Reading the field does not change what `get` gives. -/
def Leaves (f : Field α) (get : α → β) : Prop :=
  ∀ limit p a a', f.read limit p a = .ok a' → get a' = get a

variable {γ : Type} {part : α → γ}

theorem Leaves.one [DecidableEq β] {get : α → β} {set : β → α → α} (hset : ∀ v a, part (set v a) = part a) :
    (Field.one s name number get set).Leaves part := by
  intro limit p a a' h
  obtain ⟨v, -, rfl⟩ := read_one h
  exact hset v a

theorem Leaves.optional {get : α → Option β} {set : Option β → α → α}
    (hset : ∀ v a, part (set v a) = part a) : (Field.optional m name number get set).Leaves part := by
  intro limit p a a' h
  obtain ⟨b, v, -, -, rfl⟩ := read_optional h
  exact hset (some v) a

theorem Leaves.repeated {get : α → List β} {set : List β → α → α}
    (hset : ∀ vs a, part (set vs a) = part a) : (Field.repeated m name number get set).Leaves part := by
  intro limit p a a' h
  obtain ⟨vs, rfl⟩ := read_repeated h
  exact hset vs a

end Field

namespace Message

variable {γ : Type} {m : Message α} {k : Message β} {s : Scalar β} {name : String} {number limit : Nat}
  {a a' : α} {r : Record}

/-- A record of one field leaves what another field reads alone. -/
def Keeps (m : Message α) (number : Nat) (get : α → β) : Prop :=
  ∀ f ∈ m.fields, f.number ≠ number → f.Leaves get

theorem Keeps.of_fields {f g : Field α} {get : α → β} (hfields : m.fields = [f, g])
    (hf : f.number = number ∨ f.Leaves get) (hg : g.number = number ∨ g.Leaves get) :
    m.Keeps number get := by
  intro field hmem hother
  rw [hfields, List.mem_cons, List.mem_singleton] at hmem
  rcases hmem with rfl | rfl
  · exact hf.resolve_left hother
  · exact hg.resolve_left hother

theorem number_of_find? {f : Field α} (h : m.fields.find? (·.number == r.number) = some f) :
    f ∈ m.fields ∧ f.number = r.number :=
  ⟨List.mem_of_find?_eq_some h, by simpa using List.find?_some h⟩

/-- A single value is after a record what the record carries of it. -/
theorem latest_of_take_one [DecidableEq β] {get : α → β} {set : β → α → α}
    (hfield : m.fields.find? (·.number == number) = some (.one s name number get set))
    (hset : ∀ v a, get (set v a) = v) (hkeeps : m.Keeps number get) (h : m.take limit a r = .ok a') :
    get a' = latest (get a) (s.carried number r) := by
  obtain ⟨hnone, rfl⟩ | ⟨f, hfind, hread⟩ := take_cases h
  · have hother : r.number ≠ number := by
      intro hsame
      rw [hsame, hfield] at hnone
      cases hnone
    rw [Scalar.carried, if_neg hother, latest_nil]
  · by_cases hsame : r.number = number
    · rw [hsame, hfield] at hfind
      cases hfind
      obtain ⟨v, hv, rfl⟩ := Field.read_one hread
      rw [Scalar.carried, if_pos hsame, hv, hset]
      rfl
    · obtain ⟨hmem, hnumber⟩ := number_of_find? hfind
      rw [Scalar.carried, if_neg hsame, latest_nil]
      exact hkeeps f hmem (hnumber ▸ hsame) limit r.payload a a' hread

/-- A part of an inner message is after a record the last that the records inside it carry. -/
theorem latest_of_take_optional (part : β → γ) {get : α → Option β} {set : Option β → α → α}
    {values : Record → List γ}
    (hfield : m.fields.find? (·.number == number) = some (.optional k name number get set))
    (hset : ∀ v a, get (set v a) = v) (hkeeps : m.Keeps number get)
    (hpart : ∀ limit x x' b, k.merge limit x b = .ok x' →
      part x' = latest (part x) ((recordsOf limit b).1.flatMap values))
    (h : m.take limit a r = .ok a') :
    part ((get a').getD k.empty) =
      latest (part ((get a).getD k.empty)) ((innerRecords (limit - 1) number r).flatMap values) := by
  have hpassed (hsame : r.number ≠ number) : innerRecords (limit - 1) number r = [] := by
    unfold innerRecords
    split
    · rw [if_neg hsame]
    · rfl
  obtain ⟨hnone, rfl⟩ | ⟨f, hfind, hread⟩ := take_cases h
  · have hother : r.number ≠ number := by
      intro hsame
      rw [hsame, hfield] at hnone
      cases hnone
    rw [hpassed hother]
    rfl
  · by_cases hsame : r.number = number
    · rw [hsame, hfield] at hfind
      cases hfind
      obtain ⟨b, v, hpayload, hmerge, rfl⟩ := Field.read_optional hread
      have hinner : innerRecords (limit - 1) number r = (recordsOf (limit - 1) b).1 := by
        simp only [innerRecords, hpayload, hsame, if_true]
      rw [hinner, hset, Option.getD_some]
      exact hpart (limit - 1) _ v b hmerge
    · obtain ⟨hmem, hnumber⟩ := number_of_find? hfind
      rw [hpassed hsame, hkeeps f hmem (hnumber ▸ hsame) limit r.payload a a' hread]
      rfl

end Message
end Rollout.Wire
