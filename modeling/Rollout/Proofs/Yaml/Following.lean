import Rollout.Yaml.Decode

/-!
# What decoded values come from

A value that was decoded says something about the document: what a node stands for, once its alias is
followed, is the text, the flag or the mapping that was read. A field of a record is as the only pair with its
name has it, and as in the empty record if there is no such pair.
-/

namespace Rollout.Yaml

namespace Document

/-- The node stands for the other: it is that node, or an alias to it. -/
inductive Means (d : Document) : Node → Node → Prop
  | self {node} (h : ∀ m anchor, node ≠ .reference m anchor) : d.Means node node
  | via {m anchor node} (h : d.resolve? anchor = some node) : d.Means (.reference m anchor) node

variable {d : Document} {node a b : Node}

theorem Means.unique (ha : d.Means node a) (hb : d.Means node b) : a = b := by
  cases ha with
  | self h =>
    cases hb with
    | self => rfl
    | via => exact absurd rfl (h _ _)
  | via ha =>
    cases hb with
    | self h => exact absurd rfl (h _ _)
    | via hb => exact Option.some.inj (ha.symm.trans hb)

/-- The node is a single value of that text. -/
def Says (d : Document) (node : Node) (s : String) : Prop :=
  ∃ m tag style, d.Means node (.scalar m tag style s)

theorem Says.unique {s t : String} (hs : d.Says node s) (ht : d.Says node t) : s = t := by
  obtain ⟨m, tag, style, hs⟩ := hs
  obtain ⟨m', tag', style', ht⟩ := ht
  cases hs.unique ht
  rfl

/-- The node is written as that truth value: without quotes, or as a block that is tagged as one. -/
def Flags (d : Document) (node : Node) (b : Bool) : Prop :=
  ∃ m tag style s, d.Means node (.scalar m tag style s) ∧ Plain.bool? s = some b ∧
    (style = .plain ∨ style = .block ∧ tag = some "tag:yaml.org,2002:bool")

/-- The node is a mapping with a pair of that name and value. -/
def Holds (d : Document) (node : Node) (name : String) (value : Node) : Prop :=
  ∃ m tag pairs k, d.Means node (.mapping m tag pairs) ∧ (k, value) ∈ pairs ∧ d.Says k name

end Document

/-! ## Decoding that succeeds -/

namespace Decode

variable {α β : Type} {d : Document} {x : Decode α} {f : α → Decode β} {a : α} {b : β}

/-- Decoding gives a value, however many aliases were followed before. -/
def Gives (x : Decode α) (d : Document) (a : α) : Prop := ∃ n n', (x.run d).run n = .ok (a, n')

theorem Gives.bind (h : (x >>= f).Gives d b) : ∃ a, x.Gives d a ∧ (f a).Gives d b := by
  obtain ⟨n, n', h⟩ := h
  change (x.run d).run n >>= (fun p => ((f p.1).run d).run p.2) = _ at h
  cases hx : (x.run d).run n with
  | error problem =>
    rw [hx] at h
    cases h
  | ok p =>
    rw [hx] at h
    exact ⟨p.1, ⟨n, p.2, hx⟩, p.2, n', h⟩

theorem Gives.eq_of_pure {a a' : α} (h : (pure a : Decode α).Gives d a') : a' = a := by
  obtain ⟨n, n', h⟩ := h
  cases h
  rfl

theorem not_gives_throw {problem : Problem} : ¬ (throw problem : Decode α).Gives d a := by
  rintro ⟨n, n', h⟩
  cases h

theorem not_gives_refuse {message : String} {p : Position} {m : Mark} :
    ¬ (refuse message p m : Decode α).Gives d a := not_gives_throw

theorem not_gives_broken : ¬ (broken : Decode α).Gives d a := by
  intro h
  obtain ⟨d', -, h⟩ := h.bind
  exact not_gives_throw h

theorem Gives.means {node target : Node} (h : (Decode.target node).Gives d target) : d.Means node target := by
  cases node with
  | reference m anchor =>
    obtain ⟨-, -, h⟩ := h.bind
    obtain ⟨d', hread, h⟩ := h.bind
    obtain rfl : d' = d := by
      obtain ⟨n, n', hread⟩ := hread
      cases hread
      rfl
    cases hresolve : d'.resolve? anchor with
    | none =>
      rw [hresolve] at h
      exact absurd h not_gives_broken
    | some found =>
      rw [hresolve] at h
      rw [h.eq_of_pure]
      exact .via hresolve
  | broken => exact absurd h not_gives_broken
  | _ =>
    rw [h.eq_of_pure]
    exact .self nofun

end Decode

namespace Decoder

open Decode

variable {ρ γ : Type} {d : Document} {p : Position} {m : Mark} {node k v : Node} {s : String} {b : Bool}
  {expected : String} {fields : List (Field ρ)} {seen : List String} {r r' : ρ}
  {ps : List (Node × Node)} {name : String} {get : ρ → γ}

theorem not_gives_wrongKind {α : Type} {a : α} : ¬ (wrongKind expected p node : Decode α).Gives d a :=
  not_gives_refuse

/-! ## Single values -/

theorem says_of_text (h : (text p node).Gives d s) : d.Says node s := by
  obtain ⟨target, htarget, h⟩ := h.bind
  cases target with
  | scalar m tag style t =>
    obtain rfl := h.eq_of_pure
    exact ⟨m, tag, style, htarget.means⟩
  | _ => exact absurd h not_gives_wrongKind

theorem flags_of_bool (h : (bool p node).Gives d b) : d.Flags node b := by
  obtain ⟨target, htarget, h⟩ := h.bind
  cases target with
  | scalar m tag style t =>
    dsimp only at h
    split at h
    · next c hc =>
      obtain rfl := h.eq_of_pure
      split at hc
      · next hliteral =>
        refine ⟨m, tag, style, t, htarget.means, hc, ?_⟩
        simpa using hliteral
      · cases hc
    · exact absurd h not_gives_wrongKind
  | _ => exact absurd h not_gives_wrongKind

theorem says_of_key {q : Position} (h : (key expected p k).Gives d (name, q)) : d.Says k name := by
  obtain ⟨target, htarget, h⟩ := h.bind
  cases target with
  | scalar m tag style t =>
    have hname : name = t := by
      cases k <;> exact congrArg Prod.fst h.eq_of_pure
    rw [hname]
    exact ⟨m, tag, style, htarget.means⟩
  | _ => exact absurd h not_gives_wrongKind

/-! ## Records -/

/-- A pair is passed over, or it changes the record and its name does not come again. -/
theorem pairs_cons (h : (Decoder.pairs fields p m seen r ((k, v) :: ps)).Gives d r') :
    ∃ name, d.Says k name ∧
      ((fields.find? (·.name == name) = none ∧ (Decoder.pairs fields p m seen r ps).Gives d r') ∨
        ∃ field q change, fields.find? (·.name == name) = some field ∧ name ∉ seen ∧
          (field.put q v).Gives d change ∧
          (Decoder.pairs fields p m (name :: seen) (change r) ps).Gives d r') := by
  rw [Decoder.pairs] at h
  obtain ⟨⟨name, q⟩, hkey, h⟩ := h.bind
  refine ⟨name, says_of_key hkey, ?_⟩
  dsimp only at h
  split at h
  · next hfield =>
    split at h
    · obtain ⟨_, hbroken, -⟩ := h.bind
      exact absurd hbroken not_gives_broken
    · exact .inl ⟨hfield, h⟩
  · next field hfield =>
    split at h
    · obtain ⟨_, hrefused, -⟩ := h.bind
      exact absurd hrefused not_gives_refuse
    · next hseen =>
      obtain ⟨change, hput, h⟩ := h.bind
      exact .inr ⟨field, q, change, hfield, fun hmem => hseen (List.contains_iff_mem.2 hmem), hput, h⟩

/-- One field alone sets a part of the record, to what its value shows. -/
structure Owns (fields : List (Field ρ)) (name : String) (get : ρ → γ)
    (Shows : Document → Node → γ → Prop) : Prop where
  isSome : (fields.find? (·.name == name)).isSome
  sets : ∀ field, fields.find? (·.name == name) = some field → ∀ d q v change r,
    (field.put q v).Gives d change → Shows d v (get (change r))
  keeps : ∀ other field, other ≠ name → fields.find? (·.name == other) = some field → ∀ d q v change r,
    (field.put q v).Gives d change → get (change r) = get r

variable {Shows : Document → Node → γ → Prop}

/-- A field changes a record by what is read of its value. -/
theorem Field.of_gives {α : Type} {decoder : Decoder α} {put : α → ρ → ρ} {q : Position} {change : ρ → ρ}
    (h : ((Field.of name decoder put).put q v).Gives d change) :
    ∃ a, (decoder q v).Gives d a ∧ change = put a := by
  obtain ⟨a, ha, h⟩ := h.bind
  exact ⟨a, ha, h.eq_of_pure⟩

section TwoFields

variable {α β : Type} {decoder : Decoder α} {decoder' : Decoder β} {put : α → ρ → ρ} {put' : β → ρ → ρ}
  {name' : String} (get : ρ → γ) (Shows : Document → Node → γ → Prop)

theorem owns_first (hsets : ∀ d q v a r, (decoder q v).Gives d a → Shows d v (get (put a r)))
    (hkeeps : ∀ a r, get (put' a r) = get r) :
    Owns [.of name decoder put, .of name' decoder' put'] name get Shows where
  isSome := by simp [Field.of]
  sets field hfield d q v change r h := by
    obtain rfl : Field.of name decoder put = field := by simpa [Field.of] using hfield
    obtain ⟨a, ha, rfl⟩ := Field.of_gives h
    exact hsets d q v a r ha
  keeps other field hother hfield d q v change r h := by
    obtain ⟨rfl, rfl⟩ : name' = other ∧ Field.of name' decoder' put' = field := by
      simpa [Field.of, Ne.symm hother] using hfield
    obtain ⟨a, -, rfl⟩ := Field.of_gives h
    exact hkeeps a r

theorem owns_second (hne : name ≠ name')
    (hsets : ∀ d q v a r, (decoder' q v).Gives d a → Shows d v (get (put' a r)))
    (hkeeps : ∀ a r, get (put a r) = get r) :
    Owns [.of name decoder put, .of name' decoder' put'] name' get Shows where
  isSome := by simp [Field.of]
  sets field hfield d q v change r h := by
    obtain rfl : Field.of name' decoder' put' = field := by simpa [Field.of, hne] using hfield
    obtain ⟨a, ha, rfl⟩ := Field.of_gives h
    exact hsets d q v a r ha
  keeps other field hother hfield d q v change r h := by
    obtain ⟨rfl, rfl⟩ : name = other ∧ Field.of name decoder put = field := by
      simpa [Field.of, Ne.symm hother] using hfield
    obtain ⟨a, -, rfl⟩ := Field.of_gives h
    exact hkeeps a r

end TwoFields

theorem not_says_of_seen (hfield : (fields.find? (·.name == name)).isSome) (hseen : name ∈ seen)
    (h : (Decoder.pairs fields p m seen r ps).Gives d r') : ∀ pair ∈ ps, ¬ d.Says pair.1 name := by
  induction ps generalizing seen r with
  | nil => exact List.forall_mem_nil _
  | cons pair rest ih =>
    obtain ⟨k, v⟩ := pair
    obtain ⟨name', hsaid, hcase⟩ := pairs_cons h
    refine List.forall_mem_cons.2 ?_
    obtain ⟨hnone, h⟩ | ⟨field, q, change, -, hnew, -, h⟩ := hcase
    · refine ⟨fun hsaid' => ?_, ih hseen h⟩
      rw [hsaid'.unique hsaid, hnone] at hfield
      cases hfield
    · refine ⟨fun hsaid' => hnew ?_, ih (List.mem_cons_of_mem _ hseen) h⟩
      rwa [← hsaid'.unique hsaid]

/-- Without a pair of its name a part of the record stays as it is. -/
theorem Owns.kept (howns : Owns fields name get Shows) (hnone : ∀ pair ∈ ps, ¬ d.Says pair.1 name)
    (h : (Decoder.pairs fields p m seen r ps).Gives d r') : get r' = get r := by
  induction ps generalizing seen r with
  | nil => rw [h.eq_of_pure]
  | cons pair rest ih =>
    obtain ⟨k, v⟩ := pair
    obtain ⟨hk, hrest⟩ := List.forall_mem_cons.1 hnone
    obtain ⟨name', hsaid, hcase⟩ := pairs_cons h
    obtain ⟨-, h⟩ | ⟨field, q, change, hfield, -, hput, h⟩ := hcase
    · exact ih hrest h
    · have hother : name' ≠ name := by
        rintro rfl
        exact hk hsaid
      exact (ih hrest h).trans (howns.keeps name' field hother hfield d q v change r hput)

theorem Owns.shown (howns : Owns fields name get Shows)
    (h : (Decoder.pairs fields p m seen r ps).Gives d r') :
    ∀ pair ∈ ps, d.Says pair.1 name → Shows d pair.2 (get r') := by
  induction ps generalizing seen r with
  | nil => exact List.forall_mem_nil _
  | cons pair rest ih =>
    obtain ⟨k, v⟩ := pair
    obtain ⟨name', hsaid, hcase⟩ := pairs_cons h
    obtain ⟨hnone, h⟩ | ⟨field, q, change, hfield, -, hput, h⟩ := hcase
    · refine List.forall_mem_cons.2 ⟨fun hsaid' => ?_, ih h⟩
      have hsome := howns.isSome
      rw [hsaid'.unique hsaid, hnone] at hsome
      cases hsome
    · refine List.forall_mem_cons.2 ⟨fun hsaid' => ?_, ih h⟩
      obtain rfl := hsaid'.unique hsaid
      have hlater := not_says_of_seen howns.isSome List.mem_cons_self h
      rw [howns.kept hlater h]
      exact howns.sets field hfield d q v change r hput

/-- A record is read from a mapping, or it is empty because nothing is written. -/
theorem record_cases {empty : ρ} (h : (record expected fields empty .ok p node).Gives d r) :
    (∃ m tag ps q, d.Means node (.mapping m tag ps) ∧ (Decoder.pairs fields q m [] empty ps).Gives d r) ∨
      r = empty ∧ ∀ name value, ¬ d.Holds node name value := by
  obtain ⟨target, htarget, h⟩ := h.bind
  have hmeans := htarget.means
  have hempty (h : (if isEmptyCollection target then pure empty else wrongKind expected p target :
      Decode ρ).Gives d r) (hmapping : ∀ m tag ps, target ≠ .mapping m tag ps) :
      r = empty ∧ ∀ name value, ¬ d.Holds node name value := by
    split at h
    · refine ⟨h.eq_of_pure, fun name value hholds => ?_⟩
      obtain ⟨m, tag, ps, k, hmeans', -, -⟩ := hholds
      exact hmapping m tag ps (hmeans.unique hmeans')
    · exact absurd h not_gives_wrongKind
  cases target with
  | mapping m tag ps =>
    obtain ⟨q, -, h⟩ := h.bind
    obtain ⟨r', hpairs, h⟩ := h.bind
    obtain rfl := h.eq_of_pure
    exact .inl ⟨m, tag, ps, q, hmeans, hpairs⟩
  | _ => exact .inr (hempty h nofun)

theorem Owns.of_record {empty : ρ} (h : (record expected fields empty .ok p node).Gives d r)
    (howns : Owns fields name get Shows) :
    (∀ value, d.Holds node name value → Shows d value (get r)) ∧
      ((∀ value, ¬ d.Holds node name value) → get r = get empty) := by
  obtain ⟨m, tag, ps, q, hmeans, hpairs⟩ | ⟨rfl, hnothing⟩ := record_cases h
  · constructor
    · rintro value ⟨m', tag', ps', k, hmeans', hmem, hsaid⟩
      cases hmeans.unique hmeans'
      exact howns.shown hpairs (k, value) hmem hsaid
    · intro hnone
      refine howns.kept (fun pair hpair hsaid => ?_) hpairs
      exact hnone pair.2 ⟨m, tag, ps, pair.1, hmeans, hpair, hsaid⟩
  · exact ⟨fun value hholds => absurd hholds (hnothing name value), fun _ => rfl⟩

end Decoder

/-- A text that is decoded has one document, and its root is what was decoded. -/
theorem decodeOnly_eq_ok {α : Type} {decoder : Decoder α} {documents : List Document} {a : α}
    (h : decodeOnly decoder documents = .ok a) :
    ∃ d, documents = [d] ∧ d.problem = none ∧ (decoder {} d.root).Gives d a := by
  match documents with
  | [] => cases h
  | d :: rest =>
    rw [decodeOnly, Document.decode] at h
    cases hroot : (decoder {} d.root).run d |>.run 0 with
    | error problem =>
      rw [hroot] at h
      cases h
    | ok result =>
      rw [hroot] at h
      cases hproblem : d.problem with
      | some problem =>
        simp only [hproblem] at h
        cases h
      | none =>
        simp only [hproblem] at h
        cases rest with
        | nil =>
          cases h
          exact ⟨d, rfl, hproblem, 0, result.2, hroot⟩
        | cons other more => cases h

end Rollout.Yaml
