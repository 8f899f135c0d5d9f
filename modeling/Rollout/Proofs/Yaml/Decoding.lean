import Rollout.Proofs.Yaml.Trees
import Rollout.Yaml.Decode

/-!
# Decoding records

What decoders make of a tree that says a record. Such a tree has no aliases, so decoding it follows none,
and the value of a field depends on the node of that field only.
-/

namespace Rollout.Yaml

/-- A written record is the only document of its text, and is decoded as that. -/
theorem decodeOnly_write {α : Type} {decoder : Decoder α} {fields : List (String × Output)} {a : α}
    (hne : fields ≠ []) (hfields : AreFields fields)
    (h : ∀ node, Denotes node (.map fields) → decoder {} node = pure a) :
    decodeOnly decoder (documentsOf (.ofText (Output.map fields).write)) = .ok a := by
  obtain ⟨d, hd, hproblem, hdenotes⟩ := documentsOf_write hne hfields
  rw [hd, decodeOnly, Document.decode, h d.root hdenotes]
  simp only [hproblem]
  rfl

mutual

theorem Denotes.not_broken {node : Node} {value : Output} (h : Denotes node value) :
    hasBroken node = false := by
  cases h with
  | text => rw [hasBroken] <;> nofun
  | bool => rw [hasBroken] <;> nofun
  | list h => rw [hasBroken, h.not_broken]
  | map h => rw [hasBroken, h.not_broken]

theorem DenotesItems.not_broken {nodes : List Node} {items : List Output}
    (h : DenotesItems nodes items) : anyBroken nodes = false := by
  cases h with
  | nil => rfl
  | cons hitem hrest => rw [anyBroken, hitem.not_broken, hrest.not_broken, Bool.or_false]

theorem DenotesAll.not_broken {pairs : List (Node × Node)} {fields : List (String × Output)}
    (h : DenotesAll pairs fields) : anyPairBroken pairs = false := by
  cases h with
  | nil => rfl
  | cons hvalue hrest =>
    rw [anyPairBroken, hasBroken, hvalue.not_broken, hrest.not_broken]
    · rfl
    all_goals nofun

end

namespace Decoder

variable {α ρ : Type} {p : Position} {m m' : Mark} {r : ρ} {seen : List String} {node : Node}
  {pairs : List (Node × Node)} {fields : List (Field ρ)}

theorem text_denotes {s : String} (h : Denotes node (.text s)) : text p node = pure s := by
  cases h
  rfl

theorem bool_denotes {b : Bool} (h : Denotes node (.bool b)) : bool p node = pure b := by
  cases h with
  | bool h =>
    unfold bool
    simp only [Decode.target, pure_bind, BEq.rfl, Bool.true_or, if_true, h]

theorem items_denotes {β : Type} {inner : Decoder α} {output : β → Output} {value : β → α}
    (hinner : ∀ (q : Position) (n : Node) (b : β), q.depth = p.depth → Denotes n (output b) →
      inner q n = pure (value b)) (bs : List β) {nodes : List Node} (i : Nat)
    (h : DenotesItems nodes (bs.map output)) : items inner p i nodes = pure (bs.map value) := by
  induction bs generalizing nodes i with
  | nil =>
    cases h
    rfl
  | cons b bs ih =>
    cases h with
    | cons hitem hrest =>
      rw [items, hinner (p.index i) _ b rfl hitem, pure_bind, ih (i + 1) hrest]
      rfl

theorem list_denotes {β : Type} {inner : Decoder α} {output : β → Output} {value : β → α} {d : Nat}
    (hdepth : p.depth = d + 1)
    (hinner : ∀ (q : Position) (n : Node) (b : β), q.depth = d → Denotes n (output b) →
      inner q n = pure (value b)) (bs : List β) (h : Denotes node (.list (bs.map output))) :
    list inner p node = pure (bs.map value) := by
  cases h with
  | list h =>
    have hitems := items_denotes (p := { p with depth := d }) hinner bs 0 h
    unfold list
    simp only [Decode.target, Decode.enter, pure_bind, hdepth]
    exact hitems

theorem pairs_known {style : Style} {name : String} {decoder : Decoder α} {put : α → ρ → ρ} {a : α}
    (hfield : fields.find? (·.name == name) = some (.of name decoder put))
    (hnew : name ∉ seen) (hvalue : decoder (p.key name) node = pure a) :
    Decoder.pairs fields p m seen r ((.scalar m' none style name, node) :: pairs) =
      Decoder.pairs fields p m (name :: seen) (put a r) pairs := by
  have hseen : seen.contains name = false := by simpa using hnew
  rw [Decoder.pairs]
  simp only [key, Decode.target, pure_bind, hfield, hseen, Field.of, hvalue]
  rfl

/-- Fields the record does not have make no difference. -/
theorem pairs_unknown {others : List (String × Output)} (hpairs : DenotesAll pairs others)
    (hunknown : ∀ f ∈ others, fields.find? (·.name == f.1) = none) :
    Decoder.pairs fields p m seen r pairs = pure r := by
  induction pairs generalizing others with
  | nil => rfl
  | cons pair rest ih =>
    cases hpairs with
    | cons hvalue hrest =>
      have hfield := hunknown _ List.mem_cons_self
      rw [Decoder.pairs]
      simp only [key, Decode.target, pure_bind, hfield, hvalue.not_broken]
      exact ih hrest fun f hf => hunknown f (List.mem_cons_of_mem _ hf)

theorem record_mapping {expected : String} {empty : ρ} {finish : ρ → Except String α} {a : α}
    {d : Nat} (hdepth : p.depth = d + 1)
    (hpairs : Decoder.pairs fields { p with depth := d } m [] empty pairs = pure r)
    (hfinish : finish r = .ok a) :
    record expected fields empty finish p (.mapping m none pairs) = pure a := by
  unfold record
  simp only [Decode.target, Decode.enter, pure_bind, hdepth, hpairs, hfinish]

end Decoder
end Rollout.Yaml
