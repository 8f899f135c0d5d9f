import Rollout.Proofs.Wire.Spelling
import Rollout.Wire.Message

/-!
# Reading what was written

A message is read back field by field: reading what a field writes of a value puts the field's part of the
value into what has been read before (`Field.Refills`). A message whose fields, one after the other, lead from
the empty value to any value there is (`Refill`) is read back from every encoding whose length can be told.
-/

namespace Rollout.Wire

variable {α β : Type}

/-! ## Records -/

theorem Record.spells_encode {r : Record} (hpos : 0 < r.number) (hsmall : r.number < numberLimit)
    (hplain : r.payload ≠ .group)
    (hfits : ∀ b, r.payload = .delimited b → b.length < Varint.limit) : r.Spells r.encode := by
  obtain ⟨number, payload⟩ := r
  have hkey (layout : Layout) : KeySpells number layout (encodeKey number layout) := by
    refine ⟨hpos, hsmall, Varint.spells_encode ?_⟩
    have hlayout := layout.number_lt
    have hnumber : number < 536870912 := hsmall
    unfold Varint.limit
    omega
  cases payload with
  | varint n =>
    have hspells := Spells.varint (hkey .varint) (Varint.spells_encode n.toNat_lt)
    rwa [UInt64.ofNat_toNat] at hspells
  | fixed64 v => exact .fixed64 (hkey .fixed64)
  | delimited b => exact .delimited (hkey .delimited) (Varint.spells_encode (hfits b rfl))
  | fixed32 v => exact .fixed32 (hkey .fixed32)
  | group => exact absurd rfl hplain

theorem Record.spells_delimited {number : Nat} {b : Bytes} (hpos : 0 < number) (hsmall : number < numberLimit)
    (hb : b.length < Varint.limit) :
    Record.Spells ⟨number, .delimited b⟩ (Record.encode ⟨number, .delimited b⟩) := by
  refine spells_encode hpos hsmall nofun ?_
  rintro c ⟨⟩
  exact hb

theorem Record.length_le_encode {number : Nat} {b : Bytes} :
    b.length ≤ (Record.encode ⟨number, .delimited b⟩).length := by
  simp [Record.encode, Payload.encode]
  omega

namespace Message

variable {m : Message α} {limit : Nat} {a : α}

theorem merge_nil : m.merge limit a [] = pure a := by
  simp [merge, recordsOf_nil]

theorem merge_append {r : Record} {s : Bytes} (h : r.Spells s) (b : Bytes) :
    m.merge limit a (s ++ b) = m.take limit a r >>= fun a => m.merge limit a b := by
  simp only [merge, h.recordsOf, List.foldlM_cons, bind_assoc]

theorem merge_records {rs : List Record} (h : ∀ r ∈ rs, r.Spells r.encode) :
    m.merge limit a (rs.flatMap Record.encode) = rs.foldlM (m.take limit) a := by
  induction rs generalizing a with
  | nil => exact merge_nil
  | cons r rs ih =>
    obtain ⟨hr, hrs⟩ := List.forall_mem_cons.1 h
    rw [List.flatMap_cons, merge_append hr, List.foldlM_cons]
    congr 1
    funext a
    exact ih hrs

end Message

/-! ## Fields -/

/-- Reading what the field writes of `a` leads from `x` to `y`. -/
structure Field.Refills (f : Field α) (a x y : α) : Prop where
  plain : ∀ p ∈ f.write a, p ≠ .group
  read : ∀ limit, (∀ b, .delimited b ∈ f.write a → b.length < Varint.limit) →
    (f.write a).foldlM (fun x p => f.read limit p x) x = pure y

/-- Reading what the fields write of `a`, one after the other, leads from `x` to `y`. -/
inductive Refill (a : α) : List (Field α) → α → α → Prop
  | nil {x} : Refill a [] x x
  | cons {f fs x y z} (h : f.Refills a x y) (rest : Refill a fs y z) : Refill a (f :: fs) x z

/-- The value has an encoding whose length can be told: lengths go over the wire as numbers of 64 bits. -/
def Message.Writable (m : Message α) (a : α) : Prop := (m.encode a).length < Varint.limit

instance {m : Message α} {a : α} : Decidable (m.Writable a) := inferInstanceAs (Decidable (_ < _))

/-- Every value that can be written is written record by record, and read back, whatever nesting is allowed. -/
structure Message.RoundTrips (m : Message α) : Prop where
  spells : ∀ a, m.Writable a → ∀ r ∈ m.records a, r.Spells r.encode
  merge_encode : ∀ limit a, m.Writable a → m.merge limit m.empty (m.encode a) = pure a

structure Message.WellNumbered (m : Message α) : Prop where
  nodup : (m.fields.map (·.number)).Nodup
  bounds : ∀ n ∈ m.fields.map (·.number), 0 < n ∧ n < numberLimit

instance {m : Message α} : Decidable m.WellNumbered :=
  decidable_of_iff ((m.fields.map (·.number)).Nodup ∧ ∀ n ∈ m.fields.map (·.number), 0 < n ∧ n < numberLimit)
    ⟨fun h => ⟨h.1, h.2⟩, fun h => ⟨h.nodup, h.bounds⟩⟩

/-- A part of a value that is as in the default value, and shares its place with no other. The four equations
are one, so that the parts of a record have it by definition. -/
def Slot (get : α → β) (set : β → α → α) (default : β) (x : α) : Prop :=
  (fun v v' => (get x, set default x, get (set v x), set v' (set v x))) =
    fun v v' => (default, x, v, set v' x)

namespace Slot

variable {get : α → β} {set : β → α → α} {default : β} {x : α}

protected theorem eqs (h : Slot get set default x) (v v' : β) :
    get x = default ∧ set default x = x ∧ get (set v x) = v ∧ set v' (set v x) = set v' x := by
  simpa only [Prod.mk.injEq] using congrFun (congrFun h v) v'

theorem get_eq (h : Slot get set default x) : get x = default := (h.eqs default default).1

theorem set_default (h : Slot get set default x) : set default x = x := (h.eqs default default).2.1

theorem get_set (h : Slot get set default x) (v : β) : get (set v x) = v := (h.eqs v default).2.2.1

theorem set_set (h : Slot get set default x) (v v' : β) : set v' (set v x) = set v' x :=
  (h.eqs v v').2.2.2

end Slot

structure Scalar.Sound (s : Scalar β) : Prop where
  plain : ∀ v, s.write v ≠ .group
  read_write : ∀ v, s.read (s.write v) = pure v

namespace Field

variable {s : Scalar β} {m : Message β} {name : String} {number : Nat} {a x : α}

@[simp] theorem plain_pure (v : β) : plain (pure v) = pure v := rfl

@[simp] theorem inner_delimited (b : Bytes) : inner (.delimited b) = pure b := rfl

theorem Refills.one [DecidableEq β] {get : α → β} {set : β → α → α} (hs : s.Sound)
    (h : Slot get set s.default x) :
    (Field.one s name number get set).Refills a x (set (get a) x) := by
  by_cases hdefault : get a = s.default
  · constructor
    · simp [Field.one, hdefault]
    · simp [Field.one, hdefault, h.set_default]
  · constructor
    · simp [Field.one, hdefault, hs.plain]
    · simp [Field.one, hdefault, hs.read_write]

/-- Elements that are read one by one end up behind those that are there. -/
theorem foldlM_push {γ : Type} {get : α → List γ} {set : List γ → α → α} {write : γ → Payload}
    {read : Payload → α → Except Problem α} (h : Slot get set [] x) (vs : List γ)
    (hread : ∀ v ∈ vs, ∀ y, read (write v) y = pure (set (get y ++ [v]) y)) (before : List γ) :
    (vs.map write).foldlM (fun y p => read p y) (set before x) = pure (set (before ++ vs) x) := by
  induction vs generalizing before with
  | nil => simp
  | cons v vs ih =>
    obtain ⟨hv, hvs⟩ := List.forall_mem_cons.1 hread
    have hnext := ih hvs (before ++ [v])
    rw [List.append_assoc, List.singleton_append] at hnext
    rw [List.map_cons, List.foldlM_cons, hv, pure_bind, h.get_set, h.set_set]
    exact hnext

theorem Refills.many {get : α → List β} {set : List β → α → α} (hs : s.Sound)
    (h : Slot get set [] x) :
    (Field.many s name number get set).Refills a x (set (get a) x) := by
  constructor
  · simp [Field.many, hs.plain]
  · intro limit _
    have hread (v : β) (y : α) :
        (Field.many s name number get set).read limit (s.write v) y = pure (set (get y ++ [v]) y) := by
      simp [Field.many, hs.read_write]
    have hpush := foldlM_push h (get a) (fun v _ => hread v) []
    rwa [h.set_default, List.nil_append] at hpush

theorem Refills.optional {get : α → Option β} {set : Option β → α → α} (hm : m.RoundTrips)
    (h : Slot get set none x) :
    (Field.optional m name number get set).Refills a x (set (get a) x) := by
  constructor
  · simp [Field.optional]
  · intro limit hfits
    cases hget : get a with
    | none => simp [Field.optional, hget, h.set_default]
    | some b =>
      have hlength : m.Writable b := hfits _ (by simp [Field.optional, hget])
      simp [Field.optional, hget, h.get_eq, hm.merge_encode _ _ hlength]

theorem Refills.repeated {get : α → List β} {set : List β → α → α} (hm : m.RoundTrips)
    (h : Slot get set [] x) :
    (Field.repeated m name number get set).Refills a x (set (get a) x) := by
  constructor
  · simp [Field.repeated]
  · intro limit hfits
    have hread (v : β) (hv : v ∈ get a) (y : α) :
        (Field.repeated m name number get set).read limit (.delimited (m.encode v)) y =
          pure (set (get y ++ [v]) y) := by
      have hlength : m.Writable v := hfits _ (List.mem_map.2 ⟨v, hv, rfl⟩)
      simp [Field.repeated, hm.merge_encode _ _ hlength]
    have hpush := foldlM_push h (get a) hread []
    rwa [h.set_default, List.nil_append] at hpush

end Field

/-! ## Messages -/

namespace Message

variable {m : Message α} {f : Field α} {limit : Nat} {a x y : α}

theorem WellNumbered.find? (h : m.WellNumbered) (hf : f ∈ m.fields) :
    m.fields.find? (·.number == f.number) = some f := by
  obtain ⟨before, after, hfields⟩ := List.append_of_mem hf
  have hnodup := h.nodup
  rw [hfields, List.map_append, List.map_cons, List.nodup_append] at hnodup
  rw [hfields, List.find?_append, List.find?_eq_none.2, Option.none_or, List.find?_cons_of_pos]
  · simp
  · intro g hg
    simpa using hnodup.2.2 g.number (List.mem_map_of_mem hg) f.number (by simp)

theorem foldlM_take (hfind : m.fields.find? (·.number == f.number) = some f) {ps : List Payload}
    (h : ps.foldlM (fun x p => f.read limit p x) x = pure y) :
    (ps.map (Record.mk f.number)).foldlM (m.take limit) x = pure y := by
  induction ps generalizing x with
  | nil => exact h
  | cons p ps ih =>
    rw [List.foldlM_cons] at h
    rw [List.map_cons, List.foldlM_cons]
    cases hread : f.read limit p x with
    | error e =>
      rw [hread] at h
      cases h
    | ok z =>
      have htake : m.take limit x ⟨f.number, p⟩ = pure z := by
        simp only [take, hfind, hread]
        rfl
      rw [hread] at h
      rw [htake, pure_bind]
      exact ih h

theorem refill_take {fs : List (Field α)} (h : Refill a fs x y)
    (hfind : ∀ f ∈ fs, m.fields.find? (·.number == f.number) = some f)
    (hfits : ∀ f ∈ fs, ∀ b, .delimited b ∈ f.write a → b.length < Varint.limit) :
    (fs.flatMap fun f => (f.write a).map (Record.mk f.number)).foldlM (m.take limit) x = pure y := by
  induction h with
  | nil => rfl
  | cons h _ ih =>
    obtain ⟨hthis, hothers⟩ := List.forall_mem_cons.1 hfind
    obtain ⟨hthis', hothers'⟩ := List.forall_mem_cons.1 hfits
    rw [List.flatMap_cons, List.foldlM_append, foldlM_take hthis (h.read limit hthis'), pure_bind]
    exact ih hothers hothers'

theorem refill_plain {fs : List (Field α)} (h : Refill a fs x y) :
    ∀ f ∈ fs, ∀ p ∈ f.write a, p ≠ .group := by
  induction h with
  | nil => simp
  | cons h _ ih => exact List.forall_mem_cons.2 ⟨h.plain, ih⟩

/-- The payload of a record of a message that can be written is short enough for its length to be told. -/
theorem Writable.length_lt (h : m.Writable a) {number : Nat} {b : Bytes}
    (hr : ⟨number, .delimited b⟩ ∈ m.records a) : b.length < Varint.limit := by
  have hpart : (Record.encode ⟨number, .delimited b⟩).length ≤ (m.encode a).length :=
    (List.sublist_flatten_of_mem (List.mem_map_of_mem hr)).length_le
  exact Nat.lt_of_le_of_lt (Nat.le_trans Record.length_le_encode hpart) h

theorem mem_records {p : Payload} (hf : f ∈ m.fields) (hp : p ∈ f.write a) :
    ⟨f.number, p⟩ ∈ m.records a :=
  List.mem_flatMap.2 ⟨f, hf, List.mem_map.2 ⟨p, hp, rfl⟩⟩

/-- A message whose fields lead from the empty value to any value is read back. -/
theorem RoundTrips.of_fields (hnumbers : m.WellNumbered) (h : ∀ a, Refill a m.fields m.empty a) :
    m.RoundTrips := by
  have hspells (a : α) (hwritable : m.Writable a) : ∀ r ∈ m.records a, r.Spells r.encode := by
    intro r hr
    obtain ⟨f, hf, hr'⟩ := List.mem_flatMap.1 hr
    obtain ⟨p, hp, rfl⟩ := List.mem_map.1 hr'
    obtain ⟨hpos, hsmall⟩ := hnumbers.bounds f.number (List.mem_map_of_mem hf)
    refine Record.spells_encode hpos hsmall (refill_plain (h a) f hf p hp) ?_
    rintro b rfl
    exact hwritable.length_lt hr
  refine ⟨hspells, fun limit a hwritable => ?_⟩
  rw [encode, merge_records (hspells a hwritable)]
  refine refill_take (h a) (fun f hf => hnumbers.find? hf) fun f hf b hb => ?_
  exact hwritable.length_lt (mem_records hf hb)

end Message

/-! ## Single values -/

namespace Scalar

theorem sound_uint64 : uint64.Sound := ⟨nofun, fun _ => rfl⟩

theorem sound_bool : bool.Sound := by
  refine ⟨nofun, fun v => ?_⟩
  cases v <;> rfl

theorem sound_bytes : bytes.Sound := ⟨nofun, fun _ => rfl⟩

theorem sound_text : text.Sound := by
  refine ⟨nofun, fun s => ?_⟩
  simp only [text, Bytes.text?_ofText]
  rfl

theorem setWidth_signExtend (x : BitVec 32) : (x.signExtend 64).setWidth 32 = x := by
  ext i hi
  have hi' : i < 64 := by omega
  rw [BitVec.getElem_setWidth, BitVec.getLsbD_signExtend]
  simp [hi, hi']

/-- A number that takes all 64 bits for its sign is what its lower 32 bits say. -/
theorem sound_int32 : int32.Sound := by
  refine ⟨nofun, fun n => ?_⟩
  have hlow : n.toInt64.toUInt64.toUInt32.toInt32 = n :=
    Int32.toBitVec_inj.1 (setWidth_signExtend n.toBitVec)
  simp only [int32, hlow]
  rfl

end Scalar
end Rollout.Wire
