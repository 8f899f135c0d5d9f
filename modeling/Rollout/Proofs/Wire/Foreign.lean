import Rollout.Proofs.Wire.Declared

/-!
# Fields of newer nodes

A newer node may send fields that a message here does not have. Records of such fields can stand anywhere, in a
message and in the messages inside it, and the lengths around them tell of them (`Grown`). They are passed
over: the bytes are read as they would be without them, for whatever value has been read before.
-/

namespace Rollout.Wire

open Message

/-- The field holds messages of the type. -/
inductive Field.Nests : {α β : Type} → Field α → Message β → Prop
  | optional {α β} (k : Message β) (name : String) (number : Nat) (get : α → Option β)
      (set : Option β → α → α) : Nests (.optional k name number get set) k
  | repeated {α β} (k : Message β) (name : String) (number : Nat) (get : α → List β)
      (set : List β → α → α) : Nests (.repeated k name number get set) k

/-- No field of the message has the number of the record. -/
def Message.Foreign {α : Type} (m : Message α) (r : Record) : Prop := ∀ f ∈ m.fields, f.number ≠ r.number

instance {α : Type} {m : Message α} {r : Record} : Decidable (m.Foreign r) :=
  inferInstanceAs (Decidable (∀ f ∈ m.fields, f.number ≠ r.number))

/-- The second bytes are the first with records added that are foreign where they stand: at any place
between the records of the message, and of the messages inside it. -/
inductive Grown : {α : Type} → Message α → Bytes → Bytes → Prop
  | done {α} {m : Message α} : Grown m [] []
  | added {α} {m : Message α} {r s b b'} (hforeign : m.Foreign r) (hs : r.Spells s)
      (rest : Grown m b b') : Grown m b (s ++ b')
  | kept {α} {m : Message α} {r : Record} {s b b'} (hs : r.Spells s) (rest : Grown m b b') :
      Grown m (s ++ b) (s ++ b')
  | inner {α β} {m : Message α} {k : Message β} {f : Field α} {number c c' s s' b b'}
      (hfind : m.fields.find? (·.number == number) = some f) (hnests : f.Nests k)
      (hs : Record.Spells ⟨number, .delimited c⟩ s) (hs' : Record.Spells ⟨number, .delimited c'⟩ s')
      (hinner : Grown k c c') (rest : Grown m b b') : Grown m (s ++ b) (s' ++ b')

/-! ## Where records can be added -/

variable {α β : Type} {m : Message α} {f : Field α} {k : Message β} {r : Record}
  {s b b' c c' : Bytes} {limit : Nat} {a : α}

theorem Grown.append (h : Grown m b b') (h' : Grown m c c') : Grown m (b ++ c) (b' ++ c') := by
  induction h with
  | done => exact h'
  | added hforeign hs _ ih =>
    rw [List.append_assoc]
    exact .added hforeign hs (ih h')
  | kept hs _ ih =>
    rw [List.append_assoc, List.append_assoc]
    exact .kept hs (ih h')
  | inner hfind hnests hs hs' hinner _ _ ih =>
    rw [List.append_assoc, List.append_assoc]
    exact .inner hfind hnests hs hs' hinner (ih h')

theorem Grown.refl {rs : List Record} (h : ∀ r ∈ rs, r.Spells r.encode) :
    Grown m (rs.flatMap Record.encode) (rs.flatMap Record.encode) := by
  induction rs with
  | nil => exact .done
  | cons r rs ih =>
    obtain ⟨hr, hrs⟩ := List.forall_mem_cons.1 h
    exact .kept hr (ih hrs)

/-- A foreign record can be added between any two records of a value. -/
theorem Message.RoundTrips.grown_insert (h : m.RoundTrips) (hwritable : m.Writable a) {before after : List Record}
    (hrecords : m.records a = before ++ after) (hforeign : m.Foreign r) (hs : r.Spells s) :
    Grown m (m.encode a) (before.flatMap Record.encode ++ (s ++ after.flatMap Record.encode)) := by
  have hspells := h.spells a hwritable
  rw [hrecords] at hspells
  obtain ⟨hbefore, hafter⟩ := List.forall_mem_append.1 hspells
  rw [Message.encode, hrecords, List.flatMap_append]
  exact (Grown.refl hbefore).append (.added hforeign hs (.refl hafter))

/-! ## What is made of them -/

theorem Message.Foreign.take (h : m.Foreign r) : m.take limit a r = pure a := by
  have hfind : m.fields.find? (·.number == r.number) = none := by
    rw [List.find?_eq_none]
    intro f hf
    simpa using h f hf
  simp only [Message.take, hfind]
  rfl

/-- A field that holds messages depends on their bytes only through what is made of them. -/
theorem Field.Nests.read_congr (h : f.Nests k)
    (hinner : ∀ limit x, k.merge limit x c' = k.merge limit x c) :
    f.read limit (.delimited c') a = f.read limit (.delimited c) a := by
  cases h with
  | optional => simp only [Field.optional, Field.inner_delimited, pure_bind, hinner]
  | repeated => simp only [Field.repeated, Field.inner_delimited, pure_bind, hinner]

/-- Foreign records change nothing, whatever has been read before. -/
theorem Grown.merge (h : Grown m b b') (limit : Nat) (a : α) : m.merge limit a b' = m.merge limit a b := by
  induction h generalizing limit with
  | done => rfl
  | added hforeign hs _ ih => rw [merge_append hs, hforeign.take, pure_bind, ih]
  | kept hs _ ih =>
    rw [merge_append hs, merge_append hs]
    congr 1
    funext x
    exact ih limit x
  | @inner _ _ m _ _ number c c' _ _ _ _ hfind hnests hs hs' _ _ ihinner ih =>
    have htake : m.take limit a ⟨number, .delimited c'⟩ = m.take limit a ⟨number, .delimited c⟩ := by
      simp only [Message.take, hfind, hnests.read_congr ihinner]
    rw [merge_append hs', merge_append hs, htake]
    congr 1
    funext x
    exact ih limit x

/-! ## Events -/

/-- The second event is the first, but that foreign records may have been added to the status it carries. -/
inductive Event.Grown (e : Event) : Event → Prop
  | same : e.Grown e
  | status {content : Content} {value : Bytes} (hdata : e.data = some content)
      (h : Wire.Grown MachineStatusEvent.message content.value value) :
      e.Grown { e with data := some { content with value } }

theorem Event.Grown.read_eq {e e' : Event} (h : e.Grown e') : e'.read = e.read := by
  cases h with
  | same => rfl
  | status hdata h =>
    have hvalue : MachineStatusEvent.message.decode _ = MachineStatusEvent.message.decode _ :=
      h.merge depthLimit MachineStatusEvent.message.empty
    simp only [Event.read, hdata, hvalue]

theorem receiveEvent_of_decode {e : Event} (h : Event.message.decode b = .ok e) : receiveEvent b = e.read := by
  simp only [receiveEvent, Transfer.decode, h]
  rfl

/-! ## The result -/

/-- Whatever foreign records are added to the bytes of a value, the value is read, and written as it was. -/
structure Message.Tolerant (m : Message α) : Prop where
  decode : ∀ a b, m.Writable a → Grown m (m.encode a) b → m.decode b = .ok a
  rewrite : ∀ a b, m.Writable a → Grown m (m.encode a) b → (m.decode b).map m.encode = .ok (m.encode a)
  /-- Between any two records there is room for one. -/
  inserted : ∀ a before after r s, m.Writable a → m.records a = before ++ after → m.Foreign r →
    r.Spells s → m.decode (before.flatMap Record.encode ++ (s ++ after.flatMap Record.encode)) = .ok a

/-- Newer nodes are understood: in every message, and in an event also where the status it carries is read. -/
structure Understood : Prop where
  messages : ∀ {α : Type} {m : Message α}, Declared m → m.Tolerant
  events : ∀ e e' b, Event.message.Writable e → Event.message.Writable e' → e.Grown e' →
    Grown Event.message (Event.message.encode e') b →
    receiveEvent b = receiveEvent (Event.message.encode e)

theorem Grown.decode (h : Grown m (m.encode a) b) (hm : m.RoundTrips) (hwritable : m.Writable a) :
    m.decode b = .ok a := by
  rw [Message.decode, h.merge]
  exact hm.merge_encode depthLimit a hwritable

theorem understood : Understood := by
  constructor
  case messages =>
    intro α m hm
    have hback := hm.roundTrips
    refine ⟨fun a b hwritable h => h.decode hback hwritable, fun a b hwritable h => ?_, ?_⟩
    · rw [h.decode hback hwritable]
      rfl
    · intro a before after r s hwritable hrecords hforeign hs
      exact (hback.grown_insert hwritable hrecords hforeign hs).decode hback hwritable
  case events =>
    intro e e' b he he' hstatus hgrown
    have hgiven : receiveEvent (Event.message.encode e) = e.read :=
      receiveEvent_of_decode (Event.roundTrips.merge_encode depthLimit e he)
    have hreceived : receiveEvent b = e'.read :=
      receiveEvent_of_decode (hgrown.decode Event.roundTrips he')
    rw [hgiven, hreceived, hstatus.read_eq]

/-- A status event with a foreign number at the event, a foreign word around its content, and a foreign text in
the status. -/
theorem understood_everywhere :
    let status := MachineStatusEvent.message.encode { stage := 4, status := some { ready := true } }
    let kind := "talos/runtime/machine.MachineStatusEvent"
    let number : Record := ⟨12, .varint 7⟩
    let word : Record := ⟨500, .fixed32 #v[1, 2, 3, 4]⟩
    let text : Record := ⟨3, .delimited [0x6e, 0x65, 0x77]⟩
    let content := Content.message.encode ⟨kind, status ++ text.encode⟩
    receiveEvent (number.encode ++ Record.encode ⟨2, .delimited (word.encode ++ content)⟩) =
      receiveEvent (Event.message.encode { data := some ⟨kind, status⟩ }) := by
  intro status kind number word text content
  have hnumber : number.Spells number.encode := Record.spells_encode (by decide) (by decide) nofun nofun
  have hword : word.Spells word.encode := Record.spells_encode (by decide) (by decide) nofun nofun
  have htext : text.Spells text.encode := Record.spells_delimited (by decide) (by decide) (by decide)
  have hstatus : Grown MachineStatusEvent.message status (status ++ text.encode) := by
    have hsame : Grown MachineStatusEvent.message status status :=
      .refl (MachineStatusEvent.roundTrips.spells _ (by decide +kernel))
    simpa only [List.append_nil] using hsame.append (.added (by decide) htext .done)
  have hcontent : Grown Content.message content (word.encode ++ content) :=
    .added (by decide) hword (.refl (Content.roundTrips.spells _ (by decide +kernel)))
  have hspells (b : Bytes) (hb : b.length < Varint.limit) :
      Record.Spells ⟨2, .delimited b⟩ (Record.encode ⟨2, .delimited b⟩) :=
    Record.spells_delimited (by decide) (by decide) hb
  have hevent : Grown Event.message (Event.message.encode { data := some ⟨kind, status ++ text.encode⟩ })
      (Record.encode ⟨2, .delimited (word.encode ++ content)⟩) := by
    have hinner : Grown Event.message (Record.encode ⟨2, .delimited content⟩ ++ [])
        (Record.encode ⟨2, .delimited (word.encode ++ content)⟩ ++ []) :=
      .inner rfl (.optional ..) (hspells _ (by decide +kernel)) (hspells _ (by decide +kernel)) hcontent .done
    rw [List.append_nil (Record.encode ⟨2, .delimited (word.encode ++ content)⟩)] at hinner
    exact hinner
  have hcarried : Event.Grown { data := some ⟨kind, status⟩ } { data := some ⟨kind, status ++ text.encode⟩ } := by
    have hdata : Event.data { data := some ⟨kind, status⟩ } = some ⟨kind, status⟩ := rfl
    exact .status hdata hstatus
  exact understood.events { data := some ⟨kind, status⟩ } { data := some ⟨kind, status ++ text.encode⟩ } _
    (by decide +kernel) (by decide +kernel) hcarried (.added (by decide) hnumber hevent)

end Rollout.Wire
