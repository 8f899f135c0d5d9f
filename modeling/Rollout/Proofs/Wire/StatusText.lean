import Rollout.Proofs.Yaml.Decoding
import Rollout.Proofs.Yaml.Following
import Rollout.Wire.Resource

/-!
# The text of a status

A status is read back from its text, and from any text that writes the same in other styles. A node may leave
out any part of it; what is filled in is never what makes a machine healthy (`StatusDraft`). The other way
round, of whatever text a status was read, its stage and its readiness are what the text holds (`StatusShown`).
-/

namespace Rollout

open Yaml

theorem Stage.ofText_text (s : Stage) : ofText s.text = s := by
  cases s <;> decide +kernel

theorem Stage.ofText_eq_running_iff {s : String} : ofText s = running ↔ normalize s = "running" := by
  constructor
  · intro h
    unfold ofText at h
    split at h <;> try cases h
    next hname => exact hname
  · intro h
    unfold ofText
    rw [h]
    rfl

namespace Wire

/-! ## Drafts -/

structure ConditionDraft where
  name : Option String := none
  reason : Option String := none

structure ReadinessDraft where
  ready : Option Bool := none
  unmet : Option (List ConditionDraft) := none

/-- A status as a node may write it: any part may be left out, and the stage may have any name. -/
structure StatusDraft where
  stage : Option String := none
  readiness : Option ReadinessDraft := none

def optionalField {α : Type} (name : String) (output : α → Output) (o : Option α) : List (String × Output) :=
  (o.map fun a => (name, output a)).toList

namespace ConditionDraft

def output (c : ConditionDraft) : Output :=
  .map (optionalField "name" .text c.name ++ optionalField "reason" .text c.reason)

def fill (c : ConditionDraft) : Condition := ⟨c.name.getD "", c.reason.getD ""⟩

def of (c : Condition) : ConditionDraft := ⟨some c.name, some c.reason⟩

end ConditionDraft

namespace ReadinessDraft

def output (r : ReadinessDraft) : Output :=
  .map (optionalField "ready" .bool r.ready ++
    optionalField "unmetConditions" (fun cs => .list (cs.map ConditionDraft.output)) r.unmet)

def fill (r : ReadinessDraft) : Readiness :=
  { ready := r.ready.getD false, unmet := (r.unmet.getD []).map ConditionDraft.fill }

/-- Readiness as it is written: conditions are named only if there are any. -/
def of (r : Readiness) : ReadinessDraft where
  ready := some r.ready
  unmet := if r.unmet.isEmpty then none else some (r.unmet.map ConditionDraft.of)

end ReadinessDraft

namespace StatusDraft

def fields (s : StatusDraft) : List (String × Output) :=
  optionalField "stage" .text s.stage ++ optionalField "status" ReadinessDraft.output s.readiness

def fill (s : StatusDraft) : Status :=
  { stage := Stage.ofText (s.stage.getD ""), readiness := (s.readiness.getD {}).fill }

def of (s : Status) : StatusDraft := ⟨some s.stage.text, some (.of s.readiness)⟩

end StatusDraft

theorem ReadinessDraft.output_of (r : Readiness) : (of r).output = readinessOutput r := by
  unfold output of readinessOutput
  split
  · rfl
  · have hconditions : (r.unmet.map ConditionDraft.of).map ConditionDraft.output =
        r.unmet.map conditionOutput := by
      rw [List.map_map]
      rfl
    simp [optionalField, hconditions]

theorem ReadinessDraft.fill_of (r : Readiness) : (of r).fill = r := by
  obtain ⟨ready, unmet⟩ := r
  have hconditions (cs : List Condition) : (cs.map ConditionDraft.of).map ConditionDraft.fill = cs := by
    rw [List.map_map]
    exact List.map_id cs
  cases unmet with
  | nil => rfl
  | cons c rest => exact congrArg (Readiness.mk ready) (hconditions (c :: rest))

theorem StatusDraft.output_of (s : Status) : Output.map (of s).fields = statusOutput s := by
  have hreadiness := ReadinessDraft.output_of s.readiness
  simp only [fields, of, optionalField, statusOutput, Option.map_some, Option.toList_some, hreadiness]
  rfl

theorem StatusDraft.fill_of (s : Status) : (of s).fill = s := by
  simp only [fill, of, Option.getD_some, Stage.ofText_text, ReadinessDraft.fill_of]

/-! ## Reading what is written -/

section Decoding

open Decoder

variable {α β δ ε ρ : Type} {p : Position} {m : Mark} {r : ρ} {seen : List String} {node : Yaml.Node}
  {ps : List (Yaml.Node × Yaml.Node)} {fields : List (Decoder.Field ρ)} {name name' expected : String}
  {decoder : Decoder α} {decoder' : Decoder β} {put : α → ρ → ρ} {put' : β → ρ → ρ} {value : δ → α}
  {value' : ε → β} {output : δ → Output} {output' : ε → Output} {others : List (String × Output)} {d : Nat}

/-- A field that may be left out changes the record if it is there. -/
theorem pairs_optionalField (o : Option δ)
    (hfield : fields.find? (·.name == name) = some (.of name decoder put)) (hnew : name ∉ seen)
    (hdecoder : ∀ q n b, q.depth = p.depth → Denotes n (output b) → decoder q n = pure (value b))
    (h : DenotesAll ps (optionalField name output o ++ others)) :
    ∃ seen' rest, seen' ⊆ name :: seen ∧ DenotesAll rest others ∧ Decoder.pairs fields p m seen r ps =
      Decoder.pairs fields p m seen' (o.elim r fun b => put (value b) r) rest := by
  cases o with
  | none => exact ⟨seen, ps, List.subset_cons_self _ _, h, rfl⟩
  | some b =>
    cases h with
    | cons hvalue hrest =>
      exact ⟨name :: seen, _, List.Subset.refl _, hrest,
        pairs_known hfield hnew (hdecoder _ _ b rfl hvalue)⟩

theorem record_optionalFields (o : Option δ) (o' : Option ε) (hdepth : p.depth = d + 1) (hne : name ≠ name')
    (hdecoder : ∀ q n b, q.depth = d → Denotes n (output b) → decoder q n = pure (value b))
    (hdecoder' : ∀ q n b, q.depth = d → Denotes n (output' b) → decoder' q n = pure (value' b))
    (h : Denotes node (.map (optionalField name output o ++ optionalField name' output' o'))) :
    record expected [.of name decoder put, .of name' decoder' put'] r .ok p node =
      pure (o'.elim id (fun b => put' (value' b)) (o.elim r fun b => put (value b) r)) := by
  have hfield : [Decoder.Field.of name decoder put, .of name' decoder' put'].find? (·.name == name) =
      some (.of name decoder put) := by simp [Decoder.Field.of]
  have hfield' : [Decoder.Field.of name decoder put, .of name' decoder' put'].find? (·.name == name') =
      some (.of name' decoder' put') := by simp [Decoder.Field.of, hne]
  cases h with
  | @map m ps _ hall =>
    obtain ⟨seen, rest, hseen, hrest, hfirst⟩ := pairs_optionalField (p := { p with depth := d }) (m := m)
      (r := r) o hfield List.not_mem_nil hdecoder hall
    have hnew : name' ∉ seen := by
      intro hmem
      simpa [Ne.symm hne] using hseen hmem
    rw [← List.append_nil (optionalField name' output' o')] at hrest
    obtain ⟨seen', rest', -, hdone, hsecond⟩ := pairs_optionalField (p := { p with depth := d }) (m := m)
      (r := o.elim r fun b => put (value b) r) o' hfield' hnew hdecoder' hrest
    cases hdone
    refine record_mapping hdepth (hfirst.trans (hsecond.trans ?_)) rfl
    cases o' <;> rfl

theorem conditionDecoder_denotes {c : ConditionDraft} (hdepth : p.depth = d + 1)
    (h : Denotes node c.output) : conditionDecoder p node = pure c.fill := by
  unfold conditionDecoder
  refine Eq.trans (record_optionalFields c.name c.reason hdepth (by decide)
    (fun _ _ _ _ hn => text_denotes hn) (fun _ _ _ _ hn => text_denotes hn) h) ?_
  obtain ⟨_ | name, _ | reason⟩ := c <;> rfl

theorem readinessDecoder_denotes {draft : ReadinessDraft} (hdepth : p.depth = d + 3)
    (h : Denotes node draft.output) : readinessDecoder p node = pure draft.fill := by
  unfold readinessDecoder
  refine Eq.trans (record_optionalFields draft.ready draft.unmet hdepth (by decide)
    (fun _ _ _ _ hn => bool_denotes hn)
    (fun _ _ cs hq hn => list_denotes hq (fun _ _ _ hq hn => conditionDecoder_denotes hq hn) cs hn) h) ?_
  obtain ⟨_ | ready, _ | unmet⟩ := draft <;> rfl

/-- Whatever a node leaves out of its status is filled in. -/
theorem statusDecoder_denotes {draft : StatusDraft} (h : Denotes node (.map draft.fields)) :
    statusDecoder {} node = pure draft.fill := by
  unfold statusDecoder
  refine Eq.trans (record_optionalFields draft.stage draft.readiness rfl (by decide)
    (fun _ _ _ _ hn => text_denotes hn) (fun _ _ _ hq hn => readinessDecoder_denotes hq hn) h) ?_
  obtain ⟨_ | stage, _ | readiness⟩ := draft <;> rfl

end Decoding

/-! ## Written statuses -/

theorem areItems_conditions (cs : List Condition) : AreItems (cs.map conditionOutput) := by
  induction cs with
  | nil => trivial
  | cons c rest ih => exact ⟨⟨nofun, by decide, trivial, by decide, trivial, trivial⟩, ih⟩

theorem isRecord_readinessOutput (r : Readiness) : IsRecord (readinessOutput r) := by
  unfold readinessOutput
  split
  · exact ⟨nofun, by decide, trivial, trivial⟩
  · next hne =>
    refine ⟨nofun, by decide, trivial, by decide, ⟨?_, areItems_conditions r.unmet⟩, trivial⟩
    simpa using hne

/-- A status is read back from its text, its conditions in their order. -/
theorem decode_statusOutput (s : Status) :
    (Resource.of (statusOutput s)).decode "machine status" statusDecoder = .ok s := by
  have hfields : AreFields [("stage", .text s.stage.text), ("status", readinessOutput s.readiness)] :=
    ⟨by decide, trivial, by decide, isRecord_readinessOutput s.readiness, trivial⟩
  have hread : decodeOnly statusDecoder (documentsOf (.ofText (statusOutput s).write)) = .ok s := by
    refine decodeOnly_write nofun hfields fun node hnode => ?_
    have hdraft : Denotes node (.map (StatusDraft.of s).fields) := by
      rw [StatusDraft.output_of]
      exact hnode
    rw [statusDecoder_denotes hdraft, StatusDraft.fill_of]
  have hyaml : (Resource.of (statusOutput s)).yaml = (statusOutput s).write := rfl
  rw [Resource.decode, hyaml, hread]

theorem decode_of_denotes {r : Resource} {d : Document} {draft : StatusDraft}
    (hd : documentsOf (.ofText r.yaml) = [d]) (hproblem : d.problem = none)
    (h : Denotes d.root (.map draft.fields)) :
    r.decode "machine status" statusDecoder = .ok draft.fill := by
  have hread : decodeOnly statusDecoder (documentsOf (.ofText r.yaml)) = .ok draft.fill := by
    rw [hd, decodeOnly, Document.decode, statusDecoder_denotes h]
    simp only [hproblem]
    rfl
  rw [Resource.decode, hread]

/-! ## Reading anything -/

section Showing

open Decoder

variable {d : Document} {p : Position} {node : Yaml.Node} {s : Status} {r : Readiness}

/-- Readiness is the flag that the node holds under `ready`, and not ready without one. -/
structure ReadinessShown (d : Document) (node : Yaml.Node) (r : Readiness) : Prop where
  ready : ∀ v, d.Holds node "ready" v → d.Flags v r.ready
  missing : (∀ v, ¬ d.Holds node "ready" v) → r.ready = false

/-- A status is what the node holds: its stage is the one of the text under `stage`, its readiness is shown
under `status`; without them it is unknown and not ready. -/
structure StatusShown (d : Document) (node : Yaml.Node) (s : Status) : Prop where
  stage : ∀ v, d.Holds node "stage" v → ∃ name, d.Says v name ∧ s.stage = Stage.ofText name
  no_stage : (∀ v, ¬ d.Holds node "stage" v) → s.stage = .unknown
  readiness : ∀ v, d.Holds node "status" v → ReadinessShown d v s.readiness
  no_readiness : (∀ v, ¬ d.Holds node "status" v) → s.readiness.ready = false

theorem readinessShown_of_decoder (h : (readinessDecoder p node).Gives d r) : ReadinessShown d node r := by
  have hready := Owns.of_record h (owns_first Readiness.ready (fun d v ready => d.Flags v ready)
    (fun _ _ _ _ _ hgives => flags_of_bool hgives) fun _ _ => rfl)
  exact ⟨hready.1, hready.2⟩

theorem statusShown_of_decoder (h : (statusDecoder p node).Gives d s) : StatusShown d node s := by
  have hstage := Owns.of_record h (owns_first Status.stage
    (fun d v stage => ∃ name, d.Says v name ∧ stage = Stage.ofText name)
    (fun _ _ _ name _ hgives => ⟨name, says_of_text hgives, rfl⟩) fun _ _ => rfl)
  have hreadiness := Owns.of_record h (owns_second Status.readiness ReadinessShown (by decide)
    (fun _ _ _ _ _ hgives => readinessShown_of_decoder hgives) fun _ _ => rfl)
  exact ⟨hstage.1, hstage.2, hreadiness.1, fun hnone => by rw [hreadiness.2 hnone]⟩

/-- Whatever a status was read of is one document, and the status is what its root holds. -/
theorem shown_of_decode {r : Resource} (h : r.decode "machine status" statusDecoder = .ok s) :
    ∃ d, documentsOf (.ofText r.yaml) = [d] ∧ StatusShown d d.root s := by
  unfold Resource.decode at h
  cases hread : decodeOnly statusDecoder (documentsOf (.ofText r.yaml)) with
  | error problem =>
    rw [hread] at h
    cases h
  | ok s' =>
    rw [hread] at h
    cases h
    obtain ⟨d, hd, -, hgives⟩ := decodeOnly_eq_ok hread
    exact ⟨d, hd, statusShown_of_decoder hgives⟩

/-- The node holds a stage called running, but for case and separators, and a flag that says ready. -/
structure ShowsHealth (d : Document) (node : Yaml.Node) : Prop where
  stage : ∃ v name, d.Holds node "stage" v ∧ d.Says v name ∧ Stage.normalize name = "running"
  ready : ∃ v w, d.Holds node "status" v ∧ d.Holds v "ready" w ∧ d.Flags w true

theorem StatusShown.health (h : StatusShown d node s) (hs : s.unhealthy? = none) : ShowsHealth d node := by
  obtain ⟨hrunning, hready⟩ := s.unhealthy?_eq_none_iff.1 hs
  constructor
  · by_cases hheld : ∃ v, d.Holds node "stage" v
    · obtain ⟨v, hv⟩ := hheld
      obtain ⟨name, hname, hstage⟩ := h.stage v hv
      exact ⟨v, name, hv, hname, Stage.ofText_eq_running_iff.1 (hstage.symm.trans hrunning)⟩
    · have hunknown := h.no_stage fun v hv => hheld ⟨v, hv⟩
      rw [hrunning] at hunknown
      cases hunknown
  · by_cases hheld : ∃ v, d.Holds node "status" v
    · obtain ⟨v, hv⟩ := hheld
      have hshown := h.readiness v hv
      by_cases hflag : ∃ w, d.Holds v "ready" w
      · obtain ⟨w, hw⟩ := hflag
        exact ⟨v, w, hv, hw, hready ▸ hshown.ready w hw⟩
      · have hunready := hshown.missing fun w hw => hflag ⟨w, hw⟩
        rw [hready] at hunready
        cases hunready
    · have hunready := h.no_readiness fun v hv => hheld ⟨v, hv⟩
      rw [hready] at hunready
      cases hunready

end Showing

end Wire
end Rollout
