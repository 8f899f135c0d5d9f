import Rollout.Proofs.Wire.Declared
import Rollout.Proofs.Wire.Latest
import Rollout.Proofs.Wire.StatusText

/-!
# Statuses read and reported

A machine's status comes in two ways: as a resource that is read and as an event that is reported. Both give the
same status, conditions in their order. What a node leaves out or names in a way that is not known never makes
its machine healthy: a healthy status was written as running and ready by the node itself.
-/

namespace Rollout

namespace Wire

open Message Yaml

variable {limit : Nat} {b : Bytes} {e : Event} {s : Status}

/-! ## Stages by their numbers -/

theorem stageOfNumber_stageNumber (s : Stage) : stageOfNumber (stageNumber s) = s := by
  cases s <;> decide

theorem getD_stages_eq_running {k : Nat} (h : stages[k]?.getD .unknown = .running) : k = 4 := by
  match k with
  | 4 => rfl
  | 0 | 1 | 2 | 3 | 5 | 6 | 7 | 8 => cases h
  | k + 9 => cases h

theorem stageOfNumber_eq_running_iff {n : Int32} : stageOfNumber n = .running ↔ n = 4 := by
  constructor
  · intro h
    unfold stageOfNumber at h
    split at h
    · cases h
    next hpos =>
    have hsign : 0 ≤ n.toInt := by
      have := Int32.le_iff_toInt_le.1 (Int32.not_lt.1 hpos)
      simpa using this
    have hindex : n.toInt.toNat = 4 := getD_stages_eq_running h
    have hint : n.toInt = 4 := by omega
    exact Int32.toInt_inj.1 hint
  · rintro rfl
    decide

/-! ## Events -/

theorem MachineStatusEvent.toStatus_ofStatus (s : Status) : (ofStatus s).toStatus = s := by
  obtain ⟨stage, ready, unmet⟩ := s
  have hconditions : (unmet.map fun c => UnmetCondition.mk c.name c.reason).map
      (fun c => Condition.mk c.name c.reason) = unmet := by
    rw [List.map_map]
    exact List.map_id unmet
  simp only [toStatus, ofStatus, stageOfNumber_stageNumber, Option.getD_some, hconditions]

theorem read_ofReport (h : MachineStatusEvent.message.Writable (.ofStatus s)) :
    (Event.ofReport (.status s)).read = .ok (.status s) := by
  have hdecode : MachineStatusEvent.message.decode (MachineStatusEvent.message.encode (.ofStatus s)) =
      .ok (.ofStatus s) := MachineStatusEvent.roundTrips.merge_encode depthLimit _ h
  have htype : isStatusEvent ("talos/runtime/" ++ statusEventType) = true := by decide
  simp only [Event.ofReport, Event.read, htype, hdecode, MachineStatusEvent.toStatus_ofStatus]
  rfl

theorem payload_of_read (h : e.read = .ok (.status s)) :
    ∃ content payload, e.data = some content ∧
      MachineStatusEvent.message.decode content.value = .ok payload ∧ payload.toStatus = s := by
  unfold Event.read at h
  split at h
  · cases h
  · next content hdata =>
    split at h
    · cases h
    · split at h
      · cases h
      · next payload hpayload =>
        cases h
        exact ⟨content, payload, hdata, hpayload, rfl⟩

def stageNumbers (payload : Bytes) : List Int32 :=
  (recordsOf depthLimit payload).1.flatMap (Scalar.int32.carried 1)

def readyFlags (payload : Bytes) : List Bool :=
  (recordsOf depthLimit payload).1.flatMap fun r =>
    (innerRecords (depthLimit - 1) 2 r).flatMap (Scalar.bool.carried 1)

theorem MachineStatus.ready_of_merge {a a' : MachineStatus} (h : MachineStatus.message.merge limit a b = .ok a') :
    a'.ready = latest a.ready ((recordsOf limit b).1.flatMap (Scalar.bool.carried 1)) := by
  have hkeeps : MachineStatus.message.Keeps 1 MachineStatus.ready :=
    .of_fields rfl (.inl rfl) (.inr (.repeated fun _ _ => rfl))
  exact latest_of_merge MachineStatus.ready
    (fun _ _ _ htake => latest_of_take_one rfl (fun _ _ => rfl) hkeeps htake) h

theorem MachineStatusEvent.stage_of_merge {a a' : MachineStatusEvent}
    (h : MachineStatusEvent.message.merge limit a b = .ok a') :
    a'.stage = latest a.stage ((recordsOf limit b).1.flatMap (Scalar.int32.carried 1)) := by
  have hkeeps : MachineStatusEvent.message.Keeps 1 MachineStatusEvent.stage :=
    .of_fields rfl (.inl rfl) (.inr (.optional fun _ _ => rfl))
  exact latest_of_merge MachineStatusEvent.stage
    (fun _ _ _ htake => latest_of_take_one rfl (fun _ _ => rfl) hkeeps htake) h

theorem MachineStatusEvent.ready_of_merge {a a' : MachineStatusEvent}
    (h : MachineStatusEvent.message.merge limit a b = .ok a') :
    (a'.status.getD {}).ready = latest (a.status.getD {}).ready ((recordsOf limit b).1.flatMap fun r =>
      (innerRecords (limit - 1) 2 r).flatMap (Scalar.bool.carried 1)) := by
  have hkeeps : MachineStatusEvent.message.Keeps 2 MachineStatusEvent.status :=
    .of_fields rfl (.inr (.one fun _ _ => rfl)) (.inl rfl)
  exact latest_of_merge (fun e => (e.status.getD {}).ready)
    (fun _ _ _ htake => latest_of_take_optional MachineStatus.ready rfl (fun _ _ => rfl) hkeeps
      (fun _ _ _ _ hmerge => MachineStatus.ready_of_merge hmerge) htake) h

/-- A status that was reported is what the payload carries last; of what it does not carry, the stage is
unknown and the machine not ready. -/
theorem carried_of_read {content : Content} (hdata : e.data = some content) (h : e.read = .ok (.status s)) :
    s.stage = stageOfNumber (latest 0 (stageNumbers content.value)) ∧
      s.readiness.ready = latest false (readyFlags content.value) := by
  obtain ⟨content', payload, hdata', hpayload, rfl⟩ := payload_of_read h
  obtain rfl : content = content' := Option.some.inj (hdata.symm.trans hdata')
  exact ⟨congrArg stageOfNumber (MachineStatusEvent.stage_of_merge hpayload),
    MachineStatusEvent.ready_of_merge hpayload⟩

/-! ## The result -/

/-- Reads and events of a status agree, and what they make of less than a status is never healthy. -/
structure StatusesAgree : Prop where
  /-- A resource that spells a status in its text is read as that status. -/
  resource : ∀ s, (Resource.of (statusOutput s)).decode "machine status" statusDecoder = .ok s
  /-- An event that reports it is read as the same one. -/
  event : ∀ s, MachineStatusEvent.message.Writable (.ofStatus s) →
    (Event.ofReport (.status s)).read = .ok (.status s)
  /-- A text in any style that leaves out any part, with any name for the stage, is read as it is filled in. -/
  draft : ∀ (r : Resource) (d : Document) (draft : StatusDraft), documentsOf (.ofText r.yaml) = [d] →
    d.problem = none → Denotes d.root (.map draft.fields) →
    r.decode "machine status" statusDecoder = .ok draft.fill
  /-- A payload with any number for the stage is read, with a status or without. -/
  payload : ∀ e, MachineStatusEvent.message.Writable e → MachineStatusEvent.message.decode
    (MachineStatusEvent.message.encode e) = .ok e
  draft_healthy : ∀ draft : StatusDraft, draft.fill.unhealthy? = none ↔
    (∃ name, draft.stage = some name ∧ Stage.normalize name = "running") ∧
      ∃ r, draft.readiness = some r ∧ r.ready = some true
  payload_healthy : ∀ e : MachineStatusEvent, e.toStatus.unhealthy? = none ↔
    e.stage = 4 ∧ ∃ status, e.status = some status ∧ status.ready = true
  /-- Whatever text a status is read of holds its stage and its readiness. -/
  shown : ∀ r s, Resource.decode "machine status" statusDecoder r = .ok s →
    ∃ d, documentsOf (.ofText r.yaml) = [d] ∧ StatusShown d d.root s
  /-- So a text that is read as healthy says so itself. -/
  shows_health : ∀ r s, Resource.decode "machine status" statusDecoder r = .ok s → s.unhealthy? = none →
    ∃ d, documentsOf (.ofText r.yaml) = [d] ∧ ShowsHealth d d.root
  /-- Whatever payload a status is read of carries its stage and its readiness. -/
  carried : ∀ (e : Event) (content : Content) (s : Status), e.data = some content →
    e.read = .ok (.status s) → s.stage = stageOfNumber (latest 0 (stageNumbers content.value)) ∧
      s.readiness.ready = latest false (readyFlags content.value)
  /-- So a payload that is read as healthy says so itself. -/
  carries_health : ∀ (e : Event) (s : Status), e.read = .ok (.status s) → s.unhealthy? = none →
    ∃ content, e.data = some content ∧ (stageNumbers content.value).getLast? = some 4 ∧
      (readyFlags content.value).getLast? = some true

theorem StatusDraft.healthy_iff {draft : StatusDraft} : draft.fill.unhealthy? = none ↔
    (∃ name, draft.stage = some name ∧ Stage.normalize name = "running") ∧
      ∃ r, draft.readiness = some r ∧ r.ready = some true := by
  have hnone : Stage.ofText "" ≠ .running := by decide +kernel
  rw [Status.unhealthy?_eq_none_iff]
  obtain ⟨_ | name, _ | ⟨_ | ready, unmet⟩⟩ := draft <;>
    simp [fill, ReadinessDraft.fill, hnone, Stage.ofText_eq_running_iff]

theorem MachineStatusEvent.healthy_iff {e : MachineStatusEvent} : e.toStatus.unhealthy? = none ↔
    e.stage = 4 ∧ ∃ status, e.status = some status ∧ status.ready = true := by
  rw [Status.unhealthy?_eq_none_iff]
  obtain ⟨stage, _ | status⟩ := e <;> simp [toStatus, stageOfNumber_eq_running_iff]

theorem carries_health_of_read (h : e.read = .ok (.status s)) (hs : s.unhealthy? = none) :
    ∃ content, e.data = some content ∧ (stageNumbers content.value).getLast? = some 4 ∧
      (readyFlags content.value).getLast? = some true := by
  obtain ⟨content, payload, hdata, -, -⟩ := payload_of_read h
  obtain ⟨hstage, hready⟩ := carried_of_read hdata h
  obtain ⟨hrunning, hflag⟩ := s.unhealthy?_eq_none_iff.1 hs
  rw [hrunning] at hstage
  rw [hflag] at hready
  exact ⟨content, hdata, getLast?_of_latest (stageOfNumber_eq_running_iff.1 hstage.symm) (by decide),
    getLast?_of_latest hready.symm (by decide)⟩

theorem statuses_agree : StatusesAgree where
  resource := decode_statusOutput
  event _ h := read_ofReport h
  draft _ _ _ hd hproblem h := decode_of_denotes hd hproblem h
  payload e h := MachineStatusEvent.roundTrips.merge_encode depthLimit e h
  draft_healthy _ := StatusDraft.healthy_iff
  payload_healthy _ := MachineStatusEvent.healthy_iff
  shown _ _ h := shown_of_decode h
  shows_health r s h hs := by
    obtain ⟨d, hd, hshown⟩ := shown_of_decode h
    exact ⟨d, hd, hshown.health hs⟩
  carried _ _ _ hdata h := carried_of_read hdata h
  carries_health _ _ h hs := carries_health_of_read h hs

/-- A status in a node's own spelling, and one with two conditions in both ways. -/
theorem statuses_agree_on_ready_node :
    let r : Resource := { spec := some { yaml := "status:\n  ready: TRUE\nstage: RUN_ning\n" } }
    let s : Status := ⟨.running, ⟨true, [⟨"services", "etcd: waiting"⟩, ⟨"disks", ""⟩]⟩⟩
    (∃ d, documentsOf (.ofText r.yaml) = [d] ∧ ShowsHealth d d.root) ∧
      (Resource.of (statusOutput s)).decode "machine status" statusDecoder = .ok s ∧
      (Event.ofReport (.status s)).read = .ok (.status s) ∧
      ∃ content, (Event.ofReport (.status s)).data = some content ∧
        (stageNumbers content.value).getLast? = some 4 ∧ (readyFlags content.value).getLast? = some true := by
  intro r s
  have hsome : (r.decode "machine status" statusDecoder).toOption = some ⟨.running, ⟨true, []⟩⟩ := by
    decide +kernel
  obtain ⟨read, hread, hhealthy⟩ : ∃ read, r.decode "machine status" statusDecoder = .ok read ∧
      read.unhealthy? = none := by
    cases hdecode : r.decode "machine status" statusDecoder with
    | error problem =>
      rw [hdecode] at hsome
      cases hsome
    | ok read =>
      rw [hdecode] at hsome
      cases hsome
      exact ⟨_, rfl, rfl⟩
  have hevent := statuses_agree.event s (by decide +kernel)
  exact ⟨statuses_agree.shows_health r read hread hhealthy, statuses_agree.resource s, hevent,
    statuses_agree.carries_health (Event.ofReport (.status s)) s hevent rfl⟩

end Wire
end Rollout
