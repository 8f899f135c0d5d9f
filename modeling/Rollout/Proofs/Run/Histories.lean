import Mathlib.Data.List.Forall2
import Mathlib.Data.List.Nodup
import Rollout.Proofs.Run.Gathering
import Rollout.Proofs.Run.Leaving

/-!
# The history of each node

While nodes are observed their calls and answers are interleaved in the journal. `Observing` is the
history of one node: all it was asked and answered, and what is known of it then. Taken together the
histories are what gathering leaves in the journal, so a record can be held against the answers of its
node.
-/

namespace Rollout

variable {σ : Type}

/-- What observing a node has left in the journal, and how far it has come. -/
inductive Observing (node : Node) : List Entry → Observation.Advance → Prop
  | begun : Observing node [] ({ node }, some .connect)
  | told {es o step t t' number result} (h : Observing node es (o, some step)) :
      Observing node (es ++ exchange (step.call o.node) t t' result) (o.advance number step result)

/-- A call tells which step it is. -/
theorem Observation.Step.remaining_eq_of_call_eq {node : Node} {s s' : Observation.Step}
    (h : s.call node = s'.call node) : s.remaining = s'.remaining := by
  cases s <;> cases s' <;> first | rfl | cases h

namespace Observing

variable {node : Node} {es : List Entry} {a : Observation.Advance} {o : Observation}
  {step : Observation.Step}

theorem node_eq (h : Observing node es a) : a.1.node = node := by
  induction h with
  | begun => rfl
  | @told es o step t t' number result _ ih => exact (o.node_advance number step result).trans ih

/-- Before the last step nothing has failed and nothing is rendered, and the next call is to the node. -/
theorem pending (h : Observing node es (o, some step)) :
    o.config = none ∧ o.failure = none ∧ (step.call o.node).node? = some node := by
  generalize ha : (o, some step) = a at h
  induction h generalizing o step with
  | begun =>
    cases ha
    exact ⟨rfl, rfl, rfl⟩
  | @told es o' step' t t' number result h ih =>
    obtain ⟨hconfig, hfailure, hnode⟩ := ih rfl
    have hsame : o'.node = node := h.node_eq
    cases step' <;> cases result <;> simp only [Observation.advance, Observation.failed] at ha <;>
      cases ha
    · exact ⟨hconfig, hfailure, congrArg some hsame⟩
    · exact ⟨hconfig, hfailure, hnode⟩
    · exact ⟨hconfig, hfailure, hnode⟩
    · exact ⟨hconfig, hfailure, congrArg some hsame⟩

theorem node?_of_mem (h : Observing node es a) : ∀ e ∈ es, e.call.node? = some node := by
  induction h with
  | begun => simp
  | @told es o step t t' number result h ih =>
    intro e he
    rcases List.mem_append.1 he with he | he
    · exact ih e he
    · rw [call_of_mem_exchange he]
      exact h.pending.2.2

theorem config_eq_some_iff (h : Observing node es a) {data : Bytes} :
    a.1.config = some data ↔ ∃ t, .answered t (.render node) (.ok data) ∈ es := by
  induction h with
  | begun => simp
  | @told es o step t t' number result h ih =>
    have hnode : o.node = node := h.node_eq
    subst hnode
    have hnone : ¬ ∃ t, .answered t (.render o.node) (.ok data) ∈ es := by
      rw [← ih, h.pending.1]
      simp
    cases step <;> cases result <;>
      simp [Observation.advance, Observation.failed, h.pending.1, hnone, exists_or,
        Observation.Step.call]
    exact eq_comm

theorem remaining_lt (h : Observing node es (o, some step)) {e : Entry} (he : e ∈ es)
    {s : Observation.Step} (hs : e.call = s.call node) : step.remaining < s.remaining := by
  generalize ha : (o, some step) = a at h
  induction h generalizing o step with
  | begun => simp at he
  | @told es o' step' t t' number result h ih =>
    have hnext : step.remaining + 1 = step'.remaining :=
      o'.remaining_advance number step' result step (congrArg Prod.snd ha.symm)
    have hnode : o'.node = node := h.node_eq
    rcases List.mem_append.1 he with he | he
    · have hlt := ih he rfl
      omega
    · have hcall : step'.call node = s.call node := by rw [← hs, call_of_mem_exchange he, hnode]
      have hsame := Observation.Step.remaining_eq_of_call_eq hcall
      omega

theorem schematic_eq (h : Observing node es a) {t : Instant} {client : Client}
    {extensions : List Extension}
    (hmem : .answered t (.request client .extensions) (.ok extensions) ∈ es) :
    a.1.schematic = Observation.schematicOf extensions := by
  induction h with
  | begun => simp at hmem
  | @told es o step t₀ t' number result h ih =>
    rcases List.mem_append.1 hmem with hold | hnew
    · have hlt : step.remaining < (Observation.Step.extensions client).remaining :=
        h.remaining_lt hold rfl
      have hkept : (o.advance number step result).1.schematic = o.schematic := by
        cases step <;> cases result <;> first | rfl | simp [Observation.Step.remaining] at hlt
      rw [hkept, ih hold]
    · cases step <;> cases result <;> simp [Observation.Step.call] at hnew
      obtain ⟨-, -, rfl⟩ := hnew
      rfl

theorem osVersion_eq (h : Observing node es a) {t : Instant} {client : Client} {version : String}
    (hmem : .answered t (.request client .osVersion) (.ok version) ∈ es) :
    a.1.osVersion = version := by
  induction h with
  | begun => simp at hmem
  | @told es o step t₀ t' number result h ih =>
    rcases List.mem_append.1 hmem with hold | hnew
    · have hlt : step.remaining < (Observation.Step.osVersion client).remaining :=
        h.remaining_lt hold rfl
      have hkept : (o.advance number step result).1.osVersion = o.osVersion := by
        cases step <;> cases result <;> first | rfl | simp [Observation.Step.remaining] at hlt
      rw [hkept, ih hold]
    · cases step <;> cases result <;> simp [Observation.Step.call] at hnew
      obtain ⟨-, -, rfl⟩ := hnew
      rfl

end Observing

def Replied (es : List Entry) (node : Node) (q : Request) (reply : q.Reply) : Prop :=
  ∃ t client, client.node = node ∧ .answered t (.request client q) (.ok reply) ∈ es

theorem Replied.mono {es es' : List Entry} {node : Node} {q : Request} {reply : q.Reply}
    (h : Replied es node q reply) (hes : ∀ e ∈ es, e ∈ es') : Replied es' node q reply := by
  obtain ⟨t, client, hclient, hmem⟩ := h
  exact ⟨t, client, hclient, hes _ hmem⟩

namespace Observation

/-- The record says what the node has replied about its status; its extensions; its version. -/
def StatusRead (o : Observation) (es : List Entry) : Prop :=
  ∃ status, Replied es o.node .status status ∧ o.stage = status.stage ∧ o.readiness = status.readiness

def SchematicRead (o : Observation) (es : List Entry) : Prop :=
  ∃ extensions, Replied es o.node .extensions extensions ∧ o.schematic = schematicOf extensions

def VersionRead (o : Observation) (es : List Entry) : Prop := Replied es o.node .osVersion o.osVersion

/-- What has been read before a step, or in the end. -/
def ReadBefore (o : Observation) (es : List Entry) : Option Step → Prop
  | some .connect | some (.status _) => True
  | some (.extensions _) => o.StatusRead es
  | some (.osVersion _) => o.StatusRead es ∧ o.SchematicRead es
  | some .render | none => o.StatusRead es ∧ o.SchematicRead es ∧ o.VersionRead es

end Observation

/-- As long as nothing fails, a record says what its node has replied. -/
theorem Observing.readBefore {node : Node} {es : List Entry} {a : Observation.Advance}
    (h : Observing node es a) (hok : a.1.failure = none) : a.1.ReadBefore es a.2 := by
  induction h with
  | begun => trivial
  | @told es o step t t' number result h ih =>
    obtain ⟨-, hfailure, hnode⟩ := h.pending
    have hread : o.ReadBefore es (some step) := ih hfailure
    have hkept : ∀ e ∈ es, e ∈ es ++ exchange (step.call o.node) t t' result :=
      fun e => List.mem_append_left _
    have hclient {client : Client} (hcall : (Call.request client .status).node? = some node) :
        client.node = o.node := (Option.some.inj hcall).trans h.node_eq.symm
    cases step with
    | connect =>
      cases result with
      | error => cases hok
      | ok => trivial
    | status client =>
      cases result with
      | error => cases hok
      | ok status => exact ⟨status, ⟨t', client, hclient hnode, by simp⟩, rfl, rfl⟩
    | extensions client =>
      cases result with
      | error => cases hok
      | ok extensions =>
        obtain ⟨status, hstatus, hsame⟩ := hread
        exact ⟨⟨status, hstatus.mono hkept, hsame⟩, extensions,
          ⟨t', client, hclient hnode, by simp⟩, rfl⟩
    | osVersion client =>
      cases result with
      | error => cases hok
      | ok version =>
        obtain ⟨⟨status, hstatus, hsame⟩, extensions, hextensions, hschematic⟩ := hread
        exact ⟨⟨status, hstatus.mono hkept, hsame⟩, ⟨extensions, hextensions.mono hkept, hschematic⟩,
          t', client, hclient hnode, by simp [Observation.advance]⟩
    | render =>
      cases result with
      | error => cases hok
      | ok config =>
        obtain ⟨⟨status, hstatus, hsame⟩, ⟨extensions, hextensions, hschematic⟩, hversion⟩ := hread
        exact ⟨⟨status, hstatus.mono hkept, hsame⟩, ⟨extensions, hextensions.mono hkept, hschematic⟩,
          hversion.mono hkept⟩

/-- The journal `log` is made up of the histories, each in its own order. -/
structure Interleaves (histories : List (List Entry)) (log : List Entry) : Prop where
  perm : log.Perm histories.flatten
  sublist : ∀ es ∈ histories, es.Sublist log

namespace Interleaves

variable {before after : List (List Entry)} {es log : List Entry}

theorem push (x : Entry) (h : Interleaves (before ++ es :: after) log) :
    Interleaves (before ++ (es ++ [x]) :: after) (log ++ [x]) := by
  constructor
  · calc
      (log ++ [x]).Perm ((before ++ es :: after).flatten ++ [x]) := h.perm.append_right [x]
      _ = before.flatten ++ (es ++ (after.flatten ++ [x])) := by simp
      _ |>.Perm (before.flatten ++ (es ++ ([x] ++ after.flatten))) :=
        (List.perm_append_comm.append_left es).append_left before.flatten
      _ = (before ++ (es ++ [x]) :: after).flatten := by simp
  · intro es' hes'
    have hlog : log.Sublist (log ++ [x]) := List.sublist_append_left log [x]
    rcases List.mem_append.1 hes' with hes' | hes'
    · exact (h.sublist es' (by simp [hes'])).trans hlog
    · rcases List.mem_cons.1 hes' with rfl | hes'
      · exact (h.sublist es (by simp)).append_right [x]
      · exact (h.sublist es' (by simp [hes'])).trans hlog

theorem begin (h : Interleaves before log) : Interleaves (before ++ [[]]) log := by
  constructor
  · simpa using h.perm
  · intro es hes
    rcases List.mem_append.1 hes with hes | hes
    · exact h.sublist es hes
    · obtain rfl := List.mem_singleton.1 hes
      exact List.nil_sublist log

theorem mem_iff (h : Interleaves before log) {e : Entry} : e ∈ log ↔ ∃ es ∈ before, e ∈ es := by
  rw [h.perm.mem_iff, List.mem_flatten]

end Interleaves

theorem forall₂_append_cons {α β : Type} {R : α → β → Prop} {xs ys : List α} {x : α} {zs : List β}
    (h : List.Forall₂ R (xs ++ x :: ys) zs) :
    ∃ front z back, zs = front ++ z :: back ∧ List.Forall₂ R xs front ∧ R x z ∧
      List.Forall₂ R ys back := by
  induction xs generalizing zs with
  | nil =>
    obtain ⟨z, back, hz, hback, rfl⟩ := List.forall₂_cons_left_iff.1 h
    exact ⟨[], z, back, rfl, .nil, hz, hback⟩
  | cons x' xs ih =>
    obtain ⟨z', zs, hz', hrest, rfl⟩ := List.forall₂_cons_left_iff.1 h
    obtain ⟨front, z, back, rfl, hfront, hz, hback⟩ := ih hrest
    exact ⟨z' :: front, z, back, rfl, .cons hz' hfront, hz, hback⟩

/-- What a place has left in the journal. -/
def Place.Tells : Place σ → List Entry → Prop
  | ready record step _, es => Observing record.node es (record, some step)
  | waiting record step _ _, es =>
    ∃ es' t, es = es' ++ [.sent t (step.call record.node)] ∧
      Observing record.node es' (record, some step)
  | observed record, es => Observing record.node es (record, none)

namespace Gathering

theorem tells_settle {now : Instant} {node : Node} {es : List Entry} {a : Observation.Advance}
    (h : Observing node es a) : (settle (σ := σ) now a).Tells es := by
  obtain ⟨record, step⟩ := a
  have hnode : record.node = node := h.node_eq
  subst hnode
  cases step <;> exact h

/-- A place that goes on adds one entry to the journal and to its history. -/
theorem tells_go (env : Environment σ) {now : Instant} (w : World σ) {p : Place σ} {es : List Entry}
    (hdue : p.due? = some now) (h : p.Tells es) :
    ∃ x, (go env now w p).1.journal = w.journal.push x ∧ (go env now w p).2.Tells (es ++ [x]) := by
  cases p with
  | ready record step since =>
    exact ⟨.sent now (step.call record.node), rfl, es, now, rfl, h⟩
  | waiting record step wake finish =>
    obtain ⟨es, t, rfl, h⟩ := h
    refine ⟨.answered now (step.call record.node) (finish w.state).2, rfl, ?_⟩
    rw [List.append_assoc]
    exact tells_settle (h.told (t := t))
  | observed record => cases hdue

theorem goFirst_eq (env : Environment σ) {now : Instant} (w : World σ) {places : List (Place σ)}
    (hdue : ∃ p ∈ places, p.due? = some now) :
    ∃ done p rest, places = done ++ p :: rest ∧ p.due? = some now ∧
      goFirst env now w places = ((go env now w p).1, done ++ (go env now w p).2 :: rest) := by
  induction places with
  | nil => simp at hdue
  | cons q rest ih =>
    unfold goFirst
    by_cases hq : q.due? = some now
    · exact ⟨[], q, rest, rfl, hq, by simp [hq]⟩
    · obtain ⟨p, hp, hnow⟩ := hdue
      rcases List.mem_cons.1 hp with rfl | hp
      · exact absurd hnow hq
      obtain ⟨done, p', rest', rfl, hp', hgo⟩ := ih ⟨p, hp, hnow⟩
      exact ⟨q :: done, p', rest', rfl, hp', by simp [hq, hgo]⟩

/-- The places of all nodes that have begun, those given back included. -/
def begun (g : Gathering σ) : List (Place σ) := g.records.toList.map .observed ++ g.places

/-- The journal since `w` is made up of the histories of the places. -/
def Told (g : Gathering σ) (w : World σ) : Prop :=
  ∃ log histories, w.Gains g.world log ∧ List.Forall₂ Place.Tells g.begun histories ∧
    Interleaves histories log

theorem Told.next? {env : Environment σ} {w : World σ} {g g' : Gathering σ} (hg : g.Told w)
    (h : g.next? env = some g') : g'.Told w := by
  obtain ⟨log, histories, hlog, htells, hinter⟩ := hg
  unfold Gathering.next? at h
  rcases Option.or_eq_some_iff.1 h with h | ⟨-, h⟩
  · rcases Option.or_eq_some_iff.1 h with h | ⟨-, h⟩
    · unfold release? at h
      split at h
      · next record places hplaces =>
        cases h
        refine ⟨log, histories, hlog, ?_, hinter⟩
        simpa [begun, hplaces] using htells
      · cases h
    · unfold start? at h
      split at h
      · next node unstarted hunstarted =>
        split at h
        · cases h
          refine ⟨log, histories ++ [[]], hlog, ?_, hinter.begin⟩
          have hlast : List.Forall₂ Place.Tells
              [(.ready { node } .connect g.world.now : Place σ)] [[]] := .cons .begun .nil
          simpa [begun] using List.rel_append htells hlast
        · cases h
      · cases h
  · obtain ⟨now, hnext, rfl⟩ := Option.map_eq_some_iff.1 h
    obtain ⟨done, p, rest, hplaces, hdue, hgo⟩ :=
      goFirst_eq env g.world (exists_due hnext)
    have hbegun : g.begun = (g.records.toList.map .observed ++ done) ++ p :: rest := by
      simp [begun, hplaces]
    rw [hbegun] at htells
    obtain ⟨front, es, back, rfl, hfront, hp, hback⟩ := forall₂_append_cons htells
    obtain ⟨x, hx, hp'⟩ := tells_go env g.world hdue hp
    refine ⟨log ++ [x], front ++ (es ++ [x]) :: back, ?_, ?_, hinter.push x⟩
    · unfold World.Gains at hlog ⊢
      simp only [hgo, hx, Array.toList_push, hlog, List.append_assoc]
    · simp only [begun, hgo, ← List.append_assoc]
      exact List.rel_append hfront (.cons hp' hback)

theorem Told.run (env : Environment σ) {w : World σ} {g : Gathering σ} (hg : g.Told w) :
    (g.run env).Told w := by
  induction g using Gathering.run.induct env with
  | case1 g h => rwa [Gathering.run, h]
  | case2 g g' h ih =>
    rw [Gathering.run, h]
    exact ih (hg.next? h)

end Gathering

/-- The records tell what `log` shows of each node, and `log` shows nothing else. -/
def Attests (log : List Entry) (records : List Observation) : Prop :=
  ∃ histories, List.Forall₂ (fun o es => Observing o.node es (o, none)) records histories ∧
    Interleaves histories log

namespace Attests

variable {log : List Entry} {records : List Observation} {o : Observation}

theorem exists_history (h : Attests log records) (ho : o ∈ records) :
    ∃ es, es.Sublist log ∧ Observing o.node es (o, none) := by
  obtain ⟨histories, htold, hinter⟩ := h
  obtain ⟨before, after, rfl⟩ := List.append_of_mem ho
  obtain ⟨front, es, back, rfl, -, hes, -⟩ := forall₂_append_cons htold
  exact ⟨es, hinter.sublist es (by simp), hes⟩

theorem exists_record (h : Attests log records) {e : Entry} (he : e ∈ log) :
    ∃ o ∈ records, ∃ es, Observing o.node es (o, none) ∧ e ∈ es := by
  obtain ⟨histories, htold, hinter⟩ := h
  obtain ⟨es, hes, hmem⟩ := hinter.mem_iff.1 he
  obtain ⟨before, after, rfl⟩ := List.append_of_mem hes
  obtain ⟨front, o, back, rfl, -, ho, -⟩ := forall₂_append_cons htold.flip
  exact ⟨o, by simp, es, ho, hmem⟩

/-- With one record for each host, what a node was asked is in the history of its record. -/
theorem exists_history_of_mem (h : Attests log records) (hhosts : (records.map (·.host)).Nodup)
    (ho : o ∈ records) {e : Entry} (he : e ∈ log) (hnode : e.call.node? = some o.node) :
    ∃ es, Observing o.node es (o, none) ∧ e ∈ es := by
  obtain ⟨o', ho', es, hes, hmem⟩ := h.exists_record he
  have hsame : o.node = o'.node := Option.some.inj (hnode.symm.trans (hes.node?_of_mem _ hmem))
  obtain rfl : o = o' := List.inj_on_of_nodup_map hhosts ho ho' (congrArg Node.host hsame)
  exact ⟨es, hes, hmem⟩

theorem config_eq_some_iff (h : Attests log records) (hhosts : (records.map (·.host)).Nodup)
    (ho : o ∈ records) {data : Bytes} :
    o.config = some data ↔ ∃ t, .answered t (.render o.node) (.ok data) ∈ log := by
  constructor
  · intro hconfig
    obtain ⟨es, hsublist, hes⟩ := h.exists_history ho
    obtain ⟨t, ht⟩ := hes.config_eq_some_iff.1 hconfig
    exact ⟨t, hsublist.subset ht⟩
  · rintro ⟨t, ht⟩
    obtain ⟨es, hes, hmem⟩ := h.exists_history_of_mem hhosts ho ht rfl
    exact hes.config_eq_some_iff.2 ⟨t, hmem⟩

theorem schematic_eq (h : Attests log records) (hhosts : (records.map (·.host)).Nodup)
    (ho : o ∈ records) {extensions : List Extension} (hreplied : Replied log o.node .extensions extensions) :
    o.schematic = Observation.schematicOf extensions := by
  obtain ⟨t, client, hclient, hmem⟩ := hreplied
  obtain ⟨es, hes, hmem⟩ := h.exists_history_of_mem hhosts ho hmem (congrArg some hclient)
  exact hes.schematic_eq hmem

theorem osVersion_eq (h : Attests log records) (hhosts : (records.map (·.host)).Nodup)
    (ho : o ∈ records) {version : String} (hreplied : Replied log o.node .osVersion version) :
    o.osVersion = version := by
  obtain ⟨t, client, hclient, hmem⟩ := hreplied
  obtain ⟨es, hes, hmem⟩ := h.exists_history_of_mem hhosts ho hmem (congrArg some hclient)
  exact hes.osVersion_eq hmem

/-- The record of a node that was observed without a failure says what the node has replied. -/
theorem read (h : Attests log records) (ho : o ∈ records) (hok : o.failure = none) :
    o.StatusRead log ∧ o.SchematicRead log ∧ o.VersionRead log := by
  obtain ⟨es, hsublist, hes⟩ := h.exists_history ho
  obtain ⟨⟨status, hstatus, hsame⟩, ⟨extensions, hextensions, hschematic⟩, hversion⟩ :
      o.StatusRead es ∧ o.SchematicRead es ∧ o.VersionRead es := hes.readBefore hok
  have hlog : ∀ e ∈ es, e ∈ log := fun _ => hsublist.mem
  exact ⟨⟨status, hstatus.mono hlog, hsame⟩, ⟨extensions, hextensions.mono hlog, hschematic⟩,
    hversion.mono hlog⟩

end Attests

namespace Work

/-- What gathering adds to the journal attests the records it gives. -/
theorem attests_of_ends_gather {S : Setting σ} {w w' : World σ} {records : List Observation}
    (h : gather.Ends S w (.ok records) w') : ∃ log, w.Gains w' log ∧ Attests log records := by
  obtain ⟨hr, rfl⟩ := h.unique result?_gather
  split at hr
  · next hplaces =>
    cases hr
    have hbegin : (⟨w, [], S.nodes, #[]⟩ : Gathering σ).Told w :=
      ⟨[], [], .refl w, .nil, ⟨.nil, by simp⟩⟩
    obtain ⟨log, histories, hlog, htells, hinter⟩ := hbegin.run S.environment
    refine ⟨log, hlog, histories, ?_, hinter⟩
    have hempty : (gathered S w).places = [] := List.isEmpty_iff.1 hplaces
    change List.Forall₂ Place.Tells (gathered S w).begun histories at htells
    rw [Gathering.begun, hempty, List.append_nil, List.forall₂_map_left_iff] at htells
    exact htells
  · cases hr

end Work
end Rollout
