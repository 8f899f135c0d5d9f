import Rollout.CommandLine.Execution

/-!
# What comes before the work of a command

Checking the settings, reading the cluster file, finding the nodes and loading the secrets write nothing, and
where one of them fails the program tells why and ends with code 1.
-/

namespace Rollout

variable {σ α β : Type}

/-! ## How a task ends -/

namespace Task

/-- What comes of a task at a desk, and what it leaves there. -/
def ends (t : Task σ α) (d : Desk σ) : Except Failure α × Desk σ := (t.run d : Id _)

@[simp] theorem ends_pure (a : α) (d : Desk σ) : (pure a : Task σ α).ends d = (.ok a, d) := rfl

@[simp] theorem ends_fail (f : Failure) (d : Desk σ) : (fail f : Task σ α).ends d = (.error f, d) := rfl

@[simp] theorem ends_get (d : Desk σ) : (get : Task σ (Desk σ)).ends d = (.ok d, d) := rfl

@[simp] theorem ends_set (d' d : Desk σ) : (set d' : Task σ PUnit).ends d = (.ok (), d') := rfl

theorem ends_bind (t : Task σ α) (f : α → Task σ β) (d : Desk σ) :
    (t >>= f).ends d = match t.ends d with
      | (.ok a, d) => (f a).ends d
      | (.error e, d) => (.error e, d) := by
  change ExceptT.bindCont f (t.ends d).1 (t.ends d).2 = _
  obtain ⟨result, d'⟩ := t.ends d
  cases result with
  | error e => rfl
  | ok a => rfl

@[simp] theorem ends_during (context : String) (t : Task σ α) (d : Desk σ) :
    (during context t).ends d = ((t.ends d).1.mapError (.during context), (t.ends d).2) := by
  obtain ⟨result, d', h⟩ : ∃ result d', t.ends d = (result, d') := ⟨_, _, rfl⟩
  rw [h]
  simp only [ends, ExceptT.run] at h
  simp only [ends, during, tryCatch, tryCatchThe, MonadExceptOf.tryCatch, ExceptT.tryCatch, ExceptT.run_mk,
    bind, StateT.bind, h]
  cases result with
  | error f => rfl
  | ok a => rfl

@[simp] theorem ends_ofExcept (r : Except Failure α) (d : Desk σ) :
    (ofExcept r : Task σ α).ends d = (r, d) := by
  cases r with
  | error f => rfl
  | ok a => rfl

@[simp] theorem ends_outside (f : σ → σ × Except Failure α) (d : Desk σ) :
    (outside f).ends d = ((f d.outside).2, { d with outside := (f d.outside).1 }) :=
  ends_ofExcept (f d.outside).2 { d with outside := (f d.outside).1 }

end Task

/-! ## Failures that are told -/

/-- The program tells the failure and ends with code 1; it does not end at once. -/
def Failure.Told (f : Failure) : Prop := f.root ≠ .outOfTime

theorem Failure.Told.during {f : Failure} (h : f.Told) (context : String) : (Failure.during context f).Told := h

theorem Conclusion.ofResult_of_told {f : Failure} (h : f.Told) (output : String) :
    ofResult output (.error f) = { code := 1, output, errors := Report.failure f } := by
  unfold ofResult
  dsimp only
  split
  · next houtOfTime => exact absurd houtOfTime h
  · rfl

/-- If the result is a failure, it is told. -/
def FailsTold (r : Except Failure α) : Prop := ∀ f, r = .error f → f.Told

namespace FailsTold

protected theorem ok (a : α) : FailsTold (.ok a) := nofun

protected theorem error {f : Failure} (h : f.Told) : FailsTold (.error f : Except Failure α) := by
  intro f' hf
  cases hf
  exact h

protected theorem bind {r : Except Failure α} {g : α → Except Failure β} (hr : FailsTold r)
    (hg : ∀ a, FailsTold (g a)) : FailsTold (r >>= g) := by
  cases r with
  | error f => exact .error (hr f rfl)
  | ok a => exact hg a

protected theorem during {r : Except Failure α} (h : FailsTold r) (context : String) :
    FailsTold (r.mapError (.during context)) := by
  cases r with
  | error f => exact .error ((h f rfl).during context)
  | ok a => exact .ok a

end FailsTold

theorem told_selectorOf (pattern : Option String) : FailsTold (selectorOf pattern) := by
  unfold selectorOf
  split
  · exact .ok _
  split
  · exact .ok _
  split
  · exact .ok _
  · exact .error nofun

theorem told_resolve (selector : Option Selector) (nodes : List Node) : FailsTold (resolve selector nodes) := by
  unfold resolve
  split
  · exact .error nofun
  · exact .ok _

namespace ClusterFile

theorem told_validateNodes (nodes : List Node) : FailsTold (validateNodes nodes) := by
  induction nodes with
  | nil => exact .ok _
  | cons n rest ih =>
    unfold validateNodes
    split
    · exact .error nofun
    · exact ih

theorem told_validate (file : ClusterFile) : FailsTold file.validate := by
  unfold validate
  split
  · exact .error nofun
  split
  · exact .error nofun
  · exact told_validateNodes _

theorem told_parse (yaml : Bytes) : FailsTold (parse yaml) := by
  unfold parse
  split
  · exact .error nofun
  · next file _ => exact .bind (told_validate file) fun _ => .ok file

theorem told_parseListedNodes (output : Bytes) : FailsTold (parseListedNodes output) := by
  unfold parseListedNodes
  split
  · exact .ok _
  split
  · exact .error nofun
  · next nodes _ => exact .bind (told_validateNodes nodes) fun _ => .ok nodes

theorem told_listedNodes (sys : System σ) (s : σ) (file : ClusterFile) :
    FailsTold (listedNodes sys s file).2 := by
  unfold listedNodes
  split
  · exact .ok _
  split
  · exact .error nofun
  · exact told_parseListedNodes _

theorem told_resolveNodes (sys : System σ) (s : σ) (file : ClusterFile) (selector : Option Selector) :
    FailsTold (file.resolveNodes sys s selector).2 := by
  have hlisted := told_listedNodes sys s file
  unfold resolveNodes
  split
  · next heq => rw [heq] at hlisted; exact .error (hlisted _ rfl)
  · exact told_resolve _ _

end ClusterFile

theorem ConfigDirectory.told_check (sys : System σ) (s : σ) (dir : String) : FailsTold (check sys s dir) := by
  unfold check
  split
  · exact .ok _
  all_goals exact .error nofun

/-! ## Preparing -/

namespace Task

/-- The task writes nothing, and if it fails, the failure is told. -/
structure Prepares (t : Task σ α) : Prop where
  silent : ∀ d, (t.ends d).2.output = d.output
  told : ∀ d, FailsTold (t.ends d).1

namespace Prepares

variable {t : Task σ α}

protected theorem pure (a : α) : Prepares (pure a : Task σ α) := ⟨fun _ => rfl, fun _ => .ok a⟩

protected theorem fail {f : Failure} (h : f.Told) : Prepares (fail f : Task σ α) :=
  ⟨fun _ => rfl, fun _ => .error h⟩

protected theorem bind {f : α → Task σ β} (ht : t.Prepares) (hf : ∀ a, (f a).Prepares) :
    (t >>= f).Prepares := by
  refine ⟨fun d => ?_, fun d => ?_⟩
  · have hsilent := ht.silent d
    rw [ends_bind]
    split
    · next a d' hends => rw [hends] at hsilent; exact ((hf a).silent d').trans hsilent
    · next e d' hends => rw [hends] at hsilent; exact hsilent
  · have htold := ht.told d
    rw [ends_bind]
    split
    · next a d' hends => exact (hf a).told d'
    · next e d' hends => rw [hends] at htold; exact .error (htold e rfl)

protected theorem during (ht : t.Prepares) (context : String) : (during context t).Prepares := by
  refine ⟨fun d => ?_, fun d => ?_⟩
  · rw [ends_during]
    exact ht.silent d
  · rw [ends_during]
    exact (ht.told d).during context

protected theorem ofExcept {r : Except Failure α} (h : FailsTold r) : Prepares (ofExcept r : Task σ α) := by
  refine ⟨fun d => ?_, fun d => ?_⟩
  · rw [ends_ofExcept]
  · rw [ends_ofExcept]
    exact h

protected theorem outside {f : σ → σ × Except Failure α} (h : ∀ s, FailsTold (f s).2) :
    (outside f).Prepares := by
  refine ⟨fun d => ?_, fun d => ?_⟩
  · rw [ends_outside]
  · rw [ends_outside]
    exact h d.outside

end Prepares

theorem assignment_prepares (site : Site σ) (s : Settings) : (assignment site s).Prepares := by
  refine .bind (.outside fun o => ConfigDirectory.told_check site.system o s.configDir) fun _ => ?_
  refine .bind (.during (.outside fun o => ?_) _) fun content => ?_
  · dsimp only
    split
    · exact .error nofun
    split
    · exact .ok _
    · exact .error nofun
  refine .bind (.during (.ofExcept (ClusterFile.told_parse content)) _) fun file => ?_
  refine .bind (.ofExcept (told_selectorOf s.nodes)) fun selector => ?_
  exact .bind (.outside fun o => ClusterFile.told_resolveNodes site.system o file selector) fun _ => .pure _

theorem ends_secrets (site : Site σ) (a : Assignment) (d : Desk σ) :
    (secrets site a).ends d =
      ((d.secrets site (store site a)).2.mapError fun e => .during "Failed to load secrets bundle" (.run e),
        (d.secrets site (store site a)).1) := by
  obtain ⟨result, d', h⟩ : ∃ result d', d.secrets site (store site a) = (d', result) := ⟨_, _, rfl⟩
  rw [h]
  simp only [secrets, ends_during, ends_bind, ends_get, ends_set, h]
  cases result with
  | error e => rfl
  | ok b => rfl

theorem secrets_prepares (site : Site σ) (a : Assignment) : (secrets site a).Prepares := by
  refine ⟨fun d => ?_, fun d => ?_⟩
  · rw [ends_secrets]
    rfl
  · rw [ends_secrets]
    cases (d.secrets site (store site a)).2 with
    | error e => exact .error nofun
    | ok b => exact .ok b

end Task
end Rollout
