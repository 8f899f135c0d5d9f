import Mathlib.Data.List.TakeWhile
import Rollout.Inventory.Resolution
import Rollout.Proofs.Inventory.VisitingOrder
import Rollout.Run.Work

/-!
# Node resolution

Which nodes a command is about. `Repeats` says which host is named when nodes cannot be told apart, and
`Resolved` what is given otherwise: the selected nodes as they are declared, in visiting order. Both look
at the declared nodes alone, wherever each of them is declared, and there is one such list at most.
-/

namespace Rollout

variable {σ : Type}

/-- `host` is the first host that stands a second time. -/
inductive Repeats (host : String) : List Node → Prop
  | intro {before n after} (hhost : n.host = host) (hagain : host ∈ before.map (·.host))
      (hfirst : (before.map (·.host)).Nodup) : Repeats host (before ++ n :: after)

section

variable {seen : List String} {nodes : List Node} {host : String}

theorem repeatedHost?_eq_none_iff :
    repeatedHost? seen nodes = none ↔
      (∀ n ∈ nodes, n.host ∉ seen) ∧ (nodes.map (·.host)).Nodup := by
  induction nodes generalizing seen with
  | nil => simp [repeatedHost?]
  | cons n rest ih =>
    unfold repeatedHost?
    by_cases hseen : n.host ∈ seen
    · simp [hseen]
    · simp only [List.contains_eq_mem, hseen, decide_false, Bool.false_eq_true, if_false, ih,
        List.map_cons, List.nodup_cons, List.mem_cons, not_or, List.mem_map]
      grind

theorem repeatedHost?_eq_some_iff :
    repeatedHost? seen nodes = some host ↔
      ∃ before n after, nodes = before ++ n :: after ∧ n.host = host ∧
        (host ∈ seen ∨ host ∈ before.map (·.host)) ∧ (∀ m ∈ before, m.host ∉ seen) ∧
          (before.map (·.host)).Nodup := by
  induction nodes generalizing seen with
  | nil => simp [repeatedHost?]
  | cons n rest ih =>
    unfold repeatedHost?
    by_cases hseen : n.host ∈ seen
    · simp only [List.contains_eq_mem, hseen, decide_true, if_true, Option.some.injEq]
      constructor
      · rintro rfl
        exact ⟨[], n, rest, rfl, rfl, .inl hseen, by simp, by simp⟩
      · rintro ⟨before, m, after, hsplit, rfl, -, hbefore, -⟩
        cases before with
        | nil => exact congrArg Node.host (List.cons.inj hsplit).1
        | cons first before =>
          obtain ⟨rfl, -⟩ := List.cons.inj hsplit
          exact absurd hseen (hbefore n (by simp))
    · simp only [List.contains_eq_mem, hseen, decide_false, Bool.false_eq_true, if_false, ih]
      constructor
      · rintro ⟨before, m, after, rfl, rfl, hagain, hbefore, hfirst⟩
        refine ⟨n :: before, m, after, rfl, rfl, ?_, ?_, ?_⟩
        · grind
        · grind
        · grind
      · rintro ⟨before, m, after, hsplit, rfl, hagain, hbefore, hfirst⟩
        cases before with
        | nil =>
          obtain ⟨rfl, -⟩ := List.cons.inj hsplit
          simp [hseen] at hagain
        | cons first before =>
          obtain ⟨rfl, rfl⟩ := List.cons.inj hsplit
          refine ⟨before, m, after, rfl, rfl, ?_, ?_, ?_⟩
          · grind
          · grind
          · grind

theorem repeatedHost?_eq_some_iff_repeats :
    repeatedHost? [] nodes = some host ↔ Repeats host nodes := by
  rw [repeatedHost?_eq_some_iff]
  constructor
  · rintro ⟨before, n, after, rfl, hhost, hagain, -, hfirst⟩
    exact .intro hhost (by simpa using hagain) hfirst
  · rintro ⟨hhost, hagain, hfirst⟩
    exact ⟨_, _, _, rfl, hhost, .inr hagain, by simp, hfirst⟩

theorem repeatedHost?_eq_none_iff_nodup :
    repeatedHost? [] nodes = none ↔ (nodes.map (·.host)).Nodup := by
  simp [repeatedHost?_eq_none_iff]

theorem exists_repeats_iff : (∃ host, Repeats host nodes) ↔ ¬ (nodes.map (·.host)).Nodup := by
  rw [← repeatedHost?_eq_none_iff_nodup]
  simp only [← repeatedHost?_eq_some_iff_repeats]
  exact Option.ne_none_iff_exists'.symm

end

/-! ## What is declared -/

theorem validate_of_validateNodes {nodes : List Node}
    (h : ClusterFile.validateNodes nodes = .ok ()) : ∀ n ∈ nodes, n.validate = .ok () := by
  induction nodes with
  | nil => simp
  | cons n rest ih =>
    unfold ClusterFile.validateNodes at h
    split at h
    · cases h
    · next hn => exact List.forall_mem_cons.2 ⟨hn, ih h⟩

theorem ClusterFile.validate_of_parse {yaml : Bytes} {f : ClusterFile}
    (h : ClusterFile.parse yaml = .ok f) : ∀ n ∈ f.nodes, n.validate = .ok () := by
  unfold ClusterFile.parse at h
  split at h
  · cases h
  next file _ =>
  cases hvalid : file.validate with
  | error e =>
    rw [hvalid] at h
    cases h
  | ok =>
    rw [hvalid] at h
    cases h
    refine validate_of_validateNodes ?_
    unfold ClusterFile.validate at hvalid
    split at hvalid
    · cases hvalid
    split at hvalid
    · cases hvalid
    · exact hvalid

theorem validate_of_parseListedNodes {output : Bytes} {nodes : List Node}
    (h : parseListedNodes output = .ok nodes) : ∀ n ∈ nodes, n.validate = .ok () := by
  unfold parseListedNodes at h
  split at h
  · cases h
    simp
  split at h
  · cases h
  next listed _ =>
  cases hvalid : ClusterFile.validateNodes listed with
  | error e =>
    rw [hvalid] at h
    cases h
  | ok =>
    rw [hvalid] at h
    cases h
    exact validate_of_validateNodes hvalid

theorem ClusterFile.validate_of_listedNodes {sys : System σ} {s s' : σ} {f : ClusterFile}
    {listed : List Node} (h : f.listedNodes sys s = (s', .ok listed)) :
    ∀ n ∈ listed, n.validate = .ok () := by
  unfold ClusterFile.listedNodes at h
  split at h
  · cases h
    simp
  split at h
  · cases h
  · exact validate_of_parseListedNodes (Prod.mk.inj h).2

/-- A file that could be read, with the nodes that its helper program lists, declares these nodes. -/
inductive Declares (sys : System σ) (s : σ) (f : ClusterFile) : List Node → Prop
  | intro {yaml s' listed} (hfile : ClusterFile.parse yaml = .ok f)
      (hlisted : f.listedNodes sys s = (s', .ok listed)) : Declares sys s f (f.nodes ++ listed)

def Node.Named (n : Node) : Prop := ∃ c ∈ n.host.toList, Text.isBlank c = false

theorem Node.named_of_validate {n : Node} (h : n.validate = .ok ()) : n.Named := by
  by_contra hblank
  have hall : ∀ c ∈ n.host.toList, Text.isBlank c = true := fun c hc =>
    (Bool.not_eq_false _).mp fun hfalse => hblank ⟨c, hc, hfalse⟩
  have hdrop : n.host.toList.dropWhile Text.isBlank = [] := List.dropWhile_eq_nil_iff.2 hall
  unfold validate at h
  simp [Text.trim, Text.trimChars, hdrop] at h

theorem Declares.named {sys : System σ} {s : σ} {f : ClusterFile} {declared : List Node}
    (h : Declares sys s f declared) : ∀ n ∈ declared, n.Named := by
  obtain ⟨hfile, hlisted⟩ := h
  intro n hn
  refine n.named_of_validate ?_
  rcases List.mem_append.1 hn with hn | hn
  · exact ClusterFile.validate_of_parse hfile n hn
  · exact ClusterFile.validate_of_listedNodes hlisted n hn

theorem Declares.resolveNodes_eq {sys : System σ} {s : σ} {f : ClusterFile} {declared : List Node}
    (h : Declares sys s f declared) (selector : Option Selector) :
    (f.resolveNodes sys s selector).2 = resolve selector declared := by
  obtain ⟨-, hlisted⟩ := h
  unfold ClusterFile.resolveNodes
  rw [hlisted]

/-! ## What is resolved -/

def selected (selector : Option Selector) (n : Node) : Bool := selector.elim true (· n.host)

structure Resolved (selector : Option Selector) (declared nodes : List Node) : Prop where
  /-- The selected nodes as they are declared, each once. -/
  perm : nodes.Perm (declared.filter (selected selector))
  in_order : nodes.Pairwise Node.Before
  distinct : (nodes.map (·.host)).Nodup
  named : ∀ n ∈ nodes, n.Named

theorem Resolved.unique {selector : Option Selector} {declared declared' nodes nodes' : List Node}
    (h : Resolved selector declared nodes) (h' : Resolved selector declared' nodes')
    (hperm : declared.Perm declared') : nodes = nodes' :=
  Node.eq_of_perm_of_before h.in_order h'.in_order
    (h.perm.trans ((hperm.filter _).trans h'.perm.symm))

theorem resolve_eq_error_iff {selector : Option Selector} {declared : List Node} {e : Failure} :
    resolve selector declared = .error e ↔
      ∃ host, Repeats host declared ∧ e = .message s!"node {host} is declared more than once" := by
  unfold resolve
  simp only [← repeatedHost?_eq_some_iff_repeats]
  cases repeatedHost? [] declared with
  | none => simp
  | some host => simp [eq_comm]

theorem resolved_of_nodup (selector : Option Selector) {declared : List Node}
    (hnamed : ∀ n ∈ declared, n.Named) (hnodup : (declared.map (·.host)).Nodup) :
    ∃ nodes, resolve selector declared = .ok nodes ∧ Resolved selector declared nodes := by
  have hresolve : resolve selector declared = .ok (Node.inOrder (declared.filter (selected selector))) := by
    unfold resolve
    rw [repeatedHost?_eq_none_iff_nodup.2 hnodup]
    cases selector with
    | none =>
      have hall : declared.filter (selected none) = declared := List.filter_eq_self.2 fun _ _ => rfl
      rw [hall]
    | some selects => rfl
  have hdistinct : ((declared.filter (selected selector)).map (·.host)).Nodup :=
    hnodup.sublist (List.filter_sublist.map _)
  have hperm := Node.perm_inOrder (declared.filter (selected selector))
  exact ⟨Node.inOrder (declared.filter (selected selector)), hresolve, hperm,
    Node.pairwise_before_inOrder hdistinct, (hperm.map _).nodup_iff.2 hdistinct,
    fun n hn => hnamed n (List.mem_of_mem_filter (hperm.mem_iff.1 hn))⟩

theorem resolve_eq_ok_iff {selector : Option Selector} {declared nodes : List Node}
    (hnamed : ∀ n ∈ declared, n.Named) :
    resolve selector declared = .ok nodes ↔
      (declared.map (·.host)).Nodup ∧ Resolved selector declared nodes := by
  constructor
  · intro h
    have hnodup : (declared.map (·.host)).Nodup := by
      by_contra hrepeats
      obtain ⟨host, hhost⟩ := exists_repeats_iff.2 hrepeats
      cases h.symm.trans (resolve_eq_error_iff.2 ⟨host, hhost, rfl⟩)
    obtain ⟨nodes', hresolve, hresolved⟩ := resolved_of_nodup selector hnamed hnodup
    cases h.symm.trans hresolve
    exact ⟨hnodup, hresolved⟩
  · rintro ⟨hnodup, hresolved⟩
    obtain ⟨nodes', hresolve, hresolved'⟩ := resolved_of_nodup selector hnamed hnodup
    rwa [hresolved.unique hresolved' (.refl _)]

/-- Resolution fails exactly if some host is declared more than once, selected or not, and names the
first that repeats; otherwise it gives the selected nodes in visiting order, which a run keeps. Where and
in which order the nodes are declared does not matter. -/
theorem resolution_is_exact {sys : System σ} {s : σ} {f : ClusterFile} {declared : List Node}
    (h : Declares sys s f declared) (selector : Option Selector) :
    let resolved := (f.resolveNodes sys s selector).2
    ((∃ e, resolved = .error e) ↔ ∃ host, 1 < (declared.map (·.host)).count host) ∧
    (∀ e, resolved = .error e ↔
      ∃ host, Repeats host declared ∧ e = .message s!"node {host} is declared more than once") ∧
    (∀ nodes, resolved = .ok nodes ↔
      (declared.map (·.host)).Nodup ∧ Resolved selector declared nodes) ∧
    (∀ (τ : Type) (sys' : System τ) (s' : τ) (f' : ClusterFile) (declared' : List Node),
      Declares sys' s' f' declared' → declared'.Perm declared →
        ∀ nodes, (f'.resolveNodes sys' s' selector).2 = .ok nodes ↔ resolved = .ok nodes) ∧
    ∀ nodes, resolved = .ok nodes → ∀ (env : Environment σ) (cluster : Cluster) (signal : Signal),
      (Setting.over env cluster nodes signal).nodes = nodes := by
  intro resolved
  have hresolved : resolved = resolve selector declared := h.resolveNodes_eq selector
  have hok {nodes : List Node} : resolved = .ok nodes ↔
      (declared.map (·.host)).Nodup ∧ Resolved selector declared nodes := by
    rw [hresolved]
    exact resolve_eq_ok_iff h.named
  refine ⟨?_, fun e => ?_, fun nodes => hok, ?_, ?_⟩
  · have hcount : (∃ host, 1 < (declared.map (·.host)).count host) ↔
        ¬ (declared.map (·.host)).Nodup := by
      rw [List.nodup_iff_count_le_one]
      simp
    rw [hcount, ← exists_repeats_iff, hresolved]
    simp only [resolve_eq_error_iff]
    constructor
    · rintro ⟨e, host, hhost, -⟩
      exact ⟨host, hhost⟩
    · rintro ⟨host, hhost⟩
      exact ⟨_, host, hhost, rfl⟩
  · rw [hresolved]
    exact resolve_eq_error_iff
  · intro τ sys' s' f' declared' h' hperm nodes
    rw [h'.resolveNodes_eq selector, resolve_eq_ok_iff h'.named, hok, (hperm.map _).nodup_iff]
    refine and_congr_right fun hnodup => ⟨fun hnodes => ?_, fun hnodes => ?_⟩
    · exact { hnodes with perm := hnodes.perm.trans (hperm.filter _) }
    · exact { hnodes with perm := hnodes.perm.trans (hperm.symm.filter _) }
  · intro nodes hnodes env cluster signal
    exact Node.inOrder_eq_self (hok.1 hnodes).2.in_order

/-- A machine on which every program prints the same. -/
def printing (output : Bytes) : System Unit where
  isDirectory _ _ := .error .notFound
  read _ _ := .error .notFound
  write s _ _ := (s, .ok ())
  makeDirectory s _ := (s, .ok ())
  run s _ _ _ := (s, .ok ⟨.code 0, output⟩)

def threeHosts : String := "clusterName: demo\nclusterEndpoint: https://demo.example.com:6443\n" ++
  "nodesProvider: more-nodes\nnodes:\n- host: w-1\n  role: worker\n- host: cp-2\n  role: control-plane\n"

def oneMoreHost : String := "- host: cp-1\n  role: control-plane\n"

theorem exists_ok_of_map {ε α β : Type} {x : Except ε α} {g : α → β} {b : β}
    (h : x.toOption.map g = some b) : ∃ a, x = .ok a ∧ g a = b := by
  cases x with
  | error e => cases h
  | ok a => exact ⟨a, rfl, Option.some.inj h⟩

/-- Two nodes of the file and one of its helper program, of which the program's is selected. -/
theorem three_hosts_resolved :
    let sys := printing (.ofText oneMoreHost)
    let selector : Option Selector := some (· == "cp-1")
    ∃ f declared nodes, Declares sys () f declared ∧
      declared.map (·.host) = ["w-1", "cp-2", "cp-1"] ∧
      (f.resolveNodes sys () selector).2 = .ok nodes ∧ Resolved selector declared nodes := by
  intro sys selector
  have hread : (ClusterFile.parse (.ofText threeHosts)).toOption.map
      (fun f => (f.nodesProvider, f.nodes.map (·.host))) =
        some (some "more-nodes", ["w-1", "cp-2"]) := by decide +kernel
  have hprinted : (parseListedNodes (.ofText oneMoreHost)).toOption.map (·.map (·.host)) =
      some ["cp-1"] := by decide +kernel
  obtain ⟨f, hfile, hf⟩ := exists_ok_of_map hread
  obtain ⟨listed, hlisted, hlistedHosts⟩ := exists_ok_of_map hprinted
  obtain ⟨hprovider, hhosts⟩ := Prod.mk.inj hf
  have hdeclares : Declares sys () f (f.nodes ++ listed) := by
    have hnodes : f.listedNodes sys () = ((), .ok listed) := by
      unfold ClusterFile.listedNodes
      rw [hprovider]
      exact congrArg (Prod.mk ()) hlisted
    exact .intro hfile hnodes
  have hall : (f.nodes ++ listed).map (·.host) = ["w-1", "cp-2", "cp-1"] := by
    rw [List.map_append, hhosts, hlistedHosts]
    rfl
  cases hresolved : (f.resolveNodes sys () selector).2 with
  | error e =>
    obtain ⟨host, hcount⟩ := (resolution_is_exact hdeclares selector).1.1 ⟨e, hresolved⟩
    have hnodup : ["w-1", "cp-2", "cp-1"].Nodup := by decide
    rw [hall] at hcount
    exact absurd (List.nodup_iff_count_le_one.1 hnodup host) (Nat.not_le.2 hcount)
  | ok nodes =>
    exact ⟨f, _, nodes, hdeclares, hall, hresolved,
      (((resolution_is_exact hdeclares selector).2.2.1 nodes).1 hresolved).2⟩

end Rollout
