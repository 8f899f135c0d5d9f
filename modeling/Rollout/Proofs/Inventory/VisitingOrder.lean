import Mathlib.Data.List.Nodup
import Rollout.Node

/-!
# Visiting order

Nodes of different hosts stand in visiting order in one way only: `Node.Before` orders them strictly, the
control plane before workers and hosts by their characters within a role. So the order of a list of such
nodes does not depend on where they stood before.
-/

namespace Rollout.Node

variable {a b c : Node}

theorem notAfter_iff : a.notAfter b = true ↔
    a.isControlPlane = b.isControlPlane ∧ a.host ≤ b.host ∨
      a.isControlPlane = true ∧ b.isControlPlane = false := by
  unfold notAfter
  cases a.isControlPlane <;> cases b.isControlPlane <;> simp

theorem notAfter_trans (h : a.notAfter b = true) (h' : b.notAfter c = true) :
    a.notAfter c = true := by
  rw [notAfter_iff] at *
  rcases h with ⟨hrole, hhost⟩ | ⟨ha, hb⟩
  · rcases h' with ⟨hrole', hhost'⟩ | ⟨hb, hc⟩
    · exact .inl ⟨hrole.trans hrole', String.le_trans hhost hhost'⟩
    · exact .inr ⟨hrole.trans hb, hc⟩
  · rcases h' with ⟨hrole', -⟩ | ⟨hb', -⟩
    · exact .inr ⟨ha, hrole'.symm.trans hb⟩
    · cases hb.symm.trans hb'

theorem notAfter_total (a b : Node) : a.notAfter b = true ∨ b.notAfter a = true := by
  rw [notAfter_iff, notAfter_iff]
  by_cases hrole : a.isControlPlane = b.isControlPlane
  · rcases String.le_total a.host b.host with hhost | hhost
    · exact .inl (.inl ⟨hrole, hhost⟩)
    · exact .inr (.inl ⟨hrole.symm, hhost⟩)
  · cases ha : a.isControlPlane <;> cases hb : b.isControlPlane <;> simp_all

theorem pairwise_inOrder (nodes : List Node) : (inOrder nodes).Pairwise (notAfter · ·) :=
  @List.pairwise_mergeSort _ notAfter (fun _ _ _ => notAfter_trans)
    (fun a b => by simpa using notAfter_total a b) nodes

theorem perm_inOrder (nodes : List Node) : (inOrder nodes).Perm nodes :=
  List.mergeSort_perm nodes _

def Before (a b : Node) : Prop :=
  a.isControlPlane = true ∧ b.isControlPlane = false ∨
    a.isControlPlane = b.isControlPlane ∧ a.host < b.host

theorem Before.notAfter (h : a.Before b) : a.notAfter b = true := by
  rcases h with hrole | ⟨hrole, hhost⟩
  · exact notAfter_iff.2 (.inr hrole)
  · exact notAfter_iff.2 (.inl ⟨hrole, String.not_lt.1 (String.lt_asymm hhost)⟩)

theorem Before.asymm (h : a.Before b) : ¬ b.Before a := by
  rintro (⟨hb, ha⟩ | ⟨hrole', hhost'⟩) <;> rcases h with ⟨ha', hb'⟩ | ⟨hrole, hhost⟩
  · cases ha.symm.trans ha'
  · cases hb.symm.trans (hrole.symm.trans ha)
  · cases hb'.symm.trans (hrole'.trans ha')
  · exact String.lt_asymm hhost hhost'

theorem before_of_notAfter (h : a.notAfter b = true) (hne : a.host ≠ b.host) : a.Before b := by
  rcases notAfter_iff.1 h with ⟨hrole, hhost⟩ | hrole
  · exact .inr ⟨hrole, String.not_le.1 fun hge => hne (String.le_antisymm hhost hge)⟩
  · exact .inl hrole

/-- With a host of its own each node has its place. -/
theorem pairwise_before_inOrder {nodes : List Node} (h : (nodes.map (·.host)).Nodup) :
    (inOrder nodes).Pairwise Before := by
  have hnodup : ((inOrder nodes).map (·.host)).Nodup :=
    ((perm_inOrder nodes).map _).nodup_iff.2 h
  have hdistinct : (inOrder nodes).Pairwise (·.host ≠ ·.host) := List.pairwise_map.1 hnodup
  exact ((pairwise_inOrder nodes).and hdistinct).imp fun h => before_of_notAfter h.1 h.2

theorem eq_of_perm_of_before {nodes nodes' : List Node} (h : nodes.Pairwise Before)
    (h' : nodes'.Pairwise Before) (hperm : nodes.Perm nodes') : nodes = nodes' :=
  hperm.eq_of_pairwise (fun _ _ _ _ hab hba => absurd hba hab.asymm) h h'

theorem inOrder_eq_self {nodes : List Node} (h : nodes.Pairwise Before) : inOrder nodes = nodes :=
  List.mergeSort_of_pairwise (h.imp Before.notAfter)

end Rollout.Node
