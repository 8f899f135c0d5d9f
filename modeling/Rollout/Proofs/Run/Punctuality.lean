import Rollout.Proofs.Run.Growth

/-!
# Work that keeps to its limit

Only waiting takes time, and no wait goes on past the limit it is under. So work put together from calls
and waits is over by its limit, whatever is answered and whether or not anything is.
-/

namespace Rollout

variable {σ α β : Type}

/-- The limit that cuts a wait off has just been reached. -/
theorem World.allows_expired {S : Setting σ} {w : World σ} (h : S.Allows w.now) :
    S.Allows (w.expired S).now := by
  intro limit hlimit
  rw [w.expired_of_limit hlimit]
  exact max_le (h limit hlimit) le_rfl

namespace Work

/-- Begun before its limit has passed, the work is over by the limit. -/
def Punctual (x : Work σ α) : Prop :=
  ∀ S w r w', x.Ends S w r w' → S.Allows w.now → S.Allows w'.now

namespace Punctual

protected theorem pure (a : α) : (pure a : Work σ α).Punctual := by
  intro S w r w' h hw
  obtain ⟨-, rfl⟩ := ends_pure_iff.1 h
  exact hw

protected theorem bind {x : Work σ α} {f : α → Work σ β} (hx : x.Punctual)
    (hf : ∀ a, (f a).Punctual) : (x >>= f).Punctual := by
  intro S w r w' h hw
  rcases ends_bind_iff.1 h with ⟨a, w₁, hfirst, hrest⟩ | ⟨e, hfirst, -⟩
  · exact hf a _ _ _ _ hrest (hx _ _ _ _ hfirst hw)
  · exact hx _ _ _ _ hfirst hw

protected theorem clock : (clock : Work σ Instant).Punctual := by
  intro S w r w' h hw
  obtain ⟨-, rfl⟩ := h.unique ends_clock
  exact hw

protected theorem raisedAt? : (raisedAt? : Work σ (Option Instant)).Punctual := by
  intro S w r w' h hw
  have hraised : raisedAt?.Ends S w (.ok (S.signal.raisedAt? w.journal)) w := rfl
  obtain ⟨-, rfl⟩ := h.unique hraised
  exact hw

protected theorem favours : (favours : Work σ (ℕ → Branch)).Punctual := by
  intro S w r w' h hw
  obtain ⟨-, rfl⟩ := h.unique ends_favours
  exact hw

protected theorem waitUntil (time : Option Instant) : (waitUntil time : Work σ Unit).Punctual := by
  intro S w r w' h hw
  rcases ends_waitUntil_iff.1 h with ⟨t, -, ht, -, rfl⟩ | ⟨-, -, rfl⟩
  · exact fun limit hlimit => max_le (hw limit hlimit) (ht limit hlimit)
  · exact World.allows_expired hw

protected theorem call {c : Call} : (call c : Work σ _).Punctual := by
  intro S w r w' h hw
  rcases ends_call_iff.1 h with ⟨a, -, hallows, -⟩ | ⟨-, -, rfl⟩
  · exact hallows
  · exact World.allows_expired hw

protected theorem connect {node : Node} : (connect node : Work σ _).Punctual := by
  intro S w r w' h hw
  rcases ends_connect_iff.1 h with ⟨a, -, hallows, -⟩ | ⟨-, -, rfl⟩
  · exact hallows
  · exact World.allows_expired hw

protected theorem request {client : Client} {q : Request} :
    (request client q : Work σ _).Punctual :=
  .call

end Punctual
end Work
end Rollout
