import Mathlib.Logic.Function.Basic
import Mathlib.Tactic.Common

/-!
# Two sides

A system of two endpoints is a function on `Side`.  What holds between an endpoint and its
peer is stated once and proved for both (`Side.forall_update`).

The two endpoints of a connection run the same code, so the theorems quantify over the side.
A relation between an endpoint and its peer is a property of ordered pairs, and an invariant
of the system is such a relation in both directions; `forall_update` is the step for it:
when one endpoint changes, the relation has to be shown once from each end.
-/

namespace Sponge

/-- The two endpoints. -/
inductive Side where
  | a
  | b
  deriving Repr, DecidableEq

namespace Side

/-- The other one. -/
def peer : Side → Side
  | a => b
  | b => a

@[simp] theorem peer_peer (side : Side) : side.peer.peer = side := by
  cases side <;> rfl

@[simp] theorem peer_ne (side : Side) : side.peer ≠ side := by
  cases side <;> decide

/-- There are only two. -/
theorem eq_or_eq_peer (side side' : Side) : side' = side ∨ side' = side.peer := by
  cases side <;> cases side' <;> decide

instance decidableForall {P : Side → Prop} [DecidablePred P] : Decidable (∀ side, P side) :=
  decidable_of_iff (P a ∧ P b) ⟨fun ⟨ha, hb⟩ side => side.casesOn ha hb, fun h => ⟨h a, h b⟩⟩

/-- To replace one endpoint, look at the pair from both sides. -/
theorem forall_update {σ : Type*} {R : σ → σ → Prop} {n : Side → σ} {side : Side} {s : σ}
    (own : R (n side.peer) s) (other : R s (n side.peer)) (side' : Side) :
    R (Function.update n side s side'.peer) (Function.update n side s side') := by
  rcases side.eq_or_eq_peer side' with rfl | rfl
  · simpa using own
  · simpa using other

end Side

end Sponge
