import LeafFringe.Fault
import Mathlib.Tactic.Common

/-!
# When a call is refused

Calls answer with a result or with a fault. `RefusedIff` pins down both halves of such an
answer: the one fault that may occur, the condition for it, and a result in all other cases.
-/

namespace LeafFringe

variable {ε β γ : Type}

@[simp] theorem ok_bind (b : β) (f : β → Except ε γ) : Except.ok b >>= f = f b := rfl

@[simp] theorem error_bind (e : ε) (f : β → Except ε γ) :
    Except.error e >>= f = Except.error e := rfl

@[simp] theorem pure_eq_ok (b : β) : (pure b : Except ε β) = .ok b := rfl

@[simp] theorem ok_map (b : β) (f : β → γ) : f <$> (.ok b : Except ε β) = .ok (f b) := rfl

/-- The call is refused as out of range under the given condition, and answered otherwise. -/
def RefusedIff (call : Except Fault β) (condition : Prop) : Prop :=
  (condition → call = .error .outOfRange) ∧ (¬ condition → ∃ b, call = .ok b)

namespace RefusedIff

variable {call : Except Fault β} {condition : Prop}

theorem of_not (h : ¬ condition) (b : β) (hb : call = .ok b) : RefusedIff call condition := by
  constructor
  · intro hc
    exact absurd hc h
  · intro _
    exact ⟨b, hb⟩

theorem of_pos (h : condition) (he : call = .error .outOfRange) : RefusedIff call condition := by
  constructor
  · intro _
    exact he
  · intro hc
    exact absurd h hc

end RefusedIff

end LeafFringe
