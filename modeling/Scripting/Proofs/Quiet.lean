import Scripting.Proofs.Counting

/-!
Quiet computations: they leave the state as it is, unless they throw.
-/

namespace Scripting.Eval

variable {α β : Type}

def Quiet (m : Eval α) : Prop :=
  ∀ s a s', m s = .ok a s' → s' = s

theorem quiet_pure (a : α) : Quiet (pure a) := by
  rintro s b s' ⟨⟩
  rfl

theorem quiet_look (f : State → α) : Quiet (look f) := by
  rintro s b s' ⟨⟩
  rfl

theorem Quiet.bind {m : Eval α} {f : α → Eval β} (hm : Quiet m) (hf : ∀ a, Quiet (f a)) :
    Quiet (m >>= f) := by
  intro s b s' h
  obtain ⟨a, s₁, hrun, hrest⟩ := exists_of_bind_ok h
  obtain rfl := hm s a s₁ hrun
  exact hf a _ b s' hrest

/-- A conversion to an integer that succeeds changes nothing. -/
theorem quiet_toInt (v : Value) : Quiet (toInt v) :=
  fun _ _ _ h => (toInt_eq_ok_iff.1 h).2

theorem quiet_isDefined (args : List Value) (index : Nat) : Quiet (isDefined args index) := by
  unfold isDefined
  split
  · exact quiet_look _
  · exact quiet_pure _

theorem quiet_textOrEmpty (args : List Value) (index : Nat) : Quiet (textOrEmpty args index) := by
  unfold textOrEmpty
  refine (quiet_isDefined _ _).bind fun defined => ?_
  split
  · exact quiet_look _
  · exact quiet_pure _

end Scripting.Eval
