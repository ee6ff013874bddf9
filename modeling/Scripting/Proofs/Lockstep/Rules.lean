import Scripting.Proofs.Lockstep.Basic
import Scripting.Proofs.Quiet

/-!
How two runs in lockstep go through the building blocks of computations: sequences, caught exceptions,
frames, loops, and the primitive changes of the state.
-/

namespace Scripting

theorem Duo.map_congr {σ : Duo} {f g : State → State} (hleft : f σ.left = g σ.left)
    (hright : f σ.right = g σ.right) : σ.map f = σ.map g := by
  rw [Duo.map, Duo.map, hleft, hright]

namespace Lockstep

/-- Both runs give the same result. -/
def Alike {α : Type} (P : Duo → α → Prop) (τ : Duo) (a b : α) : Prop :=
  a = b ∧ P τ a

variable (R : Lockstep)

/-- What is left of a computation whose exceptions are caught. -/
inductive Attempted {α β : Type} (Q : Duo → α → β → Prop) (τ : Duo) :
    Except Exception α → Except Exception β → Prop where
  | ok {a : α} {b : β} (h : Q τ a b) : Attempted Q τ (.ok a) (.ok b)
  | error {e : Exception} (h : R.raised τ e) : Attempted Q τ (.error e) (.error e)

variable {R} {α α' β β' : Type} {σ : Duo} {Q : Duo → α → β → Prop} {m : Eval α} {P : Duo → α → Prop}

section
variable {Q : Duo → β → β' → Prop}

/-! Looking at the states changes nothing. -/

theorem keeps_look (g : State → α) (g' : State → α') (f : α → Eval β) (f' : α' → Eval β') :
    R.Keeps σ Q (Eval.look g >>= f) (Eval.look g' >>= f') ↔
      R.Keeps σ Q (f (g σ.left)) (f' (g' σ.right)) := Iff.rfl

/-- Both runs see the same. -/
theorem Keeps.look {g : State → α} {f : α → Eval β} {f' : α → Eval β'}
    (h : g σ.left = g σ.right) (hf : R.Keeps σ Q (f (g σ.left)) (f' (g σ.left))) :
    R.Keeps σ Q (Eval.look g >>= f) (Eval.look g >>= f') := by
  rw [keeps_look, ← h]
  exact hf

end

/-- Where related values are the same, both runs hold the same. -/
theorem Handed.eq {nodes nodes' : List Node} (h : R.Handed σ nodes nodes')
    (hgood : ∀ v v', R.good σ v v' → v = v') : nodes = nodes' := by
  induction h with
  | nil => rfl
  | value h => rw [hgood _ _ h]
  | append _ _ ih ihmore => rw [ih, ihmore]

/-- Where both runs define the same functions, they make the same objects. -/
theorem Made.eq {object object' : Object} (h : R.Made σ object object')
    (hcode : ∀ f f', R.code f f' → f = f') :
    object = object' ∧ σ.left.Makes (fun _ => True) object := by
  cases h with
  | same h _ => exact ⟨rfl, h⟩
  | script _ h =>
    obtain rfl := hcode _ _ h
    exact ⟨rfl, .script _ fun _ _ => trivial⟩

theorem Ends.mono {Q P : Duo → α → β → Prop} {x : Outcome α} {y : Outcome β}
    (h : R.Ends σ Q x y) (hQ : ∀ τ a b, Q τ a b → P τ a b) : R.Ends σ P x y := by
  cases h with
  | ok hinv hleads hresult => exact .ok hinv hleads (hQ _ _ _ hresult)
  | thrown hinv hleads hraised => exact .thrown hinv hleads hraised
  | outOfFuel => exact .outOfFuel
  | needsFile path => exact .needsFile path
  | lacking h => exact .lacking h

theorem Keeps.mono {Q P : Duo → α → β → Prop} {m' : Eval β} (h : R.Keeps σ Q m m')
    (hQ : ∀ τ a b, Q τ a b → P τ a b) : R.Keeps σ P m m' :=
  Ends.mono h hQ

theorem Keeps.of_alike {Q : Duo → α → α → Prop} {m m' : Eval α} (h : R.Keeps σ (Alike P) m m')
    (hQ : ∀ τ a, P τ a → Q τ a a) : R.Keeps σ Q m m' := by
  apply h.mono
  rintro τ a _ ⟨rfl, ha⟩
  exact hQ τ a ha

theorem Keeps.attempt {m' : Eval β} (hm : R.Keeps σ Q m m') :
    R.Keeps σ (R.Attempted Q) (Eval.attempt m) (Eval.attempt m') := by
  unfold Keeps Eval.attempt at *
  generalize m σ.left = x at hm ⊢
  generalize m' σ.right = y at hm ⊢
  cases hm with
  | ok hinv hleads hresult => exact .ok hinv hleads (.ok hresult)
  | thrown hinv hleads hraised => exact .ok hinv hleads (.error hraised)
  | outOfFuel => exact .outOfFuel
  | needsFile path => exact .needsFile path
  | lacking h => exact .lacking h

/-- After two quiet computations the states are still the same. -/
theorem Keeps.quiet {Q : Duo → α → α' → Prop} {P : Duo → β → β' → Prop} {m' : Eval α'}
    {f : α → Eval β} {f' : α' → Eval β'} (hm : R.Keeps σ Q m m') (hq : Eval.Quiet m)
    (hq' : Eval.Quiet m') (hf : ∀ a a', Q σ a a' → R.Keeps σ P (f a) (f' a')) :
    R.Keeps σ P (m >>= f) (m' >>= f') := by
  change R.Ends σ P (Eval.andThen m f σ.left) (Eval.andThen m' f' σ.right)
  unfold Keeps Eval.andThen at *
  generalize hx : m σ.left = x at hm ⊢
  generalize hy : m' σ.right = y at hm ⊢
  cases hm with
  | ok hinv hleads hresult =>
    obtain rfl := hq _ _ _ hx
    obtain rfl := hq' _ _ _ hy
    exact hf _ _ hresult
  | thrown hinv hleads hraised => exact .thrown hinv hleads hraised
  | outOfFuel => exact .outOfFuel
  | needsFile path => exact .needsFile path
  | lacking h => exact .lacking h

theorem Step.change {f f' : State → State} {Q : Duo → Unit → Unit → Prop}
    (h : R.Step σ ⟨f σ.left, f' σ.right⟩) (hQ : Q ⟨f σ.left, f' σ.right⟩ () ()) :
    R.Keeps σ Q (Eval.change f) (Eval.change f') :=
  .ok h.inv h.leads hQ

theorem Step.update {g : State → α × State} {Q : Duo → α → α → Prop}
    (h : R.Step σ (σ.map fun s => (g s).2))
    (hQ : Q (σ.map fun s => (g s).2) (g σ.left).1 (g σ.right).1) :
    R.Keeps σ Q (Eval.update g) (Eval.update g) :=
  .ok h.inv h.leads hQ

/-- Both runs throw the same after a change. -/
theorem Step.throws {τ : Duo} {e e' : Exception} (h : R.Step σ τ) (he : e = e')
    (hraised : R.raised τ e) : R.Ends σ Q (.thrown e τ.left) (.thrown e' τ.right) := by
  subst he
  exact .thrown h.inv h.leads hraised

namespace Core

variable (L : R.Core)
include L

theorem step_refl (hs : R.inv σ) : R.Step σ σ :=
  ⟨hs, L.refl σ⟩

theorem step_trans {τ υ : Duo} (h : R.Step σ τ) (h' : R.Step τ υ) : R.Step σ υ :=
  ⟨h'.inv, L.trans h.leads h'.leads⟩

/-- What happens after an earlier change counts from the states before it. -/
theorem after {τ : Duo} {x : Outcome α} {y : Outcome β} (hl : R.leads σ τ) (h : R.Ends τ Q x y) :
    R.Ends σ Q x y := by
  cases h with
  | ok hinv hleads hresult => exact .ok hinv (L.trans hl hleads) hresult
  | thrown hinv hleads hraised => exact .thrown hinv (L.trans hl hleads) hraised
  | outOfFuel => exact .outOfFuel
  | needsFile path => exact .needsFile path
  | lacking h => exact .lacking h

theorem pure {a : α} {b : β} (hs : R.inv σ) (hQ : Q σ a b) :
    R.Keeps σ Q (Pure.pure a) (Pure.pure b) :=
  .ok hs (L.refl σ) hQ

/-- Both runs give the same without a change. -/
theorem give {a : α} (hs : R.inv σ) (ha : P σ a) :
    R.Keeps σ (Alike P) (Pure.pure a) (Pure.pure a) :=
  L.pure hs ⟨rfl, ha⟩

theorem see {f : State → α} (hs : R.inv σ) (hf : f σ.left = f σ.right) (ha : P σ (f σ.left)) :
    R.Keeps σ (Alike P) (Eval.look f) (Eval.look f) :=
  .ok hs (L.refl σ) ⟨hf, ha⟩

theorem bind {Q : Duo → α → α' → Prop} {P : Duo → β → β' → Prop} {m' : Eval α'} {f : α → Eval β}
    {f' : α' → Eval β'} (hm : R.Keeps σ Q m m')
    (hf : ∀ a a' τ, R.inv τ → R.leads σ τ → Q τ a a' → R.Keeps τ P (f a) (f' a')) :
    R.Keeps σ P (m >>= f) (m' >>= f') := by
  change R.Ends σ P (Eval.andThen m f σ.left) (Eval.andThen m' f' σ.right)
  unfold Keeps Eval.andThen at *
  generalize m σ.left = x at hm ⊢
  generalize m' σ.right = y at hm ⊢
  cases hm with
  | ok hinv hleads hresult => exact L.after hleads (hf _ _ _ hinv hleads hresult)
  | thrown hinv hleads hraised => exact .thrown hinv hleads hraised
  | outOfFuel => exact .outOfFuel
  | needsFile path => exact .needsFile path
  | lacking h => exact .lacking h

/-- A sequence whose first part gives the same in both runs. -/
theorem next {Q : Duo → β → β' → Prop} {m m' : Eval α} {f : α → Eval β} {f' : α → Eval β'}
    (hm : R.Keeps σ (Alike P) m m')
    (hf : ∀ a τ, R.inv τ → R.leads σ τ → P τ a → R.Keeps τ Q (f a) (f' a)) :
    R.Keeps σ Q (m >>= f) (m' >>= f') := by
  apply L.bind hm
  rintro a _ τ hτ hl ⟨rfl, ha⟩
  exact hf a τ hτ hl ha

/-- A change of the states and what comes after it. -/
theorem update {g : State → α × State} {Q : Duo → β → β' → Prop} {f : α → Eval β}
    {f' : α → Eval β'} (hg : R.Step σ (σ.map fun s => (g s).2))
    (hf : R.Keeps (σ.map fun s => (g s).2) Q (f (g σ.left).1) (f' (g σ.right).1)) :
    R.Keeps σ Q (Eval.update g >>= f) (Eval.update g >>= f') :=
  L.after hg.leads hf

theorem change {f f' : State → State} {Q : Duo → β → β' → Prop} {m : Unit → Eval β}
    {m' : Unit → Eval β'} (hf : R.Step σ ⟨f σ.left, f' σ.right⟩)
    (hm : R.Keeps ⟨f σ.left, f' σ.right⟩ Q (m ()) (m' ())) :
    R.Keeps σ Q (Eval.change f >>= m) (Eval.change f' >>= m') :=
  L.after hf.leads hm

/-- Computations in a frame keep what they keep without the frame. -/
theorem inFrame {push : State → State} {m' : Eval β} (hp : R.Pushes σ (σ.map push))
    (hm : R.Keeps (σ.map push) Q m m') (hQ : ∀ τ a b, Q τ a b → Q (τ.map State.popFrame) a b) :
    R.Keeps σ Q (Eval.inFrame push m) (Eval.inFrame push m') := by
  change R.Ends _ Q (m (push σ.left)) (m' (push σ.right)) at hm
  unfold Keeps Eval.inFrame
  generalize m (push σ.left) = x at hm ⊢
  generalize m' (push σ.right) = y at hm ⊢
  cases hm with
  | ok hinv hleads hresult =>
    have hback := hp.back _ hinv hleads
    exact .ok hback.inv hback.leads (hQ _ _ _ hresult)
  | thrown hinv hleads hraised =>
    have hback := hp.back _ hinv hleads
    exact .thrown hback.inv hback.leads (L.raised_pop hraised)
  | outOfFuel => exact .outOfFuel
  | needsFile path => exact .needsFile path
  | lacking h => exact .lacking h

/-- What the arguments of a call hold. -/
theorem handed_stored {args : List Value} (hargs : ∀ a ∈ args, R.stored σ a) :
    R.Handed σ (args.flatMap Value.nodes) (args.flatMap Value.nodes) := by
  induction args with
  | nil => exact .nil
  | cons a rest ih =>
    rw [List.forall_mem_cons] at hargs
    exact .append (.value (L.good_of_stored hargs.1)) (ih hargs.2)

/-- Things may be held while computations run. -/
theorem holding {nodes nodes' : List Node} {m' : Eval β} (hs : R.inv σ)
    (hnodes : R.Handed σ nodes nodes') (hm : ∀ τ, R.inv τ → R.leads σ τ → R.Keeps τ Q m m')
    (hQ : ∀ τ υ a b, R.leads τ υ → Q τ a b → Q υ a b) :
    R.Keeps σ Q (Eval.holding nodes m) (Eval.holding nodes' m') := by
  have hheld := L.hold hs hnodes
  have hend := L.after hheld.leads (hm _ hheld.inv hheld.leads)
  unfold Keeps Eval.holding
  rw [← L.mortal hs]
  split
  · exact hm σ hs (L.refl σ)
  · dsimp only at hend ⊢
    generalize m (σ.left.hold nodes) = x at hend ⊢
    generalize m' (σ.right.hold nodes') = y at hend ⊢
    cases hend with
    | ok hinv hleads hresult =>
      have hfree := L.free hs hinv hleads
      exact .ok hfree.inv (L.trans hleads hfree.leads) (hQ _ _ _ _ hfree.leads hresult)
    | thrown hinv hleads hraised =>
      have hfree := L.free hs hinv hleads
      exact .thrown hfree.inv (L.trans hleads hfree.leads) (L.raised_mono hfree.leads hraised)
    | outOfFuel => exact .outOfFuel
    | needsFile path => exact .needsFile path
    | lacking h => exact .lacking h

theorem repeatUntil {m : Eval (Option α)} {m' : Eval (Option β)}
    (hm : ∀ τ, R.inv τ → R.Keeps τ (fun υ => Option.Rel (Q υ)) m m') (n : Nat) (hs : R.inv σ) :
    R.Keeps σ Q (Eval.repeatUntil m n) (Eval.repeatUntil m' n) := by
  induction n generalizing σ with
  | zero => exact .outOfFuel
  | succ n ih =>
    unfold Eval.repeatUntil
    apply L.bind (hm σ hs)
    intro r r' τ hτ _ hr
    cases hr with
    | some hresult => exact L.pure hτ hresult
    | none => exact ih hτ

end Core

end Lockstep

end Scripting
