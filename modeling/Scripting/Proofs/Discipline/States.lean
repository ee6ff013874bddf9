import Scripting.Proofs.Discipline.Run

/-!
Disciplines about the state alone.

Where nothing is asked of values and code, it is enough to look at the primitive changes of the state.
-/

namespace Scripting.Discipline

/-- The discipline that asks nothing of values and code. -/
def ofStates (inv : State → Prop) (leads : State → State → Prop) : Discipline where
  inv := inv
  leads := leads
  good _ _ := True
  stored _ _ := True
  raised _ _ := True
  expr _ := True
  stmt _ := True
  host _ := True

/-- The primitive changes of the state respect what is asked of states, as long as no call and no
included text is entered. -/
structure InnerStateLaws (inv : State → Prop) (leads : State → State → Prop) : Prop where
  refl : ∀ s, leads s s
  trans : ∀ {s s' s''}, leads s s' → leads s' s'' → leads s s''
  addObject : ∀ {s} (object), inv s → (ofStates inv leads).Step s (s.addObject object).2
  addSlot : ∀ {s} (slot), inv s → (ofStates inv leads).Step s (s.addSlot slot).2
  allocate : ∀ {s} (o name v readOnly), inv s →
    (ofStates inv leads).Step s (s.allocate o name v readOnly).2
  writeSlot : ∀ {s} (slot v), inv s → (ofStates inv leads).Step s (s.writeSlot slot v)
  setHostData : ∀ {s} (o data), inv s → (ofStates inv leads).Step s (s.setHostData o data)
  output : ∀ {s} (text), inv s →
    (ofStates inv leads).Step s { s with output := s.output.append text }
  errorOutput : ∀ {s} (text), inv s →
    (ofStates inv leads).Step s { s with errorOutput := s.errorOutput.append text }
  hold : ∀ {s} (nodes), inv s → (ofStates inv leads).Step s { s with held := nodes }
  settle : ∀ {s} (classes), inv s → (ofStates inv leads).Step s (s.settleAmong classes)
  pushBlock : ∀ {s}, inv s → (ofStates inv leads).Pushes s s.pushBlock

/-- Entering a call or an included text respects it as well. -/
structure StateLaws (inv : State → Prop) (leads : State → State → Prop) : Prop extends
    InnerStateLaws inv leads where
  pushCall : ∀ {s} (name container), inv s →
    (ofStates inv leads).Pushes s (s.pushCall name container)
  pushGlobal : ∀ {s} (name), inv s → (ofStates inv leads).Pushes s (s.pushGlobal name)

variable {inv : State → Prop} {leads : State → State → Prop}

/-- A frame on the stack, if taking it off again leads back. -/
theorem pushes_ofStates {s s₁ : State} (h : inv s₁)
    (hback : ∀ s', inv s' → leads s₁ s' → (ofStates inv leads).Step s s'.popFrame) :
    (ofStates inv leads).Pushes s s₁ :=
  ⟨h, fun _ _ => trivial, fun _ _ => trivial, hback⟩

theorem expr_parts_ofStates (e : Expr) :
    e.Parts (ofStates inv leads).expr (ofStates inv leads).stmt := by
  cases e <;> simp [Expr.Parts, ofStates]

theorem stmt_parts_ofStates (statement : Stmt) :
    statement.Parts (ofStates inv leads).expr (ofStates inv leads).stmt := by
  cases statement <;> simp [Stmt.Parts, ofStates]

theorem inner_ofStates (H : InnerStateLaws inv leads) : (ofStates inv leads).Inner where
  refl := H.refl
  trans := H.trans
  good_mono _ _ := trivial
  stored_mono _ _ := trivial
  raised_mono _ _ := trivial
  good_of_stored _ := trivial
  literal _ _ := trivial
  deref _ _ := trivial
  this _ := trivial
  global _ := trivial
  container _ _ := trivial
  read _ _ := trivial
  raise _ _ := trivial
  raised_value _ := trivial
  make hs _ _ := ⟨H.addObject _ hs, trivial⟩
  allocate _ _ hs _ _ := ⟨H.allocate _ _ _ _ hs, fun _ => trivial⟩
  method hs _ _ := ⟨H.addSlot _ hs, trivial⟩
  own _ _ _ := trivial
  found _ _ := trivial
  write hs _ _ _ := H.writeSlot _ _ hs
  output := H.output
  errorOutput := H.errorOutput
  hold hs _ := H.hold _ hs
  free _ hs _ := H.hold _ hs
  settle := H.settle
  pushBlock := H.pushBlock
  good_pop _ := trivial
  stored_pop _ := trivial
  raised_pop _ := trivial
  expr_parts _ := expr_parts_ofStates _
  stmt_parts _ := stmt_parts_ofStates _
  script _ _ _ _ := trivial
  program _ _ _ _ _ := trivial
  hostOf _ _ _ := trivial

variable (H : StateLaws inv leads)
include H

theorem lawful_ofStates : (ofStates inv leads).Lawful where
  toInner := inner_ofStates H.toInnerStateLaws
  pushCall name hs _ := H.pushCall name _ hs
  pushGlobal := H.pushGlobal

theorem hosts_ofStates : (ofStates inv leads).twin.Hosts :=
  (lawful_ofStates H).hosts H.setHostData (fun _ _ => trivial) fun _ _ => trivial

end Scripting.Discipline
