import Scripting.Proofs.Expansion.Repetition
import Scripting.Proofs.Session

/-!
Compound assignment.

The assignment `x op= e` is its expansion `x = x op (e)`: both end alike, in the same state. The target is
bound before `e` is evaluated, its old value is read afterwards, and the second evaluation of the target
leads to the same slot again. Scripts never get hold of a scope, so nothing more is asked where scripts
alone are run. A host can hand them one; then the access `g.g` can give the scope a name `g` of its own,
which hides the `g` of the target, and the two assignments differ. Main statement:
`compound_assignment_expands`.
-/

namespace Scripting

/-- The operator of a compound assignment, and the one of its expansion. -/
inductive AssignOp.Expands : AssignOp → BinaryOp → Prop where
  | add : Expands .add .add
  | subtract : Expands .subtract .subtract
  | multiply : Expands .multiply .multiply
  | divide : Expands .divide .divide
  | modulo : Expands .modulo .modulo

/-- The number of member accesses behind each other. -/
def Expr.accesses : Expr → Nat
  | .member _ object _ => object.accesses + 1
  | _ => 0

/-- The same end, while other things are held. -/
def Outcome.withHeld {α : Type} (held : List Node) : Outcome α → Outcome α
  | .ok a s => .ok a { s with held := held }
  | .thrown e s => .thrown e { s with held := held }
  | .outOfFuel => .outOfFuel
  | .needsFile path => .needsFile path

namespace State

variable (s : State) (held : List Node)

theorem hold_hold (nodes : List Node) : (s.hold nodes).hold nodes = s.hold nodes := by
  have hheld : ∀ node ∈ nodes, node ∈ (s.hold nodes).held := by
    intro node hnode
    by_cases hbefore : node ∈ s.held
    · exact List.mem_append_right _ hbefore
    · apply List.mem_append_left
      simp [hnode, hbefore]
  have hnone : nodes.filter (!(s.hold nodes).held.contains ·) = [] := by
    rw [List.filter_eq_nil_iff]
    intro node hnode
    simp [hheld node hnode]
  rw [hold, hnone]
  rfl

theorem followUpTo_held (n : Nat) (v : Value) :
    ({ s with held := held } : State).followUpTo n v = s.followUpTo n v := by
  induction n generalizing v with
  | zero => rfl
  | succ n ih =>
    cases v with
    | reference r => exact ih _
    | _ => rfl

theorem deref_held (v : Value) : ({ s with held := held } : State).deref v = s.deref v :=
  s.followUpTo_held held _ v

theorem text_held (v : Value) : ({ s with held := held } : State).text v = s.text v := by
  rw [text, text, deref_held]
  rfl

end State

namespace Eval

variable {α β : Type} {s s₁ : State}

/-! Computations to which it does not matter what is held. -/

/-- Whatever is held, the computation does the same. -/
def Unheld (m : Eval α) : Prop :=
  ∀ s held, m { s with held := held } = (m s).withHeld held

theorem unheld_pure (a : α) : Unheld (pure a) := fun _ _ => rfl

theorem unheld_fail (fault : Fault) : Unheld (fail fault : Eval α) := fun _ _ => rfl

theorem unheld_newString (text : String) : Unheld (newString text) := fun _ _ => rfl

theorem Unheld.bind {m : Eval α} {f : α → Eval β} (hm : Unheld m) (hf : ∀ a, Unheld (f a)) :
    Unheld (m >>= f) := by
  intro s held
  change andThen m f _ = (andThen m f s).withHeld held
  rw [andThen, andThen, hm s held]
  cases hrun : m s with
  | ok a s' => exact hf a s' held
  | thrown e s' => rfl
  | outOfFuel => rfl
  | needsFile path => rfl

/-- What is looked at does not depend on what is held. -/
theorem Unheld.look {g : State → α} {f : α → Eval β}
    (hg : ∀ s held, g { s with held := held } = g s) (hf : ∀ a, Unheld (f a)) :
    Unheld (look g >>= f) := by
  intro s held
  rw [look_bind, look_bind, hg]
  exact hf (g s) s held

theorem Unheld.attempt {m : Eval α} (hm : Unheld m) : Unheld (attempt m) := by
  intro s held
  rw [Eval.attempt, Eval.attempt, hm s held]
  cases m s <;> rfl

theorem unheld_toPrimitive (o : ObjectId) (hint : ValueType) : Unheld (toPrimitive o hint) := by
  unfold toPrimitive
  refine .look (fun _ _ => rfl) fun type => .look (fun _ _ => rfl) fun behavior => ?_
  split
  · exact unheld_fail _
  · refine .look (fun _ _ => rfl) fun text => ?_
    split
    · split
      · exact unheld_pure _
      · exact unheld_fail _
    · exact unheld_fail _
  · refine .look (fun _ _ => rfl) fun content => ?_
    split
    · exact unheld_pure _
    · exact unheld_fail _
  · exact unheld_pure _
  · exact unheld_fail _

theorem unheld_toInt (v : Value) : Unheld (toInt v) := by
  unfold toInt
  refine .look (fun s held => s.deref_held held v) fun behind => ?_
  split
  · exact unheld_pure _
  · exact unheld_pure _
  · exact unheld_pure _
  · exact unheld_pure _
  · refine (unheld_toPrimitive _ _).bind fun p => ?_
    split
    · exact unheld_pure _
    · exact unheld_fail _
  · exact unheld_fail _

theorem unheld_operatorAdd (o : ObjectId) (v : Value) : Unheld (operatorAdd o v) := by
  unfold operatorAdd
  refine .look (fun _ _ => rfl) fun behavior => ?_
  split
  · exact unheld_fail _
  · exact .look (fun s held => congrArg _ (s.text_held held v)) fun text => unheld_newString text
  · refine .look (fun s held => ?_) fun text => unheld_newString text
    rw [s.text_held held v]
    rfl
  · exact unheld_fail _

theorem unheld_add (v w : Value) : Unheld (add v w) := by
  unfold add
  refine .look (fun s held => s.deref_held held v) fun lhs => ?_
  refine .look (fun s held => s.deref_held held w) fun rhs => ?_
  refine (unheld_toInt lhs).attempt.bind fun left => (unheld_toInt rhs).attempt.bind fun right => ?_
  split
  · exact unheld_pure _
  · split
    · exact unheld_operatorAdd _ _
    · refine .look (fun s held => ?_) fun text => unheld_newString text
      rw [s.text_held held lhs, s.text_held held rhs]

/-- An operation on two integers. -/
theorem unheld_onInts {f : Int64 → Int64 → Eval Value} (hf : ∀ a b, Unheld (f a b)) (v w : Value) :
    Unheld (toInt v >>= fun a => toInt w >>= fun b => f a b) :=
  (unheld_toInt v).bind fun a => (unheld_toInt w).bind fun b => hf a b

theorem unheld_combine (op : AssignOp) (v w : Value) : Unheld (combine op v w) := by
  cases op with
  | assign => exact unheld_pure _
  | add => exact unheld_add v w
  | subtract => exact unheld_onInts (fun _ _ => unheld_pure _) v w
  | multiply => exact unheld_onInts (fun _ _ => unheld_pure _) v w
  | divide =>
    refine unheld_onInts (fun a b => ?_) v w
    split
    · exact unheld_fail _
    · exact unheld_pure _
  | modulo =>
    refine unheld_onInts (fun a b => ?_) v w
    split
    · exact unheld_fail _
    · exact unheld_pure _

theorem holding_of_mortal (h : s.mortal ≠ []) (nodes : List Node) (m : Eval α) :
    holding nodes m s = (m (s.hold nodes)).withHeld s.held := by
  have hmortal : s.mortal.isEmpty = false := by simp [h]
  unfold holding
  rw [hmortal]
  cases m (s.hold nodes) <;> rfl

/-- What is held anyway need not be held for longer. -/
theorem holding_holding {m : Eval α} {f : α → Eval β} (hf : ∀ a, Unheld (f a)) (nodes : List Node)
    (s : State) : holding nodes (holding nodes m >>= f) s = (holding nodes m >>= f) s := by
  by_cases hmortal : s.mortal = []
  · exact holding_of_immortal hmortal nodes _
  · have hinner : (s.hold nodes).mortal ≠ [] := hmortal
    have hagain := holding_of_mortal hinner nodes m
    rw [s.hold_hold] at hagain
    rw [holding_of_mortal hmortal]
    change (andThen (holding nodes m) f (s.hold nodes)).withHeld s.held =
      andThen (holding nodes m) f s
    rw [andThen, andThen, hagain, holding_of_mortal hmortal nodes m]
    cases m (s.hold nodes) with
    | ok a s' =>
      change (f a { s' with held := _ }).withHeld s.held = f a { s' with held := s.held }
      rw [hf a s' (s.hold nodes).held, hf a s' s.held]
      cases f a s' <;> rfl
    | thrown e s' => rfl
    | outOfFuel => rfl
    | needsFile path => rfl

/-! The expansion. -/

/-- A path needs no more depth than it has accesses. -/
theorem evaluate_path_succ {x : Expr} (hx : x.IsPath) {n : Nat} (hn : x.accesses < n) (s : State) :
    evaluate (n + 1) x s = evaluate n x s := by
  induction hx generalizing n with
  | identifier span name =>
    cases n with
    | zero => exact absurd hn (Nat.not_lt_zero _)
    | succ n => rw [evaluate_identifier, evaluate_identifier]
  | @member span object name _ ih =>
    cases n with
    | zero => exact absurd hn (Nat.not_lt_zero _)
    | succ n =>
      rw [evaluate_member, evaluate_member]
      exact bind_congr_left _ (ih (Nat.lt_of_succ_lt_succ hn))

/-- The right side of an expansion, once its left operand is evaluated. -/
theorem binaryExpr_of_ok {op : AssignOp} {op' : BinaryOp} (hop : op.Expands op') {n : Nat}
    {x e : Expr} {v : Value} (hx : evaluate n x s = .ok v s₁) :
    binaryExpr (interp n) op' x e s =
      (holding v.nodes (evaluate n e) >>= fun rhs => combine op v rhs) s₁ := by
  have hx' : (interp n).evaluate x s = .ok v s₁ := hx
  unfold binaryExpr
  rw [bind_of_ok hx']
  cases hop <;> rfl

/-- What the right side of an expansion gives while the target is held, once the target is bound. -/
theorem holding_binary {op : AssignOp} {op' : BinaryOp} (hop : op.Expands op') {n : Nat}
    {x e : Expr} {r : Reference} (hs₁ : s₁.Closed) (hr : s₁.HasValue (.reference r))
    (hlasts : Lasts x.root (evaluate n x) (.reference r) s₁) (span : Span) :
    holding (Value.reference r).nodes (evaluate (n + 1) (.binary span op' x e)) s₁ =
      (holding (Value.reference r).nodes (evaluate n e) >>= combine op (.reference r)) s₁ := by
  have hright {s' : State} (hs' : s'.Closed) (h : s₁.Extends s') (hname : s₁.Unhidden x.root s') :=
    binaryExpr_of_ok hop (e := e) (hlasts s' hs' h hname)
  rw [← holding_holding fun v => unheld_combine op (.reference r) v]
  by_cases hmortal : s₁.mortal = []
  · rw [holding_of_immortal hmortal, holding_of_immortal hmortal]
    exact hright hs₁ (.refl s₁) (.refl s₁ _)
  · rw [holding_of_mortal hmortal, holding_of_mortal hmortal]
    exact congrArg _ (hright (hs₁.hold hr) (State.extends_hold s₁ _) fun _ _ _ => rfl)

theorem assign_expands (hs : s.Sound) {op : AssignOp} {op' : BinaryOp} (hop : op.Expands op')
    {x : Expr} (hx : x.IsPath) (havoids : AvoidsVirtual s x) (hroot : KeepsRoot s x) (e : Expr)
    {n : Nat} (hn : x.accesses < n) (span span' span'' : Span) :
    evaluate (n + 1) (.assign span op x e) s =
      evaluate (n + 2) (.assign span' .assign x (.binary span'' op' x e)) s := by
  have hsame := evaluate_path_succ hx hn s
  change assignExpr (interp n) op x e s =
    assignExpr (interp (n + 1)) .assign x (.binary span'' op' x e) s
  by_cases hok : ∃ v s₁, evaluate n x s = .ok v s₁
  · obtain ⟨v, s₁, hrun⟩ := hok
    obtain ⟨r, rfl, -⟩ : ∃ r, v = .reference r ∧ s.Leads (r, s₁) := by
      have hend := evaluate_path hx n s
      rwa [hrun] at hend
    have hleft : (interp n).evaluate x s = .ok (.reference r) s₁ := hrun
    have hright : (interp (n + 1)).evaluate x s = .ok (.reference r) s₁ := hsame.trans hrun
    cases hreadOnly : (s₁.slot r.slot).readOnly with
    | true => rw [assignExpr_of_readOnly hleft hreadOnly, assignExpr_of_readOnly hright hreadOnly]
    | false =>
      obtain ⟨hs₁, hvalue⟩ := sound_evaluate hs hrun
      obtain ⟨-, hlasts⟩ := path_lasts hx hs havoids hrun (State.not_virtual_of_writable hreadOnly)
      have hbinary := holding_binary hop (e := e) hs₁.closed hvalue (hlasts (hroot n r s₁ hrun)) span''
      rw [assignExpr_of_writable hleft hreadOnly, assignExpr_of_writable hright hreadOnly,
        ← bind_bind]
      exact bind_congr_left _ hbinary.symm
  · change (evaluate n x >>= _) s = (evaluate (n + 1) x >>= _) s
    rw [bind_congr_left _ hsame]
    exact bind_congr_at fun v s₁ hrun => absurd ⟨v, s₁, hrun⟩ hok

/-- Scripts get hold of no scope, so they make no accesses on one. -/
theorem keepsRoot_of_reached (hs : s.Reached) {x : Expr} (hx : x.IsPath) : KeepsRoot s x := by
  have L := Discipline.sealed_lawful
  have hsealed : s.Sealed :=
    L.reached Discipline.sealed_hosts State.sealed_install (fun _ => trivial) hs
  intro n r s₁ hrun o ho hne
  have hscope : s.IsScope o := hs.sound.framed.isScope_of_searched ho hne
  refine own?_evaluate_path hx hne (fun y _ n r s₁ hrun hbehind => ?_) hrun
  obtain ⟨hs₁, hgrows, hreaches⟩ := Discipline.Keeps.of_ok
    ((L.interprets Discipline.sealed_hosts n).evaluate trivial hsealed) hrun
  have hholds : s₁.Holds (s₁.deref (.reference r)) := L.deref hs₁ hreaches
  rw [hbehind] at hholds
  apply hholds.2
  rwa [State.IsScope, hgrows.payload o hscope.lt_size]

end Eval

open Eval in
/-- If no access of the target is made on a virtual member, a compound assignment does what its expansion
does: in every state that scripts reach, whether between the source texts that are run or in the middle of
one, and in every state that a host can bring about, unless the target itself adds the name with which it
begins to a scope there. -/
theorem compound_assignment_expands {s : State} {x : Expr}
    (hs : s.Reached ∨ (∃ session : Host.Session, session.Reached (fun _ => True) ∧ session.Visits s) ∧
      KeepsRoot s x)
    {op : AssignOp} {op' : BinaryOp} (hop : op.Expands op') (hx : x.IsPath)
    (havoids : AvoidsVirtual s x) (e : Expr) {n : Nat} (hn : x.accesses < n)
    (span span' span'' : Span) :
    evaluate (n + 1) (.assign span op x e) s =
      evaluate (n + 2) (.assign span' .assign x (.binary span'' op' x e)) s := by
  rcases hs with hreached | ⟨⟨session, hsession, hvisits⟩, hroot⟩
  · exact assign_expands hreached.sound hop hx havoids (keepsRoot_of_reached hreached hx) e hn _ _ _
  · exact assign_expands (hsession.sound.visits hvisits).1 hop hx havoids hroot e hn _ _ _

open Host in
/-- A host enters a call and hands scripts the scope of the call, as the global `g`. -/
def Host.exposing : Session :=
  (Session.start none none default).performAll 8
    [(.push (.call "f" none), none),
      (.value .scope, some "scope"),
      (.defineGlobal "g" (.register "scope"), none)]

theorem Host.exposing_reached : Host.exposing.Reached fun _ => True :=
  ⟨none, none, default, Session.later_performAll 8 _ (by decide)⟩

/-- A name that stands for a slot that can be written stands for no virtual member. -/
theorem Eval.avoidsVirtual_of_writable {s : State} {name : String}
    (h : (match Eval.resolve name s with
      | .ok r s₁ => (s₁.slot r.slot).readOnly
      | _ => false) = false) (span span' : Span) (member : String) :
    Eval.AvoidsVirtual s (.member span (.identifier span' name) member) := by
  intro y _ hy n r s₁ hrun
  cases hy with
  | earlier _ _ hearlier => cases hearlier
  | last =>
    rw [Eval.resolve_of_evaluate hrun] at h
    exact State.not_virtual_of_writable h

/-- A path hides its own name only if an access is made by that name. -/
theorem Eval.keepsRoot_of_ne {s : State} {name member : String} (h : member ≠ name)
    (span span' : Span) : Eval.KeepsRoot s (.member span (.identifier span' name) member) := by
  intro n r s₁ hrun o _ hne
  refine Eval.own?_evaluate_path (.member span member (.identifier span' name)) hne ?_ hrun
  intro y hy
  generalize hroot : Expr.root _ = root at hy
  cases hy with
  | earlier _ _ hearlier => cases hearlier
  | last => exact absurd hroot.symm h

/-- What a source text gives, as a text. -/
def Outcome.report : Outcome (Except RunError Value) → String
  | .ok (.ok v) s => s.text v
  | .ok (.error e) s => e.message s
  | _ => ""

/-- The member `sys.n`, which a new interpreter does not have yet. -/
def Expr.newMember : Expr :=
  .member {} (.identifier {} "sys") "n"

open Host in
/-- In `sys.n += (sys.n = 40)` the old value is read when the new one is there already. The same holds
where a scope is exposed, as `n` does not hide `sys`. -/
theorem compound_assignment_expands_at_new_member :
    (∀ s, s = State.initial default ∨ s = exposing.ready →
      Eval.evaluate 4 (.assign {} .add .newMember (.assign {} .assign .newMember (.integer {} 40))) s =
        Eval.evaluate 5 (.assign {} .assign .newMember (.binary {} .add .newMember
          (.assign {} .assign .newMember (.integer {} 40)))) s) ∧
      ∃ r s', Eval.evaluate 4 (.assign {} .add .newMember
          (.assign {} .assign .newMember (.integer {} 40))) (State.initial default) =
        .ok (.reference r) s' ∧ (s'.slot r.slot).value = .int 80 := by
  have hpath : Expr.newMember.IsPath := .member {} "n" (.identifier {} "sys")
  constructor
  · rintro s (rfl | rfl)
    · have hreached : (State.initial default).Reached := .between (.new none none default)
      have havoids : Eval.AvoidsVirtual (State.initial default) .newMember :=
        Eval.avoidsVirtual_of_writable (by decide +kernel) {} {} "n"
      exact compound_assignment_expands (.inl hreached) .add hpath havoids _ (by decide) {} {} {}
    · have hroot : Eval.KeepsRoot exposing.ready .newMember := Eval.keepsRoot_of_ne (by decide) {} {}
      have havoids : Eval.AvoidsVirtual exposing.ready .newMember :=
        Eval.avoidsVirtual_of_writable (by decide +kernel) {} {} "n"
      exact compound_assignment_expands (.inr ⟨⟨exposing, exposing_reached, .ready⟩, hroot⟩) .add hpath
        havoids _ (by decide) {} {} {}
  · exact ⟨_, _, rfl, by decide +kernel⟩

open Host in
/-- Where the scope of a call is exposed as `g`, the target `g.g` gives the scope a name `g` of its own,
so that `g` stands for a new member when it is evaluated again. Besides, a right side that is no factor
has to stand in brackets when it is written out. -/
theorem compound_assignment_differs :
    exposing.Reached (fun _ => True) ∧
      Eval.AvoidsVirtual exposing.ready (.member {} (.identifier {} "g") "g") ∧
      (Eval.run 20 "g.g += 1" .included exposing.ready).report = "1" ∧
      (Eval.run 20 "g.g = g.g + 1" .included exposing.ready).report =
        "uncaught exception: Exception: Cannot convert undefined to object" ∧
      (Eval.run 20 "let x = 5; x -= 1 - 1; x" .included (State.initial default)).report = "5" ∧
      (Eval.run 20 "let x = 5; x = x - 1 - 1; x" .included (State.initial default)).report = "3" ∧
      (Eval.run 20 "let x = 5; x = x - (1 - 1); x" .included (State.initial default)).report = "5" := by
  have havoids : Eval.AvoidsVirtual exposing.ready (.member {} (.identifier {} "g") "g") :=
    Eval.avoidsVirtual_of_writable (by decide +kernel) {} {} "g"
  exact ⟨exposing_reached, havoids, by decide +kernel, by decide +kernel, by decide +kernel,
    by decide +kernel, by decide +kernel⟩

end Scripting
