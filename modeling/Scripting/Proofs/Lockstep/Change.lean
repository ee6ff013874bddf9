import Scripting.Proofs.Lockstep.Sight

/-!
The primitive changes of the state keep two runs in lockstep: new objects, exceptions, members, names
and written text.
-/

namespace Scripting.Lockstep.Core

variable {R : Lockstep} {α β : Type} {σ : Duo} (L : R.Core) {Q : Duo → α → β → Prop} {o : ObjectId}
include L

/-! New objects. -/

/-- Both runs give a new object the same identifier. -/
theorem addObject_fst (object object' : Object) (hs : R.inv σ) :
    (σ.left.addObject object).1 = (σ.right.addObject object').1 := by
  rw [State.addObject, State.addObject, L.size hs]

theorem newString (text : String) (hs : R.inv σ) :
    R.Step σ (σ.map fun s => (s.newString text).2) ∧
      R.stored (σ.map fun s => (s.newString text).2) (.object (σ.left.newString text).1) :=
  L.make hs (.same (.string text) nofun)

/-- An exception object gets its text as a member. -/
theorem newException {c : ClassId} {message : String} (hs : R.inv σ)
    (hm : σ.left.Makes (fun _ => True)
      { classId := some c, payload := .exception ⟨message, σ.left.backtrace⟩ }) :
    R.Step σ (σ.map fun s => (s.newException c message).2) ∧
      R.stored (σ.map fun s => (s.newException c message).2)
        (.object (σ.left.newException c message).1) := by
  generalize hobject : Object.mk (some c) {} (.exception ⟨message, σ.left.backtrace⟩) = object at hm
  have hscripts : object.Scripts fun _ => False := by
    rw [← hobject]
    exact nofun
  obtain ⟨hnew, ho⟩ := L.make hs (.same hm hscripts)
  obtain ⟨hstring, htext⟩ := L.newString message hnew.inv
  have ho' := L.stored_mono hstring.leads ho
  obtain ⟨hbind, -⟩ := L.extend "message" false hstring.inv ho' htext
  have hall := L.step_trans hnew (L.step_trans hstring hbind)
  have hsame : σ.map (fun s => (s.newException c message).2) =
      (((σ.map fun s => (s.addObject object).2).map fun s => (s.newString message).2).map fun s =>
        (s.allocate ⟨σ.left.objects.size⟩ "message" (.object ⟨σ.left.objects.size + 1⟩) false).2) := by
    simp [Duo.map, State.newException, State.newString, State.addObject, ← hobject,
      L.backtrace hs, L.size hs]
  rw [hsame]
  have hid : σ.left.objects.size + 1 = (σ.left.objects.push object).size := by simp
  rw [hid]
  exact ⟨hall, L.stored_mono hbind.leads ho'⟩

theorem throwOf {c : ClassId} (message : String) (hs : R.inv σ)
    (hc : c = .exception ∨ c = .syntaxError) :
    R.Keeps σ Q (Eval.throwOf c message) (Eval.throwOf c message) := by
  obtain ⟨hstep, ho⟩ := L.newException hs (.fault c message hc)
  have hid : (σ.left.newException c message).1 = (σ.right.newException c message).1 :=
    congrArg ObjectId.mk (L.size hs)
  have hback : (σ.left.newException c message).2.backtrace =
    (σ.right.newException c message).2.backtrace := L.backtrace hs
  refine hstep.throws ?_ (L.raise hstep.inv ho)
  exact congr (congrArg Exception.mk (congrArg Value.object hid)) hback

theorem fail (fault : Fault) (hs : R.inv σ) : R.Keeps σ Q (Eval.fail fault) (Eval.fail fault) :=
  L.throwOf fault.message hs (.inl rfl)

theorem rethrow {e : Exception} (hs : R.inv σ) (he : R.raised σ e) :
    R.Keeps σ Q (Eval.rethrow e) (Eval.rethrow e) :=
  .thrown hs (L.refl σ) he

theorem throwValue {v v' : Value} (hs : R.inv σ) (hv : R.good σ v v') :
    R.Keeps σ Q (Eval.throwValue v) (Eval.throwValue v') := by
  have hraised := L.raise hs (L.stored_deref hs hv)
  exact (L.step_refl hs).throws (by rw [L.deref hs hv, L.backtrace hs]) hraised

theorem newStringValue (text : String) (hs : R.inv σ) :
    R.Keeps σ (Alike R.stored) (Eval.newString text) (Eval.newString text) := by
  obtain ⟨hstep, ho⟩ := L.newString text hs
  have hid : (σ.left.newString text).1 = (σ.right.newString text).1 := L.addObject_fst _ _ hs
  exact .ok hstep.inv hstep.leads ⟨congrArg Value.object hid, ho⟩

/-! The lives of classes. -/

theorem settleAll (hs : R.inv σ) : R.Step σ (σ.map State.settle) := by
  rw [Duo.map_congr (g := (·.settleAmong σ.left.mortal)) rfl (by rw [State.settle, L.mortal hs])]
  exact L.settle _ hs

theorem settleLineage (c : ClassId) (hs : R.inv σ) : R.Step σ (σ.map (·.settleLineage c)) := by
  have hmortal := L.mortal hs
  by_cases hempty : σ.left.mortal.isEmpty
  · rw [Duo.map_congr (g := id) (by simp [State.settleLineage, hempty])
      (by simp [State.settleLineage, ← hmortal, hempty])]
    exact L.step_refl hs
  · rw [Duo.map_congr (g := (·.settleAmong (σ.left.lineage c).tail))
      (by simp [State.settleLineage, hempty])
      (by simp [State.settleLineage, State.lineage_congr (L.classes hs), ← hmortal, hempty])]
    exact L.settle _ hs

theorem settleObject (hs : R.inv σ) (ho : R.stored σ (.object o)) :
    R.Step σ (σ.map (·.settleObject o)) := by
  have hclass := L.classId hs ho
  cases hc : (σ.left.object o).classId with
  | none =>
    rw [hc] at hclass
    rw [Duo.map_congr (g := id) (by simp [State.settleObject, hc])
      (by simp [State.settleObject, ← hclass])]
    exact L.step_refl hs
  | some c =>
    rw [hc] at hclass
    rw [Duo.map_congr (g := (·.settleLineage c)) (by simp [State.settleObject, hc])
      (by simp [State.settleObject, ← hclass])]
    exact L.settleLineage c hs

theorem settling (hs : R.inv σ) (ho : R.stored σ (.object o)) :
    R.Keeps σ (fun _ _ _ => True) (Eval.settleObject o) (Eval.settleObject o) := by
  apply L.holding hs (.value (L.good_of_stored ho))
  · intro τ hτ hl
    exact (L.settleObject hτ (L.stored_mono hl ho)).change trivial
  · exact fun _ _ _ _ _ h => h

/-- Both runs see the same when it is settled which classes are alive. -/
theorem survey {f : State → α} (hs : R.inv σ)
    (hf : ∀ τ, R.inv τ → R.leads σ τ → f τ.left = f τ.right) :
    R.Keeps σ (Alike fun _ _ => True) (Eval.survey f) (Eval.survey f) := by
  have hstep := L.settleAll hs
  exact .ok hstep.inv hstep.leads ⟨hf _ hstep.inv hstep.leads, trivial⟩

/-! Members and names. -/

theorem peek (name : String) (hs : R.inv σ) (ho : R.stored σ (.object o)) :
    R.Step σ (σ.map fun s => (s.peek o name).2) ∧
      Option.Rel (R.Refers (σ.map fun s => (s.peek o name).2) (some o) name)
        (σ.left.peek o name).1 (σ.right.peek o name).1 := by
  have hmethod := L.objectMethod? hs ho name
  cases hf : σ.left.objectMethod? o name with
  | some f =>
    rw [hf] at hmethod
    obtain ⟨hstep, hgood⟩ := L.method hs ho hf
    simp only [Duo.map, State.peek, hf, ← hmethod]
    exact ⟨hstep, .some hgood⟩
  | none =>
    rw [hf] at hmethod
    simp only [Duo.map, State.peek, hf, ← hmethod]
    exact ⟨L.step_refl hs, L.own name hs ho⟩

theorem member (name : String) (hs : R.inv σ) (ho : R.stored σ (.object o)) :
    R.Step σ (σ.map fun s => (s.member o name).2) ∧
      R.good (σ.map fun s => (s.member o name).2) (.reference (σ.left.member o name).1)
        (.reference (σ.right.member o name).1) := by
  obtain ⟨hstep, hrel⟩ := L.peek name hs ho
  simp only [Duo.map] at hstep hrel ⊢
  cases hleft : σ.left.peek o name with
  | mk found s =>
    cases hright : σ.right.peek o name with
    | mk found' t =>
      rw [hleft, hright] at hstep hrel
      simp only [State.member, hleft, hright]
      cases hrel with
      | some hgood => exact ⟨hstep, hgood⟩
      | none =>
        have ho' := L.stored_mono hstep.leads ho
        have hundefined : R.stored ⟨s, t⟩ .undefined := L.literal _ trivial
        obtain ⟨hnew, hgood⟩ := L.extend name false hstep.inv ho' hundefined
        exact ⟨L.step_trans hstep hnew, hgood⟩

theorem memberOf (name : String) (hs : R.inv σ) (ho : R.stored σ (.object o)) :
    R.Keeps σ (fun τ r r' => R.good τ (.reference r) (.reference r')) (Eval.memberOf o name)
      (Eval.memberOf o name) := by
  unfold Eval.memberOf
  apply L.bind (L.settling hs ho)
  intro _ _ τ hτ hl _
  obtain ⟨hstep, hgood⟩ := L.member name hτ (L.stored_mono hl ho)
  exact hstep.update hgood

theorem peekAt (name : String) (hs : R.inv σ) (ho : R.stored σ (.object o)) :
    R.Keeps σ (fun τ => Option.Rel (R.Refers τ (some o) name)) (Eval.peekAt o name)
      (Eval.peekAt o name) := by
  unfold Eval.peekAt
  apply L.bind (L.settling hs ho)
  intro _ _ τ hτ hl _
  obtain ⟨hstep, hgood⟩ := L.peek name hτ (L.stored_mono hl ho)
  exact hstep.update hgood

theorem resolve (name : String) (hs : R.inv σ) :
    R.Keeps σ (fun τ r r' => R.good τ (.reference r) (.reference r')) (Eval.resolve name)
      (Eval.resolve name) := by
  unfold Eval.resolve
  apply Keeps.look (L.global hs)
  apply L.bind (L.settling hs (L.stored_global hs))
  intro _ _ τ hτ _ _
  have hfound := L.found name hτ
  have hglobal := L.global hτ
  change R.Ends τ _ (.ok (τ.left.resolve name).1 (τ.left.resolve name).2)
    (.ok (τ.right.resolve name).1 (τ.right.resolve name).2)
  unfold State.resolve
  rw [← hglobal]
  generalize τ.left.findScope name (τ.left.objects.size + 1) τ.left.currentScope = p at hfound ⊢
  generalize τ.right.findScope name (τ.right.objects.size + 1) τ.right.currentScope = p' at hfound ⊢
  cases hfound with
  | @some p p' h =>
    obtain ⟨scope, i⟩ := p
    obtain ⟨scope', i'⟩ := p'
    obtain ⟨rfl, hgood⟩ := h
    exact .ok hτ (L.refl τ) hgood
  | none =>
    obtain ⟨hstep, hgood⟩ := L.member name hτ (L.stored_global hτ)
    exact .ok hstep.inv hstep.leads hgood

/-! Streams. -/

theorem offer (text : String) (hs : R.inv σ) :
    R.Keeps σ (Alike fun _ _ => True) (Eval.offer text) (Eval.offer text) := by
  have hrefuses : σ.left.output.refuses text = σ.right.output.refuses text := by
    rw [L.output hs]
  unfold Keeps Eval.offer
  rw [← hrefuses]
  cases σ.left.output.refuses text with
  | true => exact .ok hs (L.refl σ) ⟨rfl, trivial⟩
  | false =>
    have hstep := L.append text hs
    exact .ok hstep.inv hstep.leads ⟨rfl, trivial⟩

theorem offerError (text : String) (hs : R.inv σ) :
    R.Keeps σ (Alike fun _ _ => True) (Eval.offerError text) (Eval.offerError text) := by
  have hrefuses : σ.left.errorOutput.refuses text = σ.right.errorOutput.refuses text := by
    rw [L.errorOutput hs]
  unfold Keeps Eval.offerError
  rw [← hrefuses]
  cases σ.left.errorOutput.refuses text with
  | true => exact .ok hs (L.refl σ) ⟨rfl, trivial⟩
  | false =>
    have hstep := L.appendError text hs
    exact .ok hstep.inv hstep.leads ⟨rfl, trivial⟩

theorem writeText (text : String) (hs : R.inv σ) :
    R.Keeps σ (fun _ _ _ => True) (Eval.write text) (Eval.write text) := by
  unfold Eval.write
  apply L.next (L.offer text hs)
  intro taken τ hτ _ _
  cases taken with
  | true => exact L.pure hτ trivial
  | false => exact L.fail _ hτ

theorem writeError (text : String) (hs : R.inv σ) :
    R.Keeps σ (fun _ _ _ => True) (Eval.writeError text) (Eval.writeError text) := by
  unfold Eval.writeError
  apply L.next (L.offerError text hs)
  intro taken τ hτ _ _
  cases taken with
  | true => exact L.pure hτ trivial
  | false => exact L.fail _ hτ

/-- What both runs read in a file may be run. -/
theorem readFile (path : String) (hs : R.inv σ) :
    R.Keeps σ (Alike fun _ answer => ∀ source, answer = .ok source → R.text source)
      (Eval.readFile path) (Eval.readFile path) := by
  unfold Keeps Eval.readFile
  rcases L.files path hs with hsame | ⟨hleft, hlacks⟩
  · rw [← hsame]
    cases hanswer : σ.left.files.read path with
    | some answer =>
      refine .ok hs (L.refl σ) ⟨rfl, ?_⟩
      rintro source rfl
      exact L.text_of_file hs hanswer
    | none => exact .needsFile path
  · rw [hleft]
    exact .lacking hlacks

end Scripting.Lockstep.Core

namespace Scripting.Lockstep

/-- A value is bound to a name in the current scope. -/
theorem Inner.declare {R : Lockstep} {σ : Duo} (L : R.Inner) {v : Value} (name : String)
    (readOnly : Bool) (hs : R.inv σ) (hv : R.stored σ v) :
    R.Step σ (σ.map fun s => (s.allocate s.currentScope name v readOnly).2) := by
  rw [Duo.map_congr (g := fun s => (s.allocate σ.left.currentScope name v readOnly).2) rfl
    (by rw [L.scope hs])]
  exact (L.allocate name readOnly hs (.inl rfl) hv).1

end Scripting.Lockstep
