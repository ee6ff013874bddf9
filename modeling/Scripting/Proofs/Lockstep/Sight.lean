import Scripting.Proofs.Lockstep.Rules

/-!
Two runs in lockstep see the same: the classes and texts of objects, the texts of values, what is
echoed and reported, and the names of calls.
-/

namespace Scripting

/-! What a call is called depends on the function, and on how it was found. -/

theorem Value.FoundAlike.containerOf {v w : Value} (h : v.FoundAlike w) :
    Eval.containerOf v = Eval.containerOf w := by
  rcases h with rfl | ⟨r, r', rfl, rfl, hcontainer, -⟩
  · rfl
  · exact hcontainer

theorem Value.FoundAlike.frameName {v w : Value} (h : v.FoundAlike w) {s t : State}
    {callee : ObjectId} (hcallee : (s.object callee).functionName? = (t.object callee).functionName?)
    (hcontainer : ∀ o, Eval.containerOf v = some o → s.typeName o = t.typeName o) :
    Eval.frameName s v callee (Eval.containerOf v) =
      Eval.frameName t w callee (Eval.containerOf w) := by
  have hname : Eval.calleeName s v callee = Eval.calleeName t w callee := by
    unfold Eval.calleeName
    rw [← hcallee]
    rcases h with rfl | ⟨r, r', rfl, rfl, -, hname⟩
    · rfl
    · cases (s.object callee).functionName? with
      | some name => rfl
      | none => simp only [hname]
  unfold Eval.frameName
  rw [← h.containerOf, ← hname]
  cases ho : Eval.containerOf v with
  | none => rfl
  | some o => simp only [hcontainer o ho]

/-- What does not depend on the functions is the same for two related payloads. -/
theorem Payload.Pairs.eq {α : Type} {r : FunctionDef → FunctionDef → Prop} {x y : Payload}
    {f : Payload → α} (h : x.Pairs r y) (hf : ∀ c c', f (.function c) = f (.function c')) :
    f x = f y := by
  cases h with
  | function _ => exact hf _ _
  | other _ _ => rfl

/-! What depends on the classes only. -/

namespace State

variable {s t : State}

theorem classInfo_congr (h : s.classes = t.classes) (c : ClassId) :
    s.classInfo c = t.classInfo c := by
  rw [classInfo, classInfo, h]

theorem lineageUpTo_congr (h : s.classes = t.classes) (n : Nat) (c : ClassId) :
    s.lineageUpTo n c = t.lineageUpTo n c := by
  induction n generalizing c with
  | zero => rfl
  | succ n ih =>
    have hbase : s.base? c = t.base? c := by
      simp only [base?, classInfo_congr h]
    simp only [lineageUpTo, hbase, ih]

theorem lineage_congr (h : s.classes = t.classes) (c : ClassId) : s.lineage c = t.lineage c := by
  rw [lineage, lineage, h, lineageUpTo_congr h]

theorem method?_congr (h : s.classes = t.classes) (c : ClassId) (name : String) :
    s.method? c name = t.method? c name := by
  simp only [method?, lineage_congr h, classInfo_congr h]

/-- A virtual member depends on the classes and on the class of the object. -/
theorem objectMethod?_congr (s s' : State) {o : ObjectId} (h : s'.classes = s.classes)
    (hclass : (s'.object o).classId = (s.object o).classId) (name : String) :
    s'.objectMethod? o name = s.objectMethod? o name := by
  unfold objectMethod?
  rw [hclass]
  simp only [method?_congr h]

theorem methodNames_congr (h : s.classes = t.classes) (c : ClassId) :
    s.methodNames c = t.methodNames c := by
  simp only [methodNames, lineage_congr h, classInfo_congr h]

end State

namespace Lockstep

variable {R : Lockstep} {σ : Duo}

namespace Sighted

variable (L : R.Sighted)
include L

section
variable {o : ObjectId} (hs : R.inv σ) (ho : R.stored σ (.object o))
include hs ho

theorem classOf? : σ.left.classOf? o = σ.right.classOf? o := by
  unfold State.classOf?
  rw [L.classId hs ho]
  congr 1
  funext c
  exact State.classInfo_congr (L.classes hs) c

theorem typeName : σ.left.typeName o = σ.right.typeName o := by
  rw [State.typeName, State.typeName, L.classOf? hs ho]

theorem behavior? : σ.left.behavior? o = σ.right.behavior? o := by
  rw [State.behavior?, State.behavior?, L.classOf? hs ho]

theorem objectMethod? (name : String) :
    σ.left.objectMethod? o name = σ.right.objectMethod? o name := by
  simp only [State.objectMethod?, L.classId hs ho, State.method?_congr (L.classes hs)]

theorem isInstanceOf (c : ClassId) : σ.left.isInstanceOf o c = σ.right.isInstanceOf o c := by
  simp only [State.isInstanceOf, State.derivesFrom, L.classId hs ho,
    State.lineage_congr (L.classes hs)]

theorem objectString : (σ.left.object o).text = (σ.right.object o).text :=
  (L.payload hs ho).eq (f := fun payload => Object.text { payload }) fun _ _ => rfl

theorem callable? : Option.Rel (Callable.Pairs (FunctionDef.Pairs R.stmt))
    (σ.left.object o).callable? (σ.right.object o).callable? := by
  have hpayload := L.payload hs ho
  unfold Object.callable?
  generalize (σ.left.object o).payload = x at hpayload ⊢
  generalize (σ.right.object o).payload = y at hpayload ⊢
  cases hpayload with
  | function h => exact .some h
  | other _ h =>
    cases x with
    | function f => exact absurd rfl (h f)
    | _ => exact .none

theorem functionName? : (σ.left.object o).functionName? = (σ.right.object o).functionName? := by
  have hcallable := L.callable? hs ho
  unfold Object.functionName?
  generalize (σ.left.object o).callable? = x at hcallable ⊢
  generalize (σ.right.object o).callable? = y at hcallable ⊢
  cases hcallable with
  | none => rfl
  | some h =>
    cases h with
    | native f => rfl
    | script h => exact h.name

theorem wrapped? : (σ.left.object o).wrapped? = (σ.right.object o).wrapped? :=
  (L.payload hs ho).eq (f := fun payload => Object.wrapped? { payload }) fun _ _ => rfl

theorem exception? : (σ.left.object o).exception? = (σ.right.object o).exception? :=
  (L.payload hs ho).eq (f := fun payload => Object.exception? { payload }) fun _ _ => rfl

theorem hostInt? : (σ.left.object o).hostInt? = (σ.right.object o).hostInt? :=
  (L.payload hs ho).eq (f := fun payload => Object.hostInt? { payload }) fun _ _ => rfl

theorem objectText : σ.left.objectText o = σ.right.objectText o := by
  simp only [State.objectText, L.behavior? hs ho, L.typeName hs ho, L.objectString hs ho,
    L.functionName? hs ho, L.exception? hs ho, L.wrapped? hs ho, L.hostInt? hs ho,
    State.classInfo_congr (L.classes hs)]

theorem brief : σ.left.brief o = σ.right.brief o := by
  have hcallable := L.callable? hs ho
  simp only [State.brief, L.behavior? hs ho, L.typeName hs ho, L.objectString hs ho,
    L.functionName? hs ho, L.objectText hs ho, L.wrapped? hs ho, State.classInfo_congr (L.classes hs)]
  generalize (σ.left.object o).callable? = x at hcallable ⊢
  generalize (σ.right.object o).callable? = y at hcallable ⊢
  cases hcallable with
  | none => rfl
  | some h => cases h <;> rfl

end

theorem text {v v' : Value} (hs : R.inv σ) (hv : R.good σ v v') :
    σ.left.text v = σ.right.text v' := by
  have hd := L.stored_deref hs hv
  unfold State.text
  rw [← L.deref hs hv]
  generalize σ.left.deref v = d at hd
  cases d with
  | object o => exact L.objectText hs hd
  | _ => rfl

theorem storedText {v : Value} (hs : R.inv σ) (hv : R.stored σ v) :
    σ.left.text v = σ.right.text v :=
  L.text hs (L.good_of_stored hv)

theorem truth {v v' : Value} (hs : R.inv σ) (hv : R.good σ v v') :
    σ.left.truth v = σ.right.truth v' := by
  rw [State.truth, State.truth, L.deref hs hv]

theorem joinedText {args : List Value} (hs : R.inv σ) (hargs : ∀ a ∈ args, R.stored σ a) :
    Eval.joinedText σ.left args = Eval.joinedText σ.right args := by
  have hmap : args.map σ.left.text = args.map σ.right.text :=
    List.map_congr_left fun a ha => L.storedText hs (hargs a ha)
  rw [Eval.joinedText, Eval.joinedText, hmap]

end Sighted

namespace Core

variable (L : R.Core)
include L

theorem detailed {o : ObjectId} (hs : R.inv σ) (ho : R.stored σ (.object o)) :
    σ.left.detailed o = σ.right.detailed o := by
  simp only [State.detailed, L.behavior? hs ho, L.brief hs ho, L.objectText hs ho,
    L.exception? hs ho, L.typeName hs ho, L.members hs ho]

theorem echo {v : Value} (hs : R.inv σ) (hv : R.stored σ v) : σ.left.echo v = σ.right.echo v := by
  have hgood := L.good_of_stored hv
  have hd := L.stored_deref hs hgood
  unfold State.echo
  rw [← L.deref hs hgood]
  generalize σ.left.deref v = d at hd
  cases d with
  | object o => exact L.detailed hs hd
  | _ => exact L.storedText hs hd

theorem report {e : Exception} (hs : R.inv σ) (he : R.stored σ e.value) :
    σ.left.report e = σ.right.report e := by
  have hdata : σ.left.exceptionData? e = σ.right.exceptionData? e := by
    unfold State.exceptionData?
    generalize e.value = v at he
    cases v with
    | object o => exact L.exception? hs he
    | _ => rfl
  have htype : σ.left.exceptionType e = σ.right.exceptionType e := by
    unfold State.exceptionType
    generalize e.value = v at he
    cases v with
    | object o => exact L.typeName hs he
    | _ => rfl
  simp only [State.report, State.exceptionText, State.exceptionMessage, hdata, htype,
    L.storedText hs he, L.echo hs he]

theorem stored_containerOf {v v' : Value} {o : ObjectId} (hv : R.good σ v v')
    (ho : Eval.containerOf v = some o) : R.stored σ (.object o) := by
  cases v with
  | reference r => exact L.container hv ho
  | _ => cases ho

/-- Both calls have the same name. -/
theorem frameName {v v' : Value} {callee : ObjectId} (hs : R.inv σ) (hv : R.good σ v v')
    (hcallee : R.stored σ (.object callee)) :
    Eval.frameName σ.left v callee (Eval.containerOf v) =
      Eval.frameName σ.right v' callee (Eval.containerOf v') :=
  (L.reference hv).frameName (L.functionName? hs hcallee) fun _ ho =>
    L.typeName hs (L.stored_containerOf hv ho)

end Core

end Lockstep

end Scripting
