import Scripting.Proofs.Discipline.Restriction
import Scripting.Proofs.Isolation.Sealed

/-!
Objects and the payloads that their classes expect.

Scripts make an object of a class only through a wrapper of that class, and only four classes have one.
None of them is the class of functions or of wrappers, and what is made of the others has its payload
from the start. So in all states of an interpreter a class tells the payload (`State.Fitted`), and an
instance of a class that nothing derives from is an object of that very class.
-/

namespace Scripting

variable {c : ClassId}

/-- An object carries the payload that its class expects, and no class expects local names. -/
structure Object.Fits (object : Object) : Prop where
  string : object.classId = some .string → ∃ text, object.payload = .string text
  function : object.classId = some .function → ∃ callable, object.payload = .function callable
  wrapper : object.classId = some .wrapper → ∃ c, object.payload = .wrapped c
  exception : object.classId = some .exception ∨ object.classId = some .syntaxError →
    ∃ data, object.payload = .exception data
  scope : ∀ parent, object.payload = .scope parent → object.classId = none

namespace Object.Fits

theorem of_no_class (payload : Payload) : Object.Fits ⟨none, ∅, payload⟩ :=
  ⟨nofun, nofun, nofun, nofun, fun _ _ => rfl⟩

theorem of_string (text : String) : Object.Fits ⟨some .string, ∅, .string text⟩ :=
  ⟨fun _ => ⟨text, rfl⟩, nofun, nofun, nofun, nofun⟩

theorem of_function (callable : Callable) : Object.Fits ⟨some .function, ∅, .function callable⟩ :=
  ⟨nofun, fun _ => ⟨callable, rfl⟩, nofun, nofun, nofun⟩

theorem of_wrapper (c : ClassId) : Object.Fits ⟨some .wrapper, ∅, .wrapped c⟩ :=
  ⟨nofun, nofun, fun _ => ⟨c, rfl⟩, nofun, nofun⟩

theorem of_exception (h : c = .exception ∨ c = .syntaxError) (data : ExceptionData) :
    Object.Fits ⟨some c, ∅, .exception data⟩ := by
  rcases h with rfl | rfl
  · exact ⟨nofun, nofun, nofun, fun _ => ⟨data, rfl⟩, nofun⟩
  · exact ⟨nofun, nofun, nofun, fun _ => ⟨data, rfl⟩, nofun⟩

/-- Instances of other classes carry nothing. -/
theorem of_plain (h : c = .object ∨ c = .global ∨ c = .system) :
    Object.Fits ⟨some c, ∅, .none⟩ := by
  rcases h with rfl | rfl | rfl <;> exact ⟨nofun, nofun, nofun, nofun, nofun⟩

theorem congr {object object' : Object} (h : object.Fits) (hclass : object'.classId = object.classId)
    (hpayload : object'.payload = object.payload) : object'.Fits := by
  obtain ⟨hstring, hfunction, hwrapper, hexception, hscope⟩ := h
  rw [← hclass, ← hpayload] at *
  exact ⟨hstring, hfunction, hwrapper, hexception, hscope⟩

end Object.Fits

/-- Wrappers stand for classes that have a global name, and functions that are shared among the instances
of a class require it. -/
def Payload.Admissible : Payload → Prop
  | .wrapped c => c ∈ namedClasses
  | .function (.native f) =>
    ∀ builtin, f.callback = .builtin builtin → f.required = builtin.owner?
  | _ => True

/-- A class without its virtual members. -/
def Class.withoutMethods (c : Class) : Class :=
  { c with methods := ∅ }

namespace State

variable {o : ObjectId}

/-- Every object carries what its class expects, and the classes are those of a new interpreter. -/
structure Fitted (s : State) : Prop where
  objects : ∀ o, (s.object o).Fits
  payloads : ∀ o, (s.object o).payload.Admissible
  classes : ∀ c, (s.classInfo c).withoutMethods = initialClasses.getD c.index default

theorem exists_of_behavior? {s : State} {behavior : Behavior} (h : s.behavior? o = some behavior) :
    ∃ c, (s.object o).classId = some c ∧ (s.classInfo c).behavior = behavior := by
  unfold behavior? classOf? at h
  cases hc : (s.object o).classId with
  | none =>
    rw [hc] at h
    cases h
  | some c =>
    rw [hc] at h
    cases h
    exact ⟨c, rfl, rfl⟩

/-- What holds of the eight classes of a new interpreter, and of no class. -/
theorem forall_initialClasses {P : ClassId → Class → Prop}
    (h : ∀ i < builtinClassCount, P ⟨i⟩ (initialClasses.getD i default)) (hnone : ∀ c, P c default)
    (c : ClassId) : P c (initialClasses.getD c.index default) := by
  by_cases hc : c.index < builtinClassCount
  · exact h c.index hc
  · have hsize : ¬c.index < initialClasses.size := hc
    simp only [Array.getD, hsize, dite_false]
    exact hnone c

theorem eq_function_of_behavior (h : (initialClasses.getD c.index default).behavior = .function) :
    c = .function :=
  forall_initialClasses (P := fun c info => info.behavior = .function → c = .function) (by decide)
    nofun c h

theorem eq_string_of_behavior (h : (initialClasses.getD c.index default).behavior = .string) :
    c = .string :=
  forall_initialClasses (P := fun c info => info.behavior = .string → c = .string) (by decide)
    nofun c h

/-- Of the classes that have a global name, those of exceptions have exceptions for instances. -/
theorem eq_exception_of_named (hc : c ∈ namedClasses)
    (h : (initialClasses.getD c.index default).behavior = .exception) :
    c = .exception ∨ c = .syntaxError := by
  revert c
  decide

theorem eq_object_of_named (hc : c ∈ namedClasses)
    (hstring : (initialClasses.getD c.index default).behavior ≠ .string)
    (hexception : (initialClasses.getD c.index default).behavior ≠ .exception) : c = .object := by
  revert c
  decide

theorem behavior_ne_tally (hc : c ∈ namedClasses) :
    (initialClasses.getD c.index default).behavior ≠ .tally := by
  revert c
  decide

theorem eq_of_base {c b : ClassId} (h : (initialClasses.getD c.index default).base = some b) :
    b = .object ∨ b = .exception := by
  have hbase : (initialClasses.getD c.index default).base ∈ [none, some .object, some .exception] :=
    forall_initialClasses (P := fun _ info => info.base ∈ [none, some .object, some .exception])
      (by decide) (fun _ => by decide) c
  rw [h] at hbase
  simpa using hbase

/-- A chain of bases goes through classes that something derives from. -/
theorem eq_or_base_of_mem_lineageUpTo {s : State} {n : Nat} {c d : ClassId}
    (h : d ∈ s.lineageUpTo n c) : d = c ∨ ∃ k, (s.classInfo k).base = some d := by
  induction n generalizing c with
  | zero => cases h
  | succ n ih =>
    rcases List.mem_cons.1 h with rfl | h
    · exact .inl rfl
    · cases hb : s.base? c with
      | none =>
        rw [hb] at h
        cases h
      | some b =>
        rw [hb] at h
        rcases ih h with rfl | hk
        · exact .inr ⟨c, (base_of_base? hb).1⟩
        · exact .inr hk

namespace Fitted

variable {s s' : State}

section
variable (hs : s.Fitted)
include hs

theorem of_objects (hclasses : s'.classes = s.classes)
    (hclassId : ∀ o, (s'.object o).classId = (s.object o).classId)
    (hpayload : ∀ o, (s'.object o).payload = (s.object o).payload) : s'.Fitted where
  objects o := (hs.objects o).congr (hclassId o) (hpayload o)
  payloads o := hpayload o ▸ hs.payloads o
  classes c := by
    rw [classInfo, hclasses]
    exact hs.classes c

theorem of_heap (hclasses : s'.classes = s.classes) (hobjects : s'.objects = s.objects) :
    s'.Fitted := by
  have hobject : ∀ o, s'.object o = s.object o := fun o => by rw [object, object, hobjects]
  exact hs.of_objects hclasses (fun o => by rw [hobject]) fun o => by rw [hobject]

theorem addObject {object : Object} (h : object.Fits) (hpayload : object.payload.Admissible) :
    (s.addObject object).2.Fitted := by
  refine ⟨fun o => ?_, fun o => ?_, hs.classes⟩ <;> rw [object_addObject] <;> split
  · exact h
  · exact hs.objects o
  · exact hpayload
  · exact hs.payloads o

theorem scope (parent : Option ObjectId) : (s.addObject { payload := .scope parent }).2.Fitted :=
  hs.addObject (.of_no_class _) trivial

theorem allocate (o : ObjectId) (name : String) (v : Value) (readOnly : Bool) :
    (s.allocate o name v readOnly).2.Fitted :=
  hs.of_objects rfl (fun o' => classId_allocate s o o' name v readOnly)
    fun o' => payload_allocate s o o' name v readOnly

theorem bindMethod (c : ClassId) (name : String) (f : ObjectId) : (s.bindMethod c name f).Fitted where
  objects := hs.objects
  payloads := hs.payloads
  classes c' := by
    rw [← hs.classes c', classInfo_bindMethod]
    split <;> rfl

/-! What follows from the class of an object. -/

theorem behavior_eq (c : ClassId) :
    (s.classInfo c).behavior = (initialClasses.getD c.index default).behavior := by
  rw [← hs.classes c]
  rfl

theorem base_eq (c : ClassId) :
    (s.classInfo c).base = (initialClasses.getD c.index default).base := by
  rw [← hs.classes c]
  rfl

theorem alive_eq (c : ClassId) :
    (s.classInfo c).alive = (initialClasses.getD c.index default).alive := by
  rw [← hs.classes c]
  rfl

/-- An object with a behavior that only one class has is an object of that class. -/
theorem classId_of_behavior? {behavior : Behavior}
    (honly : ∀ {d : ClassId}, (initialClasses.getD d.index default).behavior = behavior → d = c)
    (h : s.behavior? o = some behavior) : (s.object o).classId = some c := by
  obtain ⟨d, hd, hbehavior⟩ := exists_of_behavior? h
  rw [hs.behavior_eq] at hbehavior
  rw [hd, honly hbehavior]

/-- An instance of a class that nothing derives from is an object of that very class. -/
theorem classId_of_isInstanceOf (hobject : c ≠ .object) (hexception : c ≠ .exception)
    (h : s.isInstanceOf o c = true) : (s.object o).classId = some c := by
  unfold isInstanceOf at h
  split at h
  · rename_i own hown
    rcases eq_or_base_of_mem_lineageUpTo (List.contains_iff_mem.1 h) with rfl | ⟨k, hk⟩
    · exact hown
    · rw [hs.base_eq] at hk
      rcases eq_of_base hk with rfl | rfl
      · exact absurd rfl hobject
      · exact absurd rfl hexception
  · cases h

theorem callable?_of_behavior? (h : s.behavior? o = some .function) :
    ∃ callable, (s.object o).callable? = some callable := by
  obtain ⟨callable, hpayload⟩ :=
    (hs.objects o).function (hs.classId_of_behavior? eq_function_of_behavior h)
  exact ⟨callable, by rw [Object.callable?, hpayload]⟩

theorem named (h : (s.object o).wrapped? = some c) : c ∈ namedClasses := by
  have hpayload := hs.payloads o
  unfold Object.wrapped? at h
  split at h
  · rename_i hwrapped
    cases h
    rw [hwrapped] at hpayload
    exact hpayload
  · cases h

theorem required_eq {f : NativeFunction} {builtin : Builtin}
    (h : (s.object o).callable? = some (.native f)) (hf : f.callback = .builtin builtin) :
    f.required = builtin.owner? := by
  have hpayload := hs.payloads o
  unfold Object.callable? at h
  split at h
  · rename_i hfunction
    cases h
    rw [hfunction] at hpayload
    exact hpayload builtin hf
  · cases h

theorem wrapped?_of_isInstanceOf (h : s.isInstanceOf o .wrapper = true) :
    ∃ c, (s.object o).wrapped? = some c := by
  have hclass := hs.classId_of_isInstanceOf (by decide) (by decide) h
  obtain ⟨c, hpayload⟩ := (hs.objects o).wrapper hclass
  exact ⟨c, by rw [Object.wrapped?, hpayload]⟩

/-- What running code makes fits. -/
theorem make {code : Stmt → Prop} {object : Object} (h : s.Makes code object) :
    (s.addObject object).2.Fitted := by
  cases h with
  | string text => exact hs.addObject (.of_string text) trivial
  | script definition _ => exact hs.addObject (.of_function _) trivial
  | fault c message hc => exact hs.addObject (.of_exception hc _) trivial
  | exception o c message hwrapped hbehavior =>
    have hc := eq_exception_of_named (hs.named hwrapped) (hs.behavior_eq c ▸ hbehavior)
    exact hs.addObject (.of_exception hc _) trivial
  | tally o c n hwrapped hbehavior =>
    -- such classes are those of a host, and no wrapper stands for one
    rw [hs.behavior_eq] at hbehavior
    exact absurd hbehavior (behavior_ne_tally (hs.named hwrapped))
  | plain o c hwrapped hstring hexception _ =>
    have hc := eq_object_of_named (hs.named hwrapped) (hs.behavior_eq c ▸ hstring)
      (hs.behavior_eq c ▸ hexception)
    exact hs.addObject (.of_plain (.inl hc)) trivial

end

end Fitted

/-- Installing keeps payloads and classes fitted. -/
theorem installs_fitted : Installs Fitted where
  object := by
    intro s object hs h
    cases h with
    | native name builtin =>
      refine hs.addObject (.of_function _) ?_
      rintro builtin' ⟨⟩
      rfl
    | wrapper hc => exact hs.addObject (.of_wrapper _) hc
    | system => exact hs.addObject (.of_plain (.inr (.inr rfl))) trivial
  allocate name readOnly hs _ _ := hs.allocate _ name _ readOnly
  method c name hs _ := hs.bindMethod c name _

/-- The classes of an interpreter to which nothing was added. -/
theorem fitted_of_plain {s : State} {classId : Option ClassId}
    (hclasses : s.classes = initialClasses)
    (hobjects : s.objects = #[⟨classId, ∅, .none⟩, ⟨none, ∅, .none⟩])
    (hclass : classId = none ∨ classId = some .global) : s.Fitted := by
  have hobject : ∀ o, (s.object o).Fits ∧ (s.object o).payload = .none := by
    rintro ⟨i⟩
    match i with
    | 0 =>
      rcases hclass with rfl | rfl
      · simp [object, hobjects, Object.Fits.of_no_class]
      · simp [object, hobjects, Object.Fits.of_plain]
    | 1 => simp [object, hobjects, Object.Fits.of_no_class]
    | i + 2 =>
      rw [object_of_size_le s (by simp [hobjects])]
      exact ⟨.of_no_class .none, rfl⟩
  refine ⟨fun o => (hobject o).1, fun o => ?_, fun c => ?_⟩
  · rw [(hobject o).2]
    trivial
  · rw [classInfo, hclasses, Class.withoutMethods, ← methods_initialClasses c.index]

theorem fitted_bare (globalMarker thisMarker : Option String) (files : Files) :
    (bare globalMarker thisMarker files).Fitted := by
  cases globalMarker <;> cases thisMarker
  · exact fitted_of_plain rfl rfl (.inr rfl)
  · exact (fitted_of_plain rfl rfl (.inr rfl)).allocate ..
  · exact (fitted_of_plain rfl rfl (.inl rfl)).allocate ..
  · exact ((fitted_of_plain rfl rfl (.inl rfl)).allocate ..).allocate ..

theorem fitted_install (globalMarker thisMarker : Option String) (files : Files) :
    (bare globalMarker thisMarker files).install.Fitted :=
  installs_fitted.new (fitted_bare globalMarker thisMarker files)

end State

namespace Discipline

open State

/-- States stay sealed, and objects carry what their classes expect. -/
def fitted : Discipline :=
  sealed.restrict Fitted fun _ => False

theorem fitted_heapLaws : sealed.HeapLaws Fitted fun _ => False where
  of_heap hs hclasses hobjects _ := hs.of_heap hclasses hobjects
  settle classes hsealed hs := by
    rw [settleAmong_eq_self hsealed.immortal]
    exact hs
  make _ hs h := hs.make h
  scope parent hs := hs.scope parent
  addSlot _ hs := hs.of_heap rfl rfl
  allocate o name v readOnly hs := hs.allocate o name v readOnly
  write _ hs _ := hs.of_heap rfl rfl
  hostOf hsealed _ hf hcallback := hsealed.natives _ _ _ hf hcallback

theorem fitted_lawful : fitted.Lawful :=
  lawful_restrict sealed_lawful fitted_heapLaws

theorem fitted_hosts : fitted.twin.Hosts :=
  hosts_of_none fun _ h => h

theorem fitted_inv_install (globalMarker thisMarker : Option String) (files : Files) :
    fitted.inv (bare globalMarker thisMarker files).install :=
  ⟨sealed_install globalMarker thisMarker files, fitted_install globalMarker thisMarker files⟩

end Discipline

end Scripting
