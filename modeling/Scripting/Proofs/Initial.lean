import Scripting.State.Initial

/-!
What holds of a new interpreter. Whatever adding a native function, a wrapper or a plain object, naming
an object and sharing a function among the instances of a class keep, installing keeps.
-/

namespace Scripting

/-- The class among whose instances a function is shared. -/
def Builtin.owner? : Builtin → Option ClassId
  | construct => some .wrapper
  | stringLength | stringConcat | stringSubstring => some .string
  | exceptionPrint => some .exception
  | systemWrite | systemWriteln | systemDump | systemBacktrace | systemThrows => some .system
  | stringFromCodepoints | includeFile | toInt | toBool => none

/-- The classes that have a global name. -/
def namedClasses : List ClassId :=
  [.object, .exception, .syntaxError, .string]

/-- The objects that are there from the start. -/
inductive Object.Installed : Object → Prop where
  | native (name : String) (builtin : Builtin) :
      Installed { classId := some .function
                  payload := .function (.native ⟨name, builtin.owner?, .builtin builtin⟩) }
  | wrapper {c : ClassId} (h : c ∈ namedClasses) :
      Installed { classId := some .wrapper, payload := .wrapped c }
  | system : Installed { classId := some .system }

namespace State

/-- A property that installing keeps. -/
structure Installs (P : State → Prop) : Prop where
  object : ∀ {s o}, P s → Object.Installed o → P (s.addObject o).2
  allocate : ∀ {s o o'} (name readOnly), P s → o.index < s.objects.size →
    o'.index < s.objects.size → P (s.allocate o name (.object o') readOnly).2
  method : ∀ {s f} (c name), P s → f.index < s.objects.size → P (s.bindMethod c name f)

/-- The global object is there, and stays the same. -/
def HasGlobal (global : ObjectId) (s : State) : Prop :=
  s.global = global ∧ global.index < s.objects.size

theorem installs_hasGlobal (global : ObjectId) : Installs (HasGlobal global) where
  object hs _ := ⟨hs.1, by have := hs.2; simp [addObject]; omega⟩
  allocate _ _ hs _ _ := ⟨hs.1, by simpa [State.allocate, addSlot, bindMember] using hs.2⟩
  method _ _ hs _ := hs

theorem Installs.and {P Q : State → Prop} (h : Installs P) (h' : Installs Q) :
    Installs fun s => P s ∧ Q s where
  object hs ho := ⟨h.object hs.1 ho, h'.object hs.2 ho⟩
  allocate name readOnly hs ho ho' :=
    ⟨h.allocate name readOnly hs.1 ho ho', h'.allocate name readOnly hs.2 ho ho'⟩
  method c name hs hf := ⟨h.method c name hs.1 hf, h'.method c name hs.2 hf⟩

namespace Installs

variable {P : State → Prop} (h : Installs P) {s : State}
include h

theorem defineMethod (hs : P s) {c : ClassId} (name : String) (builtin : Builtin)
    (hc : builtin.owner? = some c) : P (s.defineMethod c name (.builtin builtin)) := by
  have hfunction := Object.Installed.native name builtin
  rw [hc] at hfunction
  refine h.method c name (h.object hs hfunction) ?_
  simp

theorem defineMethods (hs : P s) (methods : List (ClassId × String × Builtin))
    (hmethods : ∀ method ∈ methods, method.2.2.owner? = some method.1) :
    P (methods.foldl (fun s (c, name, builtin) => s.defineMethod c name (.builtin builtin)) s) := by
  induction methods generalizing s with
  | nil => exact hs
  | cons method rest ih =>
    rw [List.forall_mem_cons] at hmethods
    exact ih (h.defineMethod hs _ _ hmethods.1) hmethods.2

theorem defineFunction (hs : P s) {o : ObjectId} (ho : o.index < s.objects.size) (name : String)
    (builtin : Builtin) (hbuiltin : builtin.owner? = none) :
    P (s.defineFunction o name (.builtin builtin)) := by
  have hfunction := Object.Installed.native name builtin
  rw [hbuiltin] at hfunction
  refine h.allocate name true (h.object hs hfunction) ?_ ?_
  · simp
    omega
  · simp

section
variable (hglobal : ∀ {s}, P s → s.global.index < s.objects.size)
include hglobal

theorem globalFunction (hs : P s) (name : String) (builtin : Builtin)
    (hbuiltin : builtin.owner? = none) : P (s.defineFunction s.global name (.builtin builtin)) :=
  h.defineFunction hs (hglobal hs) name builtin hbuiltin

theorem globalObject (hs : P s) {object : Object} (hobject : object.Installed) (name : String) :
    P ((s.addObject object).2.defineGlobal name (.object (s.addObject object).1)) := by
  have hadded := h.object hs hobject
  exact h.allocate name false hadded (hglobal hadded) (by simp [addObject])

theorem defineClasses (hs : P s) (classes : List ClassId) (hclasses : classes ⊆ namedClasses) :
    P (classes.foldl State.defineClass s) := by
  induction classes generalizing s with
  | nil => exact hs
  | cons c rest ih =>
    rw [List.cons_subset] at hclasses
    exact ih (h.globalObject hglobal hs (.wrapper hclasses.1) _) hclasses.2

/-- The wrapper of the class of strings has a function of its own. -/
theorem defineString (hs : P s) :
    P (((s.newWrapper .string).2.defineFunction (s.newWrapper .string).1 "from_codepoints"
      (.builtin .stringFromCodepoints)).defineGlobal "String" (.object (s.newWrapper .string).1)) := by
  have hwrapper : (s.newWrapper .string).1.index < (s.newWrapper .string).2.objects.size := by
    simp [newWrapper, addObject]
  have hfunction := h.defineFunction (h.object hs (.wrapper (by decide))) hwrapper
    "from_codepoints" .stringFromCodepoints rfl
  refine h.allocate "String" false hfunction (hglobal hfunction) ?_
  simp only [State.defineFunction, newFunction, newWrapper, addObject, State.allocate, addSlot,
    bindMember, Array.size_push, Array.size_modify]
  omega

end

end Installs

/-- What each single change keeps, installing keeps. -/
theorem Installs.install {P : State → Prop} (h : Installs P) {s : State} (hs : P s)
    (hglobal : s.global.index < s.objects.size) : P s.install := by
  have H := h.and (installs_hasGlobal s.global)
  have hat : ∀ {s'}, P s' ∧ HasGlobal s.global s' → s'.global.index < s'.objects.size :=
    fun hs' => hs'.2.1 ▸ hs'.2.2
  have hmethods := H.defineMethods ⟨hs, rfl, hglobal⟩ builtinMethods (by decide)
  have hclasses := H.defineClasses hat hmethods [.object, .exception, .syntaxError] (by decide)
  have hsystem := H.globalObject hat (H.defineString hat hclasses) .system "sys"
  have hinclude := H.globalFunction hat hsystem "include" .includeFile rfl
  have htoInt := H.globalFunction hat hinclude "to_int" .toInt rfl
  exact (H.globalFunction hat htoInt "to_bool" .toBool rfl).1

theorem hasGlobal_bare (globalMarker thisMarker : Option String) (files : Files) :
    HasGlobal ⟨0⟩ (bare globalMarker thisMarker files) := by
  cases globalMarker <;> cases thisMarker <;>
    exact ⟨rfl, by simp [bare, addObject, allocate, addSlot, bindMember]⟩

/-- What a bare interpreter has and each single change keeps, a new interpreter has. -/
theorem Installs.new {P : State → Prop} (h : Installs P) {globalMarker thisMarker : Option String}
    {files : Files} (hs : P (bare globalMarker thisMarker files)) :
    P (bare globalMarker thisMarker files).install := by
  obtain ⟨hglobal, hsize⟩ := hasGlobal_bare globalMarker thisMarker files
  exact h.install hs (hglobal ▸ hsize)

end State

end Scripting
