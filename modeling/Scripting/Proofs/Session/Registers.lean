import Scripting.Proofs.Session.Command

/-!
The registers of a host before and after a command.

Whatever registers name exists if a reply tells nothing else (`Registers.Sound.after`). Main statement: a
class that is still in a register after a command, or that is kept, is not the one that the command
releases (`Registers.Apart.lasting_after`, `Registers.Apart.lasting_made`).
-/

namespace Scripting

namespace Table

variable {α : Type}

theorem find?_foldl_insert {entries : List (String × α)} {t : Table α} {name : String} {value : α}
    (h : (entries.foldl (fun t (name, value) => t.insert name value) t).find? name = some value) :
    (name, value) ∈ entries ∨ t.find? name = some value := by
  induction entries generalizing t with
  | nil => exact .inr h
  | cons entry rest ih =>
    rcases ih h with hrest | hfirst
    · exact .inl (List.mem_cons_of_mem _ hrest)
    · rw [find?_insert] at hfirst
      split at hfirst
      · rename_i hname
        cases hfirst
        left
        rw [← hname]
        exact List.mem_cons_self
      · exact .inr hfirst

/-- What is found after a name was erased has another name. -/
theorem find?_of_erase {t : Table α} {name other : String} {value : α}
    (h : (t.erase name).find? other = some value) : other ≠ name ∧ t.find? other = some value := by
  rcases find?_foldl_insert h with hmem | hempty
  · rw [List.mem_filter] at hmem
    exact ⟨of_decide_eq_true hmem.2, (t.mem_entries_iff other value).1 hmem.1⟩
  · cases hempty

end Table

namespace Host

open State

/-- The classes that the interpreter never lets go of: those that it comes with, those that it was asked
to keep, and those in a register. -/
def Registers.Lasting (r : Registers) (c : ClassId) : Prop :=
  c.index < builtinClassCount ∨ c ∈ r.kept ∨ ∃ name, r.classes.find? name = some c

theorem Reply.mem_nodes_of_value? {reply : Reply} {v : Value} {node : Node}
    (h : reply.value? = some v) (hnode : node ∈ v.nodes) : node ∈ reply.nodes := by
  unfold Reply.value? at h
  split at h <;> cases h
  · exact hnode
  · exact List.mem_cons_of_mem _ hnode
  · exact hnode
  · exact hnode
  · exact hnode

namespace Registers

variable {r : Registers} {s : State} {command : Command} {reply : Reply}

theorem Sound.has_of_mem_nodes (hr : r.Sound s) {node : Node} (h : node ∈ r.nodes) :
    s.Has node := by
  rcases List.mem_append.1 h with hvalue | hslot
  · obtain ⟨⟨name, v⟩, hentry, hnode⟩ := List.mem_flatMap.1 hvalue
    exact hr.values name v ((r.values.mem_entries_iff name v).1 hentry) node hnode
  · obtain ⟨⟨name, i⟩, hentry, rfl⟩ := List.mem_map.1 hslot
    exact hr.slots name i ((r.slots.mem_entries_iff name i).1 hentry)

theorem Sound.has_of_mem_operandNodes (hr : r.Sound s) {node : Node}
    (h : node ∈ r.operandNodes command) : s.Has node := by
  obtain ⟨v, -, hnode⟩ := List.mem_flatMap.1 h
  cases v with
  | register name => exact hr.hasValue name node hnode
  | _ => cases hnode

theorem Sound.insertValue (hr : r.Sound s) {v : Value} (hv : s.HasValue v) (name : String) :
    ({ r with values := r.values.insert name v } : Registers).Sound s where
  values name' v' h := by
    rw [Table.find?_insert] at h
    split at h
    · cases h
      exact hv
    · exact hr.values name' v' h
  slots := hr.slots
  slot := hr.slot
  classes := hr.classes

theorem Sound.after (hr : r.Sound s) (h : Told s reply) : (r.after command reply).Sound s := by
  unfold Registers.after
  split
  · refine ⟨hr.values, hr.slots, hr.slot, ?_⟩
    intro name' c' hc'
    rw [Table.find?_insert] at hc'
    split at hc'
    · cases hc'
      exact h _ List.mem_cons_self
    · exact hr.classes name' c' hc'
  · exact ⟨hr.values, hr.slots, hr.slot, fun name c hc => hr.classes name c (Table.find?_of_erase hc).2⟩
  · refine ⟨hr.values, ?_, hr.slot, hr.classes⟩
    intro name' i' hi'
    rw [Table.find?_insert] at hi'
    split at hi'
    · cases hi'
      exact h _ List.mem_cons_self
    · exact hr.slots name' i' hi'
  · exact hr.insertValue h _
  · exact hr

theorem Sound.store (hr : r.Sound s) (target : Option String) (h : Told s reply) :
    (r.store target reply).Sound s := by
  unfold Registers.store
  split
  · rename_i name v hvalue
    exact hr.insertValue (fun node hnode => h node (Reply.mem_nodes_of_value? hvalue hnode)) name
  · exact hr

theorem lasting_store (r : Registers) (target : Option String) (reply : Reply) (c : ClassId) :
    (r.store target reply).Lasting c ↔ r.Lasting c := by
  unfold Registers.store
  split <;> rfl

/-- The host's classes are not those that every interpreter has, and no class is in two registers. -/
structure Apart (r : Registers) : Prop where
  own : ∀ name c, r.classes.find? name = some c → builtinClassCount ≤ c.index
  distinct : ∀ name name' c, r.classes.find? name = some c → r.classes.find? name' = some c →
    name = name'

namespace Apart

variable {c : ClassId}

theorem store (hr : r.Apart) (target : Option String) (reply : Reply) :
    (r.store target reply).Apart := by
  unfold Registers.store
  split
  · exact ⟨hr.own, hr.distinct⟩
  · exact hr

/-- A command that makes no class leaves in registers what was there, but for what it releases. -/
theorem find?_after (hr : r.Apart) (hnew : command.makesClass = false) {name : String}
    (h : (r.after command reply).classes.find? name = some c) :
    r.classes.find? name = some c ∧ r.replacedClass? command ≠ some c := by
  have hcommand : (∃ name', command = .dropClass name') ∨ r.replacedClass? command = none := by
    cases command with
    | newClass => cases hnew
    | dropClass name' => exact .inl ⟨name', rfl⟩
    | _ => exact .inr rfl
  rcases hcommand with ⟨name', rfl⟩ | hnone
  · obtain ⟨hother, hfind⟩ := Table.find?_of_erase h
    exact ⟨hfind, fun hreplaced => hother (hr.distinct name name' c hfind hreplaced)⟩
  · refine ⟨?_, fun hreplaced => by rw [hnone] at hreplaced; cases hreplaced⟩
    unfold Registers.after at h
    split at h
    · cases hnew
    · exact (Table.find?_of_erase h).2
    · exact h
    · exact h
    · exact h

theorem after (hr : r.Apart) (hnew : command.makesClass = false) :
    (r.after command reply).Apart where
  own name c h := hr.own name c (hr.find?_after hnew h).1
  distinct name name' c h h' :=
    hr.distinct name name' c (hr.find?_after hnew h).1 (hr.find?_after hnew h').1

theorem kept_after (hnew : command.makesClass = false) : (r.after command reply).kept = r.kept := by
  unfold Registers.after
  split
  · cases hnew
  · rfl
  · rfl
  · rfl
  · rfl

/-- What is replaced is released only if it is not kept. -/
theorem replaced_of_released (h : r.releasedClass? command = some c) :
    r.replacedClass? command = some c ∧ c ∉ r.kept := by
  obtain ⟨hreplaced, hkept⟩ := Option.filter_eq_some_iff.1 h
  exact ⟨hreplaced, by simpa using hkept⟩

theorem own_of_released (hr : r.Apart) (h : r.releasedClass? command = some c) :
    builtinClassCount ≤ c.index := by
  have hreplaced := (replaced_of_released h).1
  unfold Registers.replacedClass? at hreplaced
  split at hreplaced
  · exact hr.own _ c hreplaced
  · exact hr.own _ c hreplaced
  · cases hreplaced

theorem lasting_after (hr : r.Apart) (hnew : command.makesClass = false)
    (h : (r.after command reply).Lasting c) :
    r.Lasting c ∧ r.releasedClass? command ≠ some c := by
  rcases h with hbuiltin | hkept | ⟨name, hname⟩
  · exact ⟨.inl hbuiltin, fun hreleased =>
      absurd hbuiltin (Nat.not_lt.2 (hr.own_of_released hreleased))⟩
  · rw [kept_after hnew] at hkept
    exact ⟨.inr (.inl hkept), fun hreleased => (replaced_of_released hreleased).2 hkept⟩
  · obtain ⟨hfind, hreplaced⟩ := hr.find?_after hnew hname
    exact ⟨.inr (.inr ⟨name, hfind⟩), fun hreleased => hreplaced (replaced_of_released hreleased).1⟩

section
variable {name : String} {base : Option String} {behavior : Behavior} {keep : Bool} {new : ClassId}

theorem find?_made (hr : r.Apart) {name' : String}
    (h : (r.after (.newClass name base behavior keep) (.defined new)).classes.find? name' = some c) :
    name' = name ∧ c = new ∨ name' ≠ name ∧ r.classes.find? name' = some c ∧
      r.replacedClass? (.newClass name base behavior keep) ≠ some c := by
  change (r.classes.insert name new).find? name' = some c at h
  rw [Table.find?_insert] at h
  split at h
  · rename_i hname
    cases h
    exact .inl ⟨hname.symm, rfl⟩
  · rename_i hname
    have hother : name' ≠ name := fun heq => hname heq.symm
    exact .inr ⟨hother, h, fun hreplaced => hother (hr.distinct name' name c h hreplaced)⟩

theorem made (hr : r.Apart) (hnew : builtinClassCount ≤ new.index)
    (hfresh : ∀ name, r.classes.find? name ≠ some new) :
    (r.after (.newClass name base behavior keep) (.defined new)).Apart where
  own name' c h := by
    rcases hr.find?_made h with ⟨-, rfl⟩ | ⟨-, hold, -⟩
    · exact hnew
    · exact hr.own name' c hold
  distinct name₁ name₂ c h₁ h₂ := by
    rcases hr.find?_made h₁ with ⟨hname₁, hc₁⟩ | ⟨-, hold₁, -⟩ <;>
      rcases hr.find?_made h₂ with ⟨hname₂, hc₂⟩ | ⟨-, hold₂, -⟩
    · exact hname₁.trans hname₂.symm
    · rw [hc₁] at hold₂
      exact absurd hold₂ (hfresh name₂)
    · rw [hc₂] at hold₁
      exact absurd hold₁ (hfresh name₁)
    · exact hr.distinct name₁ name₂ c hold₁ hold₂

theorem lasting_made (hr : r.Apart)
    (h : (r.after (.newClass name base behavior keep) (.defined new)).Lasting c) :
    c = new ∨ r.Lasting c ∧ r.releasedClass? (.newClass name base behavior keep) ≠ some c := by
  rcases h with hbuiltin | hkept | ⟨name', hname⟩
  · exact .inr ⟨.inl hbuiltin, fun hreleased =>
      absurd hbuiltin (Nat.not_lt.2 (hr.own_of_released hreleased))⟩
  · change c ∈ (if keep then new :: r.kept else r.kept) at hkept
    have hkept : c = new ∨ c ∈ r.kept := by
      cases keep with
      | false => exact .inr hkept
      | true => exact List.mem_cons.1 hkept
    refine hkept.imp_right fun hold => ⟨.inr (.inl hold), fun hreleased => ?_⟩
    exact (replaced_of_released hreleased).2 hold
  · rcases hr.find?_made hname with ⟨-, hc⟩ | ⟨-, hold, hreplaced⟩
    · exact .inl hc
    · exact .inr ⟨.inr (.inr ⟨name', hold⟩),
        fun hreleased => hreplaced (replaced_of_released hreleased).1⟩

end

end Apart

end Registers

end Host

end Scripting
