import Scripting.Proofs.Session

/-!
Listing the virtual members of a class.

Each command of a host defines at most one virtual member. The names of a class are those that were
defined for it, in this order, each at the place of its first definition (`State.Lists`). Main statement:
what is listed for a class is what is found through it, once each, its own names first
(`virtual_members_listed`).
-/

namespace Scripting

/-- The names that definitions give a class. A name that is defined again keeps its place. -/
def definedNames (defined : List (ClassId × String)) (c : ClassId) : List String :=
  ((defined.filter (·.1 = c)).map (·.2)).eraseDups

theorem definedNames_append (defined : List (ClassId × String)) (c c' : ClassId) (name : String) :
    definedNames (defined ++ [(c, name)]) c' =
      if c' = c ∧ name ∉ definedNames defined c' then definedNames defined c' ++ [name]
      else definedNames defined c' := by
  unfold definedNames
  rw [List.filter_append, List.map_append]
  generalize (defined.filter (·.1 = c')).map (·.2) = names
  by_cases hc : c' = c
  · have hnew : ([(c, name)].filter (·.1 = c')).map (·.2) = [name] := by simp [hc]
    rw [hnew, List.eraseDups_append]
    by_cases hname : name ∈ names
    · simp [hname, List.removeAll]
    · simp [hc, hname, List.removeAll, List.eraseDups_cons]
  · have hnone : ([(c, name)].filter (·.1 = c')).map (·.2) = [] := by simp [Ne.symm hc]
    rw [hnone, List.append_nil, if_neg fun h => hc h.1]

/-- The virtual members that every interpreter has. -/
def builtinDefined : List (ClassId × String) :=
  State.builtinMethods.map fun (c, name, _) => (c, name)

namespace State

/-- Every class has the names that were defined for it. -/
def Lists (s : State) (defined : List (ClassId × String)) : Prop :=
  ∀ c, (s.classInfo c).methods.names = definedNames defined c

variable {s s' : State} {defined : List (ClassId × String)}

namespace Lists

variable (hs : s.Lists defined)
include hs

theorem retain (h : s.Retains s') : s'.Lists defined := by
  intro c
  rw [h.classInfo c]
  exact hs c

theorem addClass {new : Class} (hmethods : new.methods = {}) : (s.addClass new).2.Lists defined := by
  intro c
  rw [classInfo_addClass]
  split
  · rename_i hnew
    have hnone : s.classInfo c = default := by
      rw [classInfo, Array.getD_eq_getD_getElem?, Array.getElem?_eq_none (Nat.le_of_eq hnew.symm)]
      rfl
    rw [← hs c, hmethods, hnone]
    rfl
  · exact hs c

theorem bindMethod {c : ClassId} (hc : s.Has (.class c)) (name : String) (f : ObjectId) :
    (s.bindMethod c name f).Lists (defined ++ [(c, name)]) := by
  intro c'
  rw [methods_bindMethod, definedNames_append, ← hs c']
  by_cases hsame : c' = c
  · subst hsame
    rw [if_pos ⟨rfl, hc⟩, Table.names_insert]
    by_cases hname : ((s.classInfo c').methods.find? name).isSome = true
    · rw [if_pos hname, if_neg]
      exact fun h => h.2 ((Table.mem_names_iff _ name).2 hname)
    · rw [if_neg hname, if_pos ⟨rfl, mt (Table.mem_names_iff _ name).1 hname⟩]
  · rw [if_neg fun h => hsame h.1, if_neg fun h => hsame h.1]

end Lists

theorem lists_install (globalMarker thisMarker : Option String) (files : Files) :
    (bare globalMarker thisMarker files).install.Lists builtinDefined := by
  have hmethods (methods : List (ClassId × String × Builtin)) (s : State)
      (defined : List (ClassId × String)) (hs : s.Lists defined)
      (hclasses : ∀ method ∈ methods, s.Has (.class method.1)) :
      (methods.foldl (fun s (c, name, builtin) => s.defineMethod c name (.builtin builtin)) s).Lists
        (defined ++ methods.map fun (c, name, _) => (c, name)) := by
    induction methods generalizing s defined with
    | nil => simpa using hs
    | cons method rest ih =>
      rw [List.forall_mem_cons] at hclasses
      have hfirst : (s.defineMethod method.1 method.2.1 (.builtin method.2.2)).Lists
          (defined ++ [(method.1, method.2.1)]) :=
        (hs.retain (s.retains_addObject _)).bindMethod hclasses.1 _ _
      have hrest := ih _ _ hfirst fun other hother => ?_
      · rwa [List.append_assoc] at hrest
      · simpa [Has, State.defineMethod, State.bindMethod, newFunction, addObject] using
          hclasses.2 other hother
  have hempty : (bare globalMarker thisMarker files).Lists [] := by
    intro c
    rw [methods_bare]
    rfl
  refine (hmethods builtinMethods _ [] hempty ?_).retain (retains_install _)
  have hindex : ∀ method ∈ builtinMethods, method.1.index < builtinClassCount := by decide
  exact fun method hmethod =>
    (sound_bare globalMarker thisMarker files).has_builtin (hindex method hmethod)

end State

namespace Host

open State

/-- The virtual member that a command has defined, if it ended with the given reply. -/
def Command.definition (r : Registers) (command : Command) : Reply → List (ClassId × String)
  | .done => (command.defines? r).toList
  | _ => []

namespace Session

/-- Commands lead from a session to a later one and define virtual members, in the given order. -/
inductive Definitions (session : Session) : List (ClassId × String) → Session → Prop where
  | none : Definitions session [] session
  | perform {defined : List (ClassId × String)} {session' : Session}
      (h : Definitions session defined session') (fuel : Nat) (command : Command)
      (target : Option String) (hplain : command.isPlain = true) :
      Definitions session
        (defined ++ command.definition session'.registers (session'.perform fuel command target).1)
        (session'.perform fuel command target).2
  | takeOutput {defined : List (ClassId × String)} {session' : Session}
      (h : Definitions session defined session') :
      Definitions session defined { session' with state := session'.state.takeOutput.2.2 }

variable {session : Session} {defined : List (ClassId × String)}

theorem Definitions.later {session' : Session} (h : session.Definitions defined session') :
    Later (fun _ => True) session session' := by
  induction h with
  | none => exact .refl
  | perform _ fuel command target hplain ih =>
    exact .tail ih (.perform fuel command target hplain trivial)
  | takeOutput _ ih => exact .tail ih .takeOutput

theorem Sound.lists_performs (hsession : session.Sound) (hlists : session.state.Lists defined)
    {fuel : Nat} {command : Command} {target : Option String} {result : Reply × Session}
    (hplain : command.isPlain = true) (h : Performs session fuel command target result) :
    result.2.state.Lists (defined ++ command.definition session.registers result.1) := by
  have hready : session.ready.Lists defined := hlists.retain hsession.ready.2
  have hacts := hsession.acts hplain fuel
  -- The lives of classes and what is held do not matter for names.
  have hlives {s s' : State} {defined : List (ClassId × String)} {mortal : List ClassId}
      {held : List Node} (hs : s.Lists defined)
      (h : ({ s with mortal := mortal, held := held } : State).Settles s') : s'.Lists defined :=
    Lists.retain (s := { s with mortal := mortal, held := held }) hs h.retains
  cases h with
  | @replied reply _ _ _ hrun _ hsettles =>
    apply hlives _ hsettles
    rw [hrun] at hacts
    cases hacts with
    | retained _ hdefines h =>
      have hnone : command.definition session.registers reply = [] := by
        rcases hdefines with hnone | hnever
        · cases reply <;> first | rfl | exact congrArg Option.toList hnone
        · exact absurd rfl (hnever _ _)
      rw [hnone, List.append_nil]
      exact hready.retain h.2.1
    | made name base behavior keep hcommand =>
      subst hcommand
      rw [Command.definition, List.append_nil]
      · exact hready.addClass rfl
      · exact fun h => by cases h
    | @defined s₁ c name f hdefines hsound hretains hf _ =>
      rw [Command.definition, hdefines]
      have hr := hsession.registers.retain hsession.ready.2
      have hc := has_class_of_defines hsession.ready.1 hr hdefines
      exact (hready.retain hretains).bindMethod (hretains.has _ hc) name f
  | thrown hrun hsettles =>
    rw [hrun] at hacts
    rw [Command.definition, List.append_nil]
    · exact hlives (hready.retain hacts.of_thrown.2.1) hsettles
    · exact fun h => by cases h
  | unfinished =>
    rw [Command.definition, List.append_nil]
    · exact hlists
    · exact fun h => by cases h

/-- Own names are listed as they were defined. -/
theorem Definitions.lists {globalMarker thisMarker : Option String} {files : Files}
    (h : (start globalMarker thisMarker files).Definitions defined session) :
    session.state.Lists (builtinDefined ++ defined) := by
  induction h with
  | none =>
    rw [List.append_nil]
    exact lists_install globalMarker thisMarker files
  | perform h fuel command target hplain ih =>
    rw [← List.append_assoc]
    have hsession := (sound_start globalMarker thisMarker files).later h.later
    exact hsession.lists_performs ih hplain (performs_perform _ fuel command target)
  | takeOutput _ ih => exact ih

end Session

end Host

open Host in
/-- The names that a class lists are those that it finds, each once: its own, in the order in which they
were first defined, and then those of its base that are not among them. A host that asks a class for a
name gets the function that the class finds, in a slot that cannot be written, or nothing. -/
theorem virtual_members_listed {globalMarker thisMarker : Option String} {files : Files}
    {defined : List (ClassId × String)} {session : Session} {s : State}
    (hdefined : (Session.start globalMarker thisMarker files).Definitions defined session)
    (hvisits : session.Visits s) (c : ClassId) :
    let t := s.settle
    let own := definedNames (builtinDefined ++ defined) c
    (∀ name, name ∈ t.methodNames c ↔ (t.method? c name).isSome = true) ∧
      (t.methodNames c).Nodup ∧
      (t.methodNames c = own ++ match t.base? c with
        | some b => (t.methodNames b).filter (· ∉ own)
        | none => []) ∧
      ∀ name, match t.method? c name with
        | some f => ∃ i u, classMember c name s = .ok (some i) u ∧
            u.slot i = ⟨.object f, true, some name⟩
        | none => classMember c name s = .ok none t := by
  intro t own
  have hsession := (Session.sound_start globalMarker thisMarker files).later hdefined.later
  obtain ⟨hs, hretains⟩ := hsession.visits hvisits
  have hsettles : s.Settles t := s.settles_settle
  have hbases := (hs.settles hsettles).bases
  have hown : (t.classInfo c).methods.names = own :=
    hdefined.lists.retain (hsession.ready.2.trans (hretains.trans hsettles.retains)) c
  refine ⟨hbases.mem_methodNames_iff c, hbases.nodup_methodNames c, ?_, ?_⟩
  · rw [hbases.methodNames_eq c, hown]
    cases t.base? c with
    | none => rfl
    | some b => simp
  · intro name
    have hsurvey : Eval.survey (·.method? c name) s = .ok (t.method? c name) t := rfl
    unfold classMember
    rw [Eval.bind_of_ok hsurvey]
    cases t.method? c name with
    | none => rfl
    | some f =>
      refine ⟨⟨t.slots.size⟩, (t.addSlot ⟨.object f, true, some name⟩).2, rfl, ?_⟩
      rw [State.slot_addSlot, if_pos rfl]

open Host in
/-- A class `B` is derived from `A`, overrides one of its members and defines a member of its own twice. -/
def Host.redefining : Session :=
  (Session.start none none default).performAll 8
    [(.newClass "A" none .plain true, none),
      (.method "A" "f" (.plain .argumentCount), none),
      (.method "A" "h" (.plain .argumentCount), none),
      (.newClass "B" (some "A") .plain true, none),
      (.method "B" "g" (.plain .argumentCount), none),
      (.method "B" "f" (.plain .thisType), none),
      (.method "B" "g" (.plain .thisType), none)]

open Host in
theorem virtual_members_listed_redefining :
    let t := redefining.ready.settle
    t.methodNames ⟨9⟩ = ["g", "f"] ++ (t.methodNames ⟨8⟩).filter (· ∉ ["g", "f"]) ∧
      (t.methodNames ⟨9⟩).Nodup ∧
      ∀ name, name ∈ t.methodNames ⟨9⟩ ↔ (t.method? ⟨9⟩ name).isSome = true := by
  have hdefined : ∃ defined, (Session.start none none default).Definitions defined redefining ∧
      definedNames (builtinDefined ++ defined) ⟨9⟩ = ["g", "f"] := by
    refine ⟨_, .perform (.perform (.perform (.perform (.perform (.perform (.perform .none 8 _ _ ?_)
      8 _ _ ?_) 8 _ _ ?_) 8 _ _ ?_) 8 _ _ ?_) 8 _ _ ?_) 8 _ _ ?_, by decide +kernel⟩
    all_goals rfl
  have hbase : redefining.ready.settle.base? ⟨9⟩ = some ⟨8⟩ := by decide +kernel
  obtain ⟨defined, hdefined, hown⟩ := hdefined
  obtain ⟨hmem, hnodup, hnames, -⟩ := virtual_members_listed hdefined .ready ⟨9⟩
  rw [hown, hbase] at hnames
  exact ⟨hnames, hnodup, hmem⟩

end Scripting
