import Mathlib.Logic.Relation
import Scripting.Proofs.Rendering.Picture

/-!
Values are shown with their members, also where objects hold each other in a circle.

The renderer with a list knows the objects that it is showing: it puts an object on the list, shows its
members and takes it off again. The plain renderer has no list. Either of them gives nothing if a bound is
used up, so a rendering ends if it has an answer that is the same for all large bounds.

Main statement: the renderer with the list ends and gives what is shown of values (`rendering_exact`).
-/

namespace Scripting

/-- The answer for every bound from some bound on. -/
def Settles {α : Type} (f : Nat → Option α) (a : α) : Prop :=
  ∃ bound, ∀ n, bound ≤ n → f n = some a

namespace State

variable (s : State) (dump : Bool)

/-- The dump of a reference. -/
def aliasText (text : String) : String :=
  "Value\x7b reference: " ++ text ++ " \x7d"

/-- Holds for an object that is echoed with its members. -/
def echoesMembers (o : ObjectId) : Bool :=
  match s.behavior? o with
  | some .string | some .function | some .wrapper | some .exception => false
  | _ => true

section

variable {m : Type → Type} [Monad m]

/-- A value that is a member or that is dumped: `seen` asks for the mark, `members` shows the members of
an object and `follow` what a reference stands for. -/
def showValue (seen : ObjectId → m Bool) (members : ObjectId → m String)
    (follow : Reference → m String) : Value → m String
  | .object o => do
    if ← seen o then return recursiveMark
    else if s.opens dump o then
      let text ← members o
      return s.framed dump o text
    else return s.brief o
  | .reference r =>
    if dump then do
      let text ← follow r
      return aliasText text
    else return s.text (.reference r)
  | v => return s.leafText dump v

/-- A value as it is echoed, from the members of an object. -/
def showEcho (members : ObjectId → m String) (v : Value) : m String :=
  match s.deref v with
  | .object o =>
    if s.echoesMembers o then do
      let text ← members o
      return s.typeName o ++ " " ++ text
    else return s.detailed o
  | other => return s.text other

end

/-! The renderer with a list. -/

/-- A rendering with the list of the objects that are being shown. It may give nothing. -/
abbrev Rendering := StateT (List ObjectId) Option

/-- Holds for an object on the list. -/
def isListed (o : ObjectId) : Rendering Bool := do
  let visiting ← get
  return visiting.contains o

def renderValue (members : ObjectId → Rendering String) : Nat → Value → Rendering String
  | 0 => s.showValue dump isListed members fun _ => failure
  | limit + 1 => s.showValue dump isListed members fun r => renderValue members limit (s.read r)

/-- The members of an object. An object without members is not put on the list. -/
def render : Nat → ObjectId → Rendering String
  | 0, _ => failure
  | n + 1, o => do
    if (s.memberValues o).isEmpty && (s.objectMethodNames o).isEmpty then return "\x7b\x7d"
    modify (o :: ·)
    let lines ← (s.memberValues o).mapM fun member => do
      let text ← s.renderValue dump (render n) n member.2
      return (member.1, text)
    modify List.tail
    return s.blockText o lines

/-! The renderer without a list. -/

def plainValue (members : ObjectId → Option String) : Nat → Value → Option String
  | 0 => s.showValue dump (fun _ => some false) members fun _ => none
  | limit + 1 =>
    s.showValue dump (fun _ => some false) members fun r => plainValue members limit (s.read r)

def plain : Nat → ObjectId → Option String
  | 0, _ => none
  | n + 1, o => do
    let lines ← (s.memberValues o).mapM fun member => do
      let text ← s.plainValue dump (plain n) n member.2
      return (member.1, text)
    return s.blockText o lines

/-- An object is an own member of another one. -/
def Owns (o o' : ObjectId) : Prop :=
  ∃ name, (name, .object o') ∈ s.memberValues o

/-- No object is reached from itself through own members. -/
def Acyclic : Prop :=
  ∀ o, ¬Relation.TransGen s.Owns o o

end State

/-! Renderings that end, and leave the list as it was. -/

namespace State.Rendering

variable {α β : Type} {visiting : List ObjectId} {f : α → Rendering β}

/-- What is shown and then listed again. -/
def Restores (p : Rendering α) : Prop :=
  ∀ visiting a after, p visiting = some (a, after) → after = visiting

theorem bind_of_some {p : Rendering α} {a : α} {after : List ObjectId}
    (h : p visiting = some (a, after)) : (p >>= f) visiting = f a after := by
  change (p visiting).bind (fun r => f r.1 r.2) = _
  rw [h]
  rfl

theorem bind_eq_some {p : Rendering α} {r : β × List ObjectId} (h : (p >>= f) visiting = some r) :
    ∃ a after, p visiting = some (a, after) ∧ f a after = some r := by
  change (p visiting).bind (fun r => f r.1 r.2) = _ at h
  obtain ⟨⟨a, after⟩, hp, hf⟩ := Option.bind_eq_some_iff.1 h
  exact ⟨a, after, hp, hf⟩

theorem restores_pure (a : α) : Restores (pure a) := by
  intro visiting b after h
  cases h
  rfl

theorem restores_failure : Restores (failure : Rendering α) := by
  intro visiting b after h
  cases h

theorem Restores.bind {p : Rendering α} (hp : p.Restores) (hf : ∀ a, (f a).Restores) :
    Restores (p >>= f) := by
  intro visiting b after h
  obtain ⟨a, middle, ha, hb⟩ := bind_eq_some h
  obtain rfl := hp visiting a middle ha
  exact hf a _ b after hb

theorem restores_mapM {l : List α} (hf : ∀ a, (f a).Restores) : Restores (l.mapM f) := by
  induction l with
  | nil => exact restores_pure []
  | cons a rest ih =>
    rw [List.mapM_cons]
    apply (hf a).bind
    intro b
    apply ih.bind
    intro bs
    exact restores_pure _

/-- Each part is shown with the same list. -/
theorem mapM_of_some {g : α → β} {l : List α} (h : ∀ a ∈ l, f a visiting = some (g a, visiting)) :
    l.mapM f visiting = some (l.map g, visiting) := by
  induction l with
  | nil => rfl
  | cons a rest ih =>
    obtain ⟨ha, hrest⟩ := List.forall_mem_cons.1 h
    rw [List.mapM_cons, bind_of_some ha, bind_of_some (ih hrest)]
    rfl

end State.Rendering

theorem mapM_eq_some_map {α β : Type} {f : α → Option β} {g : α → β} {l : List α}
    (h : ∀ a ∈ l, f a = some (g a)) : l.mapM f = some (l.map g) := by
  induction l with
  | nil => rfl
  | cons a rest ih =>
    obtain ⟨ha, hrest⟩ := List.forall_mem_cons.1 h
    rw [List.mapM_cons, ha, ih hrest]
    rfl

namespace State

open Rendering

variable {s : State} {dump : Bool} {o : ObjectId} {visiting : List ObjectId}

/-! The list. -/

theorem restores_isListed (o : ObjectId) : (isListed o).Restores := by
  intro visiting b after h
  cases h
  rfl

theorem restores_showValue {members : ObjectId → Rendering String}
    {follow : Reference → Rendering String} (hmembers : ∀ o, (members o).Restores)
    (hfollow : ∀ r, (follow r).Restores) (v : Value) :
    Restores (s.showValue dump isListed members follow v) := by
  cases v with
  | object o =>
    apply (restores_isListed o).bind
    intro listed
    split
    · exact restores_pure _
    · split
      · exact (hmembers o).bind fun _ => restores_pure _
      · exact restores_pure _
  | reference r =>
    rw [showValue]
    split
    · exact (hfollow r).bind fun _ => restores_pure _
    · exact restores_pure _
  | _ => exact restores_pure _

theorem restores_renderValue {members : ObjectId → Rendering String}
    (h : ∀ o, (members o).Restores) (limit : Nat) (v : Value) :
    (s.renderValue dump members limit v).Restores := by
  induction limit generalizing v with
  | zero => exact restores_showValue h (fun _ => restores_failure) v
  | succ limit ih => exact restores_showValue h (fun r => ih (s.read r)) v

theorem restores_render (n : Nat) (o : ObjectId) : (s.render dump n o).Restores := by
  induction n generalizing o with
  | zero => exact restores_failure
  | succ n ih =>
    rw [render]
    split
    · exact restores_pure _
    · intro visiting text after h
      obtain ⟨_, _, hpush, h⟩ := bind_eq_some h
      cases hpush
      obtain ⟨lines, listed, hlines, h⟩ := bind_eq_some h
      obtain rfl : listed = o :: visiting := by
        refine restores_mapM ?_ _ _ _ hlines
        intro member
        exact (restores_renderValue ih n member.2).bind fun _ => restores_pure _
      cases h
      rfl

/-! What the renderers give. -/

/-- A value is shown with the list as it is shown, if its members are. -/
theorem renderValue_eq {members : ObjectId → Rendering String} {texts : ObjectId → String}
    {v : Value} (hv : v.isReference = false)
    (h : ∀ o, v = .object o → o ∉ visiting → members o visiting = some (texts o, visiting))
    (limit : Nat) :
    s.renderValue dump members limit v visiting =
      some (s.memberText dump visiting texts v, visiting) := by
  have hshow (follow : Reference → Rendering String) :
      s.showValue dump isListed members follow v visiting =
        some (s.memberText dump visiting texts v, visiting) := by
    cases v with
    | object o =>
      rw [showValue, bind_of_some (rfl : isListed o visiting = some (visiting.contains o, visiting)),
        memberText_object]
      simp only [List.contains_iff_mem]
      split
      · rfl
      · rename_i hfresh
        split
        · rw [bind_of_some (h o rfl hfresh)]
          rfl
        · rfl
    | reference => cases hv
    | _ =>
      rw [memberText_leaf rfl hv]
      rfl
  cases limit with
  | zero => exact hshow _
  | succ limit => exact hshow _

/-- The same without the list, for a value that is not on it. -/
theorem plainValue_eq {members : ObjectId → Option String} {texts : ObjectId → String}
    {v : Value} (hv : v.isReference = false)
    (h : ∀ o, v = .object o → o ∉ visiting ∧ members o = some (texts o)) (limit : Nat) :
    s.plainValue dump members limit v = some (s.memberText dump visiting texts v) := by
  have hshow (follow : Reference → Option String) :
      s.showValue dump (fun _ => some false) members follow v =
        some (s.memberText dump visiting texts v) := by
    cases v with
    | object o =>
      obtain ⟨hfresh, hmembers⟩ := h o rfl
      rw [memberText_object, if_neg hfresh]
      change (if s.opens dump o then (members o).bind fun text => some (s.framed dump o text)
        else some (s.brief o)) = _
      rw [hmembers]
      split <;> rfl
    | reference => cases hv
    | _ =>
      rw [memberText_leaf rfl hv]
      rfl
  cases limit with
  | zero => exact hshow _
  | succ limit => exact hshow _

theorem render_eq (hs : s.Direct) {n : Nat} (hn : s.unvisited visiting < n) (ho : o ∉ visiting) :
    s.render dump n o visiting = some (s.membersUpTo dump n visiting o, visiting) := by
  refine shown_induction (P := fun n visiting o =>
    s.render dump n o visiting = some (s.membersUpTo dump n visiting o, visiting)) ?_ hn ho
  intro n visiting o _ ih
  rw [render, membersUpTo_succ]
  split
  · rename_i hempty
    simp only [blockText, List.isEmpty_map, hempty, if_true]
    rfl
  · have hlines : (s.memberValues o).mapM (fun member => do
          let text ← s.renderValue dump (s.render dump n) n member.2
          return (member.1, text) : _ → Rendering (String × String)) (o :: visiting) =
        some ((s.memberValues o).map fun member => (member.1, s.memberText dump (o :: visiting)
          (s.membersUpTo dump n (o :: visiting)) member.2), o :: visiting) := by
      apply mapM_of_some
      rintro ⟨name, v⟩ hmember
      rw [bind_of_some (renderValue_eq (hs.memberValues hmember) ?_ n)]
      · rfl
      · rintro o' rfl hfresh
        exact ih name o' hmember hfresh
    have hpush : (modify (o :: ·) : Rendering PUnit) visiting = some (⟨⟩, o :: visiting) := rfl
    rw [bind_of_some hpush, bind_of_some hlines]
    rfl

/-- The objects further up all lead to the object that is shown. -/
theorem plain_eq (hs : s.Direct) (hacyclic : s.Acyclic) {n : Nat} (hn : s.unvisited visiting < n)
    (hpath : ∀ above ∈ visiting, Relation.TransGen s.Owns above o) :
    s.plain dump n o = some (s.membersUpTo dump n visiting o) := by
  have hfresh {visiting : List ObjectId} {o : ObjectId}
      (h : ∀ above ∈ visiting, Relation.TransGen s.Owns above o) : o ∉ visiting :=
    fun ho => hacyclic o (h o ho)
  refine shown_induction (P := fun n visiting o =>
    (∀ above ∈ visiting, Relation.TransGen s.Owns above o) →
      s.plain dump n o = some (s.membersUpTo dump n visiting o)) ?_ hn (hfresh hpath) hpath
  intro n visiting o _ ih hpath
  have hlines : (s.memberValues o).mapM (fun member => do
        let text ← s.plainValue dump (s.plain dump n) n member.2
        return (member.1, text) : _ → Option (String × String)) =
      some ((s.memberValues o).map fun member => (member.1, s.memberText dump (o :: visiting)
        (s.membersUpTo dump n (o :: visiting)) member.2)) := by
    apply mapM_eq_some_map
    rintro ⟨name, v⟩ hmember
    rw [plainValue_eq (hs.memberValues hmember) ?_ n]
    · rfl
    · rintro o' rfl
      have howns : s.Owns o o' := ⟨name, hmember⟩
      have hpath' : ∀ above ∈ o :: visiting, Relation.TransGen s.Owns above o' := by
        intro above habove
        rcases List.mem_cons.1 habove with rfl | habove
        · exact .single howns
        · exact (hpath above habove).tail howns
      exact ⟨hfresh hpath', ih name o' hmember (hfresh hpath') hpath'⟩
  rw [plain, membersUpTo_succ, hlines]
  rfl

/-! Values shown by themselves. -/

/-- Beyond the number of objects, the bound does not matter. -/
theorem membersUpTo_eq_membersText (hs : s.Direct) {n : Nat} (hn : s.objects.size < n) :
    s.membersUpTo dump n [] o = s.membersText dump o := by
  have hle := s.unvisited_nil_le
  have ho : o ∉ [] := List.not_mem_nil
  have hdraws : s.Draws dump [] o (s.draw dump n [] o) := draws_draw (by omega) ho
  have hsame := hdraws.eq_draw (by omega : s.unvisited [] < s.objects.size + 1) ho
  rw [membersText, membersUpTo_eq hs (by omega) ho, membersUpTo_eq hs (by omega) ho, hsame]

theorem render_membersText (hs : s.Direct) {n : Nat} (hn : s.objects.size < n) :
    s.render dump n o [] = some (s.membersText dump o, []) := by
  have hle := s.unvisited_nil_le
  rw [render_eq hs (by omega) List.not_mem_nil, membersUpTo_eq_membersText hs hn]

theorem plain_membersText (hs : s.Direct) (hacyclic : s.Acyclic) {n : Nat}
    (hn : s.objects.size < n) : s.plain dump n o = some (s.membersText dump o) := by
  have hle := s.unvisited_nil_le
  have hnone : ∀ above ∈ ([] : List ObjectId), Relation.TransGen s.Owns above o := by simp
  rw [plain_eq hs hacyclic (by omega) hnone, membersUpTo_eq_membersText hs hn]

theorem dump_of_not_reference (v : Value) :
    s.dump v = s.memberText true [] (s.membersText true) v := rfl

theorem dump_reference (hs : s.Direct) (r : Reference) :
    s.dump (.reference r) = aliasText (s.dump (s.read r)) := by
  have hlimit (members : ObjectId → String) {v : Value} (hv : v.isReference = false) (n : Nat) :
      s.dumpWith [] members n v = s.dumpWith [] members (n + 1) v := by
    cases v with
    | reference => cases hv
    | object => rw [dumpWith_object, dumpWith_object]
    | _ => cases n <;> rfl
  change aliasText (s.dumpWith [] _ s.slots.size (s.read r)) = _
  rw [hlimit _ (hs.read r)]
  rfl

theorem render_dump (hs : s.Direct) {n : Nat} (hn : s.objects.size < n) (v : Value) :
    s.renderValue true (s.render true n) n v [] = some (s.dump v, []) := by
  have hvalue {v : Value} (hv : v.isReference = false) (limit : Nat) :
      s.renderValue true (s.render true n) limit v [] = some (s.dump v, []) := by
    rw [dump_of_not_reference, renderValue_eq hv]
    intro o _ _
    exact render_membersText hs hn
  cases v with
  | reference r =>
    obtain ⟨n, rfl⟩ : ∃ k, n = k + 1 := ⟨n - 1, by omega⟩
    rw [dump_reference hs]
    exact bind_of_some (hvalue (hs.read r) n)
  | _ => exact hvalue rfl n

theorem plain_dump (hs : s.Direct) (hacyclic : s.Acyclic) {n : Nat} (hn : s.objects.size < n)
    (v : Value) : s.plainValue true (s.plain true n) n v = some (s.dump v) := by
  have hvalue {v : Value} (hv : v.isReference = false) (limit : Nat) :
      s.plainValue true (s.plain true n) limit v = some (s.dump v) := by
    rw [dump_of_not_reference, plainValue_eq hv]
    intro o _
    exact ⟨List.not_mem_nil, plain_membersText hs hacyclic hn⟩
  cases v with
  | reference r =>
    obtain ⟨n, rfl⟩ : ∃ k, n = k + 1 := ⟨n - 1, by omega⟩
    rw [dump_reference hs]
    change (s.plainValue true _ n (s.read r)).bind _ = _
    rw [hvalue (hs.read r) n]
    rfl
  | _ => exact hvalue rfl n

theorem detailed_of_echoesMembers (h : s.echoesMembers o = true) :
    s.detailed o = s.typeName o ++ " " ++ s.membersText false o := by
  unfold echoesMembers at h
  unfold detailed
  split <;> simp_all

/-- An object is echoed from its members, whichever renderer shows them. -/
theorem render_echo (hs : s.Direct) {n : Nat} (hn : s.objects.size < n) (v : Value) :
    s.showEcho (s.render false n) v [] = some (s.echo v, []) := by
  unfold showEcho echo
  generalize s.deref v = w
  cases w with
  | object o =>
    dsimp only
    split
    · rename_i hmembers
      rw [detailed_of_echoesMembers hmembers]
      exact bind_of_some (render_membersText hs hn)
    · rfl
  | _ => rfl

theorem plain_echo (hs : s.Direct) (hacyclic : s.Acyclic) {n : Nat} (hn : s.objects.size < n)
    (v : Value) : s.showEcho (s.plain false n) v = some (s.echo v) := by
  unfold showEcho echo
  generalize s.deref v = w
  cases w with
  | object o =>
    dsimp only
    split
    · rename_i hmembers
      rw [detailed_of_echoesMembers hmembers, plain_membersText hs hacyclic hn]
      rfl
    · rfl
  | _ => rfl

/-! The pictures of what is shown. -/

/-- There is one picture of the members of an object, and it has their text. -/
theorem membersText_picture (hs : s.Direct) (dump : Bool) (o : ObjectId) :
    ∃ members, (∀ members', s.Draws dump [] o members' ↔ members' = members) ∧
      s.membersText dump o = s.blockText o (Picture.lines s dump members) := by
  have hn : s.unvisited [] < s.objects.size + 1 := Nat.lt_succ_of_le s.unvisited_nil_le
  have ho : o ∉ [] := List.not_mem_nil
  refine ⟨s.draw dump (s.objects.size + 1) [] o, ?_, membersUpTo_eq hs hn ho⟩
  intro members
  constructor
  · intro h
    exact h.eq_draw hn ho
  · rintro rfl
    exact draws_draw hn ho

/-- There is one picture of a value, and it has the text of the dump. -/
theorem dump_picture (hs : s.Direct) {v : Value} (hv : v.isReference = false) :
    ∃ p : Picture, (∀ p' : Picture, p'.Shows s true v ∧ p'.Marked [] ↔ p' = p) ∧
      s.dump v = p.text s true := by
  rw [dump_of_not_reference]
  cases hobject : v.asObject? with
  | some o =>
    obtain rfl := Value.asObject?_eq_some.1 hobject
    obtain ⟨members, hdraws, htext⟩ := membersText_picture hs true o
    have hmembers := (hdraws members).2 rfl
    refine ⟨.whole o members, ?_, ?_⟩
    · intro p
      constructor
      · rintro ⟨hshows, hmarked⟩
        cases p with
        | leaf w =>
          obtain ⟨rfl, hleaf⟩ := hshows
          cases hleaf
        | again o' => cases hmarked
        | brief o' =>
          obtain ⟨-, hopens⟩ := hshows
          cases hopens
        | whole o' members' =>
          obtain ⟨hsame, -, hshows⟩ := hshows
          cases hsame
          rw [(hdraws members').1 ⟨hshows, hmarked.2⟩]
      · rintro rfl
        exact ⟨⟨rfl, rfl, hmembers.shows⟩, List.not_mem_nil, hmembers.marked⟩
    · rw [memberText_object, if_neg List.not_mem_nil, Picture.text, htext]
      rfl
  | none =>
    refine ⟨.leaf v, ?_, ?_⟩
    · intro p
      constructor
      · rintro ⟨hshows, -⟩
        cases p with
        | leaf w => rw [hshows.1]
        | again o' =>
          obtain rfl := hshows
          cases hobject
        | brief o' =>
          obtain ⟨rfl, -⟩ := hshows
          cases hobject
        | whole o' members' =>
          obtain ⟨rfl, -⟩ := hshows
          cases hobject
      · rintro rfl
        exact ⟨⟨rfl, hobject⟩, trivial⟩
    · rw [memberText_leaf hobject hv, Picture.text]

/-- If no slot holds a reference, the renderer with the list of the objects that are being shown ends for
every value, and gives the members of an object, the dump and the echo. Each rendering leaves the list as
it found it. The mark stands for the objects further up, and for them only: there is one such picture, and
what is shown is its text. If no object is reached from itself through own members, the renderer without
the list gives the same. -/
theorem rendering_exact {s : State} (hs : s.Direct) :
    (∀ dump o, Settles (fun n => s.render dump n o []) (s.membersText dump o, [])) ∧
    (∀ v, Settles (fun n => s.renderValue true (s.render true n) n v []) (s.dump v, [])) ∧
    (∀ v, Settles (fun n => s.showEcho (s.render false n) v []) (s.echo v, [])) ∧
    (∀ dump n o, (s.render dump n o).Restores) ∧
    (∀ dump n limit v, (s.renderValue dump (s.render dump n) limit v).Restores) ∧
    (∀ dump o, ∃ members, (∀ members', s.Draws dump [] o members' ↔ members' = members) ∧
      s.membersText dump o = s.blockText o (Picture.lines s dump members)) ∧
    (∀ v, v.isReference = false →
      ∃ p : Picture, (∀ p' : Picture, p'.Shows s true v ∧ p'.Marked [] ↔ p' = p) ∧
        s.dump v = p.text s true) ∧
    (s.Acyclic →
      (∀ dump o, Settles (fun n => s.plain dump n o) (s.membersText dump o)) ∧
      (∀ v, Settles (fun n => s.plainValue true (s.plain true n) n v) (s.dump v)) ∧
      ∀ v, Settles (fun n => s.showEcho (s.plain false n) v) (s.echo v)) := by
  refine ⟨?_, ?_, ?_, ?_, ?_, ?_, ?_, ?_⟩
  · intro dump o
    exact ⟨s.objects.size + 1, fun n hn => render_membersText hs hn⟩
  · intro v
    exact ⟨s.objects.size + 1, fun n hn => render_dump hs hn v⟩
  · intro v
    exact ⟨s.objects.size + 1, fun n hn => render_echo hs hn v⟩
  · intro dump n o
    exact restores_render n o
  · intro dump n limit v
    exact restores_renderValue (restores_render n) limit v
  · exact membersText_picture hs
  · intro v hv
    exact dump_picture hs hv
  · intro hacyclic
    refine ⟨?_, ?_, ?_⟩
    · intro dump o
      exact ⟨s.objects.size + 1, fun n hn => plain_membersText hs hacyclic hn⟩
    · intro v
      exact ⟨s.objects.size + 1, fun n hn => plain_dump hs hacyclic hn v⟩
    · intro v
      exact ⟨s.objects.size + 1, fun n hn => plain_echo hs hacyclic hn v⟩

/-- Two objects that hold each other. -/
def twoInCircle : State where
  objects := #[{ members := Table.empty.insert "b" ⟨0⟩ }, { members := Table.empty.insert "a" ⟨1⟩ }]
  slots := #[{ value := .object ⟨1⟩ }, { value := .object ⟨0⟩ }]

/-- An object that holds another one under two names. -/
def heldTwice : State where
  objects := #[{ members := (Table.empty.insert "a" ⟨0⟩).insert "b" ⟨0⟩ },
    { members := Table.empty.insert "c" ⟨1⟩ }]
  slots := #[{ value := .object ⟨1⟩ }, { value := .int 5 }]

theorem acyclic_heldTwice : heldTwice.Acyclic := by
  have hvalues : ∀ i < 2, ∀ member ∈ heldTwice.memberValues ⟨i⟩,
      ∀ o, member.2.asObject? = some o → i < o.index := by decide +kernel
  have howns {o o' : ObjectId} (h : heldTwice.Owns o o') : o.index < o'.index := by
    obtain ⟨name, hmember⟩ := h
    exact hvalues o.index (index_lt_of_memberValues hmember) _ hmember o' rfl
  have hreaches {o o' : ObjectId} (h : Relation.TransGen heldTwice.Owns o o') :
      o.index < o'.index := by
    induction h with
    | single h => exact howns h
    | tail _ h ih => exact ih.trans (howns h)
  intro o hcircle
  exact absurd (hreaches hcircle) (Nat.lt_irrefl _)

theorem rendering_exact_twoInCircle :
    (twoInCircle.Direct ∧
      Settles (fun n => twoInCircle.renderValue true (twoInCircle.render true n) n
        (.object ⟨0⟩) [])
        ("Value\x7b object: Object:\x7b\x7b\n  b: Value\x7b object: Object:\x7b\x7b\n  " ++
          "a: <recursive reference>\n\x7d\x7d \x7d\n\x7d\x7d \x7d", [])) ∧
    heldTwice.Direct ∧ heldTwice.Acyclic ∧
      Settles (fun n => heldTwice.plain false n ⟨0⟩)
        "\x7b\n  a: Object \x7b\n  c: 5\n\x7d\n  b: Object \x7b\n  c: 5\n\x7d\n\x7d" := by
  have hcircle : twoInCircle.Direct := direct_iff.2 (by decide +kernel)
  have hdump : twoInCircle.dump (.object ⟨0⟩) =
      "Value\x7b object: Object:\x7b\x7b\n  b: Value\x7b object: Object:\x7b\x7b\n  " ++
        "a: <recursive reference>\n\x7d\x7d \x7d\n\x7d\x7d \x7d" := by decide +kernel
  have htwice : heldTwice.Direct := direct_iff.2 (by decide +kernel)
  have hmembers : heldTwice.membersText false ⟨0⟩ =
      "\x7b\n  a: Object \x7b\n  c: 5\n\x7d\n  b: Object \x7b\n  c: 5\n\x7d\n\x7d" := by
    decide +kernel
  obtain ⟨-, hends, -⟩ := rendering_exact hcircle
  obtain ⟨-, -, -, -, -, -, -, hplain⟩ := rendering_exact htwice
  refine ⟨⟨hcircle, ?_⟩, htwice, acyclic_heldTwice, ?_⟩
  · rw [← hdump]
    exact hends (.object ⟨0⟩)
  · rw [← hmembers]
    exact (hplain acyclic_heldTwice).1 false ⟨0⟩

end State

end Scripting
