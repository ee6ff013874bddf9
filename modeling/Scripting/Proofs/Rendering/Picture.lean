import Mathlib.Data.Finset.Card
import Scripting.Display.Members
import Scripting.Proofs.Heap

/-!
Pictures of objects: what is shown of an object, with its members inside it.

A picture is a tree, so the objects further up on the way to a place in it are those whose members are
being shown there. A picture is marked if exactly these objects are replaced by the mark. Main statements:
an object has a marked picture (`draws_draw`) and only one (`Draws.eq_draw`), and its members are shown as
in that picture (`membersUpTo_eq`).
-/

namespace Scripting

theorem Value.asObject?_eq_some {v : Value} {o : ObjectId} :
    v.asObject? = some o ↔ v = .object o := by
  cases v <;> simp [Value.asObject?]

/-- What is shown of a value. -/
inductive Picture where
  /-- A value that is not an object. -/
  | leaf (v : Value)
  /-- The mark in the place of an object. -/
  | again (o : ObjectId)
  /-- An object without its members. -/
  | brief (o : ObjectId)
  /-- An object with its own members. -/
  | whole (o : ObjectId) (members : List (String × Picture))

namespace State

variable (s : State) (dump : Bool)

/-- Holds for an object that is shown with its own members where it is a member. -/
def opens (o : ObjectId) : Bool :=
  dump || (s.object o).classId.isNone

/-- A member that is an object, around its own members. -/
def framed (o : ObjectId) (members : String) : String :=
  if dump then "Value\x7b object: " ++ s.typeName o ++ ":\x7b" ++ members ++ "\x7d \x7d"
  else s.typeName o ++ " " ++ members

/-- A member that is not an object. -/
def leafText (v : Value) : String :=
  if dump then s.dumpWith [] (fun _ => "") 0 v else s.text v

/-- The members of an object in braces, from the texts of its own members. -/
def blockText (o : ObjectId) (lines : List (String × String)) : String :=
  if lines.isEmpty && (s.objectMethodNames o).isEmpty then "\x7b\x7d"
  else
    inBlock <|
      lines.map (fun line => "  " ++ line.1 ++ ": " ++ line.2) ++
      (s.objectMethodNames o).map (fun name => "  " ++ name ++ "#: <function>")

/-- The own members of an object. -/
def memberValues (o : ObjectId) : List (String × Value) :=
  (s.ownMembers o).map fun member => (member.1, member.2.value)

/-- No slot holds a reference. -/
def Direct : Prop :=
  ∀ i, (s.slot i).value.isReference = false

end State

namespace Picture

mutual

def text (s : State) (dump : Bool) : Picture → String
  | leaf v => s.leafText dump v
  | again _ => State.recursiveMark
  | brief o => s.brief o
  | whole o members => s.framed dump o (s.blockText o (lines s dump members))

def lines (s : State) (dump : Bool) : List (String × Picture) → List (String × String)
  | [] => []
  | (name, p) :: rest => (name, p.text s dump) :: lines s dump rest

end

mutual

/-- The mark stands for the objects further up, and for them only. -/
def Marked (above : List ObjectId) : Picture → Prop
  | leaf _ => True
  | again o => o ∈ above
  | brief o => o ∉ above
  | whole o members => o ∉ above ∧ AllMarked (o :: above) members

def AllMarked (above : List ObjectId) : List (String × Picture) → Prop
  | [] => True
  | (_, p) :: rest => p.Marked above ∧ AllMarked above rest

end

mutual

/-- The picture shows a value. Of an object it may show the mark only. -/
def Shows (s : State) (dump : Bool) : Picture → Value → Prop
  | leaf v, w => w = v ∧ v.asObject? = none
  | again o, w => w = .object o
  | brief o, w => w = .object o ∧ s.opens dump o = false
  | whole o members, w =>
    w = .object o ∧ s.opens dump o = true ∧ ShowsAll s dump members (s.memberValues o)

def ShowsAll (s : State) (dump : Bool) :
    List (String × Picture) → List (String × Value) → Prop
  | [], [] => True
  | (name, p) :: rest, (name', v) :: values =>
    name = name' ∧ p.Shows s dump v ∧ ShowsAll s dump rest values
  | _, _ => False

end

theorem lines_eq (s : State) (dump : Bool) (members : List (String × Picture)) :
    lines s dump members = members.map fun member => (member.1, member.2.text s dump) := by
  induction members with
  | nil => rfl
  | cons member rest ih =>
    rw [lines, List.map_cons, ih]

theorem allMarked_iff {above : List ObjectId} {members : List (String × Picture)} :
    AllMarked above members ↔ ∀ member ∈ members, member.2.Marked above := by
  induction members with
  | nil => simp [AllMarked]
  | cons member rest ih =>
    rw [AllMarked, List.forall_mem_cons, ih]

theorem showsAll_map {s : State} {dump : Bool} {values : List (String × Value)}
    {f : Value → Picture} (h : ∀ member ∈ values, (f member.2).Shows s dump member.2) :
    ShowsAll s dump (values.map fun member => (member.1, f member.2)) values := by
  induction values with
  | nil => trivial
  | cons member rest ih =>
    obtain ⟨hhead, htail⟩ := List.forall_mem_cons.1 h
    exact ⟨rfl, hhead, ih htail⟩

/-- Pictures are the same if each of them is the same as the one that a function gives. -/
theorem ShowsAll.eq_map {s : State} {dump : Bool} {above : List ObjectId}
    {members : List (String × Picture)} {values : List (String × Value)} {f : Value → Picture}
    (hshows : ShowsAll s dump members values) (hmarked : AllMarked above members)
    (h : ∀ member ∈ values, ∀ p : Picture, p.Shows s dump member.2 → p.Marked above →
      p = f member.2) :
    members = values.map fun member => (member.1, f member.2) := by
  induction members generalizing values with
  | nil =>
    cases values with
    | nil => rfl
    | cons => exact absurd hshows id
  | cons member rest ih =>
    cases values with
    | nil => exact absurd hshows id
    | cons value values =>
      obtain ⟨hname, hhead, htail⟩ := hshows
      obtain ⟨hmark, hmarks⟩ := hmarked
      obtain ⟨hvalue, hvalues⟩ := List.forall_mem_cons.1 h
      rw [List.map_cons, ← ih htail hmarks hvalues, ← hvalue _ hhead hmark, ← hname]

end Picture

namespace State

variable {s : State} {dump : Bool} {o : ObjectId} {above : List ObjectId}

theorem direct_iff : s.Direct ↔ ∀ slot ∈ s.slots, slot.value.isReference = false := by
  constructor
  · intro h slot hslot
    obtain ⟨i, hi, rfl⟩ := Array.mem_iff_getElem.1 hslot
    simpa [State.slot, hi] using h ⟨i⟩
  · intro h i
    by_cases hi : i.index < s.slots.size
    · simpa [slot, hi] using h _ (Array.getElem_mem hi)
    · rw [s.slot_of_size_le (by omega)]
      rfl

theorem Direct.read (hs : s.Direct) (r : Reference) : (s.read r).isReference = false :=
  hs r.slot

theorem Direct.memberValues (hs : s.Direct) {name : String} {v : Value}
    (h : (name, v) ∈ s.memberValues o) : v.isReference = false := by
  simp only [State.memberValues, ownMembers, List.map_map, List.mem_map, Function.comp_apply] at h
  obtain ⟨⟨_, slot⟩, -, hv⟩ := h
  cases hv
  exact hs slot

theorem index_lt_of_memberValues {member : String × Value} (h : member ∈ s.memberValues o) :
    o.index < s.objects.size := by
  by_contra hsize
  have hobject : s.object o = default := by simp [object, hsize]
  simp only [memberValues, ownMembers, hobject] at h
  cases h

/-! The objects that are not shown further up. -/

/-- The number of the objects that are not in a list. -/
def unvisited (s : State) (above : List ObjectId) : Nat :=
  ((Finset.range s.objects.size).filter fun i => ⟨i⟩ ∉ above).card

theorem unvisited_nil_le : s.unvisited [] ≤ s.objects.size := by
  calc s.unvisited [] ≤ (Finset.range s.objects.size).card := Finset.card_filter_le _ _
    _ = s.objects.size := Finset.card_range _

theorem unvisited_cons_lt (hsize : o.index < s.objects.size) (ho : o ∉ above) :
    s.unvisited (o :: above) < s.unvisited above := by
  apply Finset.card_lt_card
  rw [Finset.ssubset_iff_of_subset]
  · refine ⟨o.index, ?_, ?_⟩
    · simpa using ⟨hsize, ho⟩
    · simp
  · intro i hi
    simp only [Finset.mem_filter, List.mem_cons, not_or] at hi ⊢
    exact ⟨hi.1, hi.2.2⟩

/-- Objects inside each other are all different, so their number bounds the depth. -/
theorem shown_induction {P : Nat → List ObjectId → ObjectId → Prop}
    (step : ∀ n above o, o ∉ above →
      (∀ name o', (name, .object o') ∈ s.memberValues o → o' ∉ o :: above → P n (o :: above) o') →
      P (n + 1) above o)
    {n : Nat} {above : List ObjectId} {o : ObjectId} (hn : s.unvisited above < n)
    (ho : o ∉ above) : P n above o := by
  induction n generalizing above o with
  | zero => omega
  | succ n ih =>
    apply step n above o ho
    intro name o' hmember ho'
    apply ih ?_ ho'
    have hlt := unvisited_cons_lt (index_lt_of_memberValues hmember) ho
    omega

/-! The picture that is drawn. -/

variable (s dump)

def drawValue (above : List ObjectId) (members : ObjectId → List (String × Picture)) :
    Value → Picture
  | .object o =>
    if o ∈ above then .again o
    else if s.opens dump o then .whole o (members o)
    else .brief o
  | v => .leaf v

/-- The members of an object, down to `n` objects inside each other. -/
def draw : Nat → List ObjectId → ObjectId → List (String × Picture)
  | 0, _, _ => []
  | n + 1, above, o =>
    (s.memberValues o).map fun member =>
      (member.1, s.drawValue dump (o :: above) (draw n (o :: above)) member.2)

/-- The picture of the members of an object. -/
structure Draws (above : List ObjectId) (o : ObjectId) (members : List (String × Picture)) :
    Prop where
  shows : Picture.ShowsAll s dump members (s.memberValues o)
  marked : Picture.AllMarked (o :: above) members

variable {s dump}

theorem draws_draw {n : Nat} (hn : s.unvisited above < n) (ho : o ∉ above) :
    s.Draws dump above o (s.draw dump n above o) := by
  refine shown_induction (P := fun n above o => s.Draws dump above o (s.draw dump n above o))
    ?_ hn ho
  intro n above o ho ih
  constructor
  · apply Picture.showsAll_map
    rintro ⟨name, v⟩ hmember
    cases v with
    | object o' =>
      simp only [drawValue]
      split
      · rfl
      · rename_i hfresh
        split
        · rename_i hopens
          exact ⟨rfl, hopens, (ih name o' hmember hfresh).shows⟩
        · rename_i hopens
          exact ⟨rfl, by simpa using hopens⟩
    | _ => exact ⟨rfl, rfl⟩
  · rw [Picture.allMarked_iff, draw, List.forall_mem_map]
    rintro ⟨name, v⟩ hmember
    cases v with
    | object o' =>
      simp only [drawValue]
      split
      · assumption
      · rename_i hfresh
        split
        · exact ⟨hfresh, (ih name o' hmember hfresh).marked⟩
        · exact hfresh
    | _ => trivial

/-- What a picture shows and where it has marks say what it is. -/
theorem Draws.eq_draw {n : Nat} (hn : s.unvisited above < n) (ho : o ∉ above)
    {members : List (String × Picture)} (h : s.Draws dump above o members) :
    members = s.draw dump n above o := by
  refine shown_induction (P := fun n above o => ∀ members, s.Draws dump above o members →
    members = s.draw dump n above o) ?_ hn ho members h
  intro n above o ho ih members h
  apply h.shows.eq_map h.marked
  rintro ⟨name, v⟩ hmember p hshows hmarked
  cases p with
  | leaf w =>
    obtain ⟨rfl, hleaf⟩ := hshows
    cases v with
    | object o' => cases hleaf
    | _ => rfl
  | again o' =>
    obtain rfl : v = .object o' := hshows
    exact (if_pos hmarked).symm
  | brief o' =>
    obtain ⟨rfl, hopens⟩ := hshows
    simp only [drawValue, hopens, if_neg hmarked, Bool.false_eq_true, if_false]
  | whole o' members' =>
    obtain ⟨rfl, hopens, hshows⟩ := hshows
    obtain ⟨hfresh, hmarked⟩ := hmarked
    simp only [drawValue, hopens, if_neg hfresh, if_true]
    rw [ih name o' hmember hfresh members' ⟨hshows, hmarked⟩]

/-! The text of the picture. -/

theorem memberText_leaf {v : Value} (hleaf : v.asObject? = none) (hv : v.isReference = false)
    (members : ObjectId → String) : s.memberText dump above members v = s.leafText dump v := by
  have hdump (n : Nat) : s.dumpWith above members n v = s.dumpWith [] (fun _ => "") 0 v := by
    cases v with
    | object => cases hleaf
    | reference => cases hv
    | _ => cases n <;> rfl
  unfold memberText leafText
  rw [hdump]
  congr 1
  cases v with
  | object => cases hleaf
  | _ => rfl

theorem memberText_object (members : ObjectId → String) :
    s.memberText dump above members (.object o) =
      if o ∈ above then recursiveMark
      else if s.opens dump o then s.framed dump o (members o)
      else s.brief o := by
  cases dump with
  | true => simp [memberText, dumpWith_object, opens, framed]
  | false => simp [memberText, opens, framed]

theorem membersUpTo_succ (n : Nat) :
    s.membersUpTo dump (n + 1) above o =
      s.blockText o ((s.memberValues o).map fun member => (member.1,
        s.memberText dump (o :: above) (s.membersUpTo dump n (o :: above)) member.2)) := by
  simp only [membersUpTo, blockText, memberValues, ownMembers, List.map_map, List.isEmpty_map]
  rfl

theorem membersUpTo_eq (hs : s.Direct) {n : Nat} (hn : s.unvisited above < n) (ho : o ∉ above) :
    s.membersUpTo dump n above o =
      s.blockText o (Picture.lines s dump (s.draw dump n above o)) := by
  refine shown_induction (P := fun n above o => s.membersUpTo dump n above o =
    s.blockText o (Picture.lines s dump (s.draw dump n above o))) ?_ hn ho
  intro n above o ho ih
  rw [membersUpTo_succ, Picture.lines_eq, draw, List.map_map]
  congr 1
  apply List.map_congr_left
  rintro ⟨name, v⟩ hmember
  have hv := hs.memberValues hmember
  cases v with
  | object o' =>
    simp only [Function.comp_apply, drawValue, memberText_object]
    split
    · rw [Picture.text]
    · rename_i hfresh
      split
      · rw [Picture.text, ih name o' hmember hfresh]
      · rw [Picture.text]
  | reference => cases hv
  | _ =>
    rw [memberText_leaf rfl hv]
    rw [Function.comp_apply, drawValue, Picture.text]
    simp

end State

end Scripting
