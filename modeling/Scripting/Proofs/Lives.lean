import Scripting.State.Liveness

/-!
Settling the lives of classes changes nothing but those lives.
-/

namespace Scripting.State

/-- Two states that differ at most in which classes are alive and which are mortal. -/
def SameButLives (s s' : State) : Prop :=
  ∃ classes mortal, s' = { s with classes := classes, mortal := mortal }

theorem SameButLives.refl (s : State) : s.SameButLives s :=
  ⟨s.classes, s.mortal, rfl⟩

theorem SameButLives.trans {s s' s'' : State} (h : s.SameButLives s') (h' : s'.SameButLives s'') :
    s.SameButLives s'' := by
  obtain ⟨classes, mortal, rfl⟩ := h
  obtain ⟨classes', mortal', rfl⟩ := h'
  exact ⟨classes', mortal', rfl⟩

theorem settleUnreached_sameButLives (counts : Array Nat) (s : State) (c : ClassId) :
    s.SameButLives (settleUnreached counts s c) := by
  unfold settleUnreached
  dsimp only
  split
  · exact ⟨_, _, rfl⟩
  · exact ⟨_, _, rfl⟩

theorem foldl_settleUnreached_sameButLives (counts : Array Nat) (classes : List ClassId)
    (s : State) : s.SameButLives (classes.foldl (settleUnreached counts) s) := by
  induction classes generalizing s with
  | nil => exact .refl s
  | cons c rest ih => exact (settleUnreached_sameButLives counts s c).trans (ih _)

theorem settleAmong_sameButLives (s : State) (classes : List ClassId) :
    s.SameButLives (s.settleAmong classes) := by
  unfold settleAmong
  dsimp only
  split
  · exact .refl s
  · split
    · exact .refl s
    · exact foldl_settleUnreached_sameButLives _ _ s

/-- What settling does to classes: some of the mortal ones are not mortal any more, and some of these
have ended their life. -/
structure Settles (s s' : State) : Prop where
  same : s.SameButLives s'
  size : s'.classes.size = s.classes.size
  classInfo : ∀ c, s'.classInfo c = { s.classInfo c with alive := (s'.classInfo c).alive }
  alive : ∀ c, (s'.classInfo c).alive = true → (s.classInfo c).alive = true
  mortal : ∀ c ∈ s'.mortal, c ∈ s.mortal
  kept : ∀ c, c ∉ s.mortal → (s'.classInfo c).alive = (s.classInfo c).alive

theorem Settles.refl (s : State) : s.Settles s where
  same := .refl s
  size := rfl
  classInfo _ := rfl
  alive _ h := h
  mortal _ h := h
  kept _ _ := rfl

theorem Settles.trans {s s' s'' : State} (h : s.Settles s') (h' : s'.Settles s'') :
    s.Settles s'' where
  same := h.same.trans h'.same
  size := h'.size.trans h.size
  classInfo c := by rw [h'.classInfo c, h.classInfo c]
  alive c hc := h.alive c (h'.alive c hc)
  mortal c hc := h.mortal c (h'.mortal c hc)
  kept c hc := by rw [h'.kept c fun hmem => hc (h.mortal c hmem), h.kept c hc]

theorem classInfo_endLife (s : State) (c c' : ClassId) :
    (s.endLife c).classInfo c' =
      if c' = c ∧ c'.index < s.classes.size then { s.classInfo c' with alive := false }
      else s.classInfo c' := by
  obtain ⟨c⟩ := c
  obtain ⟨c'⟩ := c'
  simp only [State.classInfo, endLife, Array.getD_eq_getD_getElem?, Array.getElem?_modify]
  by_cases h : c = c'
  · subst h
    by_cases hsize : c < s.classes.size <;> simp [hsize]
  · simp [h, Ne.symm h]

/-- The life of one more class is settled. -/
theorem Settles.settleUnreached {s s' : State} (h : s.Settles s') (counts : Array Nat) {c : ClassId}
    (hc : c ∈ s.mortal) : s.Settles (settleUnreached counts s' c) := by
  have hsame := h.same.trans (settleUnreached_sameButLives counts s' c)
  have hmortal : ∀ c', c' ∈ s'.mortal.filter (· ≠ c) → c' ∈ s.mortal :=
    fun c' hc' => h.mortal c' (List.mem_filter.1 hc').1
  unfold State.settleUnreached at hsame ⊢
  dsimp only at hsame ⊢
  split at hsame
  · rename_i hremaining
    rw [if_pos hremaining]
    have hinfo : ∀ c', (State.endLife { s' with mortal := s'.mortal.filter (· ≠ c) } c).classInfo c' =
        if c' = c ∧ c'.index < s'.classes.size then { s'.classInfo c' with alive := false }
        else s'.classInfo c' := fun c' => classInfo_endLife _ c c'
    refine ⟨hsame, ?_, ?_, ?_, hmortal, ?_⟩
    · rw [← h.size]
      exact Array.size_modify
    · intro c'
      rw [hinfo]
      split
      · rw [h.classInfo c']
      · exact h.classInfo c'
    · intro c' halive
      rw [hinfo] at halive
      split at halive
      · cases halive
      · exact h.alive c' halive
    · intro c' hc'
      rw [hinfo, if_neg]
      · exact h.kept c' hc'
      · rintro ⟨rfl, -⟩
        exact hc' hc
  · rename_i hremaining
    rw [if_neg hremaining]
    exact ⟨hsame, h.size, h.classInfo, h.alive, hmortal, h.kept⟩

theorem settles_settleAmong (s : State) (classes : List ClassId) :
    s.Settles (s.settleAmong classes) := by
  have hfold : ∀ (counts : Array Nat) (ended : List ClassId) (s' : State), s.Settles s' →
      (∀ c ∈ ended, c ∈ s.mortal) → s.Settles (ended.foldl (settleUnreached counts) s') := by
    intro counts ended
    induction ended with
    | nil => exact fun s' h _ => h
    | cons c rest ih =>
      intro s' h hended
      rw [List.forall_mem_cons] at hended
      exact ih _ (h.settleUnreached counts hended.1) hended.2
  unfold settleAmong
  dsimp only
  split
  · exact .refl s
  · split
    · exact .refl s
    · apply hfold _ _ s (.refl s)
      intro c hc
      have hmem := (List.mem_filter.1 (List.mem_filter.1 hc).1).2
      exact List.contains_iff_mem.1 hmem

theorem settles_settle (s : State) : s.Settles s.settle :=
  s.settles_settleAmong s.mortal

theorem settles_settleObject (s : State) (o : ObjectId) : s.Settles (s.settleObject o) := by
  unfold settleObject settleLineage
  split
  · split
    · exact .refl s
    · exact s.settles_settleAmong _
  · exact .refl s

/-- What is held does not matter for what settling did. -/
theorem Settles.held {s s' : State} {nodes : List Node} (h : (s.hold nodes).Settles s') :
    s.Settles { s' with held := s.held } := by
  obtain ⟨hsame, hsize, hinfo, halive, hmortal, hkept⟩ := h
  obtain ⟨classes, mortal, rfl⟩ := hsame
  exact ⟨⟨classes, mortal, rfl⟩, hsize, hinfo, halive, hmortal, hkept⟩

/-- Without mortal classes there is nothing to settle. -/
theorem settleAmong_eq_self {s : State} (h : s.mortal = []) (classes : List ClassId) :
    s.settleAmong classes = s := by
  unfold settleAmong
  simp [h]

theorem settleObject_eq_self {s : State} (h : s.mortal = []) (o : ObjectId) :
    s.settleObject o = s := by
  unfold settleObject settleLineage
  simp only [h, List.isEmpty_nil, if_true]
  split <;> rfl

theorem mem_held_hold {s : State} {nodes : List Node} {node : Node}
    (h : node ∈ (s.hold nodes).held) : node ∈ s.held ∨ node ∈ nodes := by
  rcases List.mem_append.1 h with hnew | hold
  · exact .inr (List.mem_filter.1 hnew).1
  · exact .inl hold

end Scripting.State
