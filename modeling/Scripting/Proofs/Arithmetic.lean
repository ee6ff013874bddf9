import Scripting.Proofs.Conversion

/-!
Integer arithmetic.

On values that count as integers every operator works modulo 2 ^ 64, division goes toward zero, and only
a zero on the right is refused. Whatever the operands are, an operator gives a value or throws. Main
statement: `arithmetic_wraps`.
-/

namespace Scripting

/-! Words of 64 bits. -/

theorem div_mul_add_mod_word (x y : Int64) : x / y * y + x % y = x := by
  apply Int64.toInt_inj.1
  rw [Int64.toInt_add, Int64.toInt_mul, Int64.toInt_div, Int64.toInt_mod]
  simp only [Int.bmod_mul_bmod, Int.bmod_add_bmod, Int.tdiv_mul_add_tmod]
  exact Int64.toInt_bmod x

theorem natAbs_mod_word_lt (x : Int64) {y : Int64} (hy : y ≠ 0) :
    (x % y).toInt.natAbs < y.toInt.natAbs := by
  rw [Int64.toInt_mod, Int.natAbs_tmod]
  apply Nat.mod_lt
  rw [Nat.pos_iff_ne_zero, Int.natAbs_ne_zero]
  exact fun h => hy (Int64.toInt_inj.1 h)

theorem sign_mod_word (x y : Int64) : (x % y).toInt = 0 ∨ (x % y).toInt.sign = x.toInt.sign := by
  rw [Int64.toInt_mod, ← Int.sign_eq_zero_iff_zero, Int.sign_tmod]
  split
  · exact .inl rfl
  · exact .inr rfl

namespace Eval

open State

variable {s : State} {a b : Value} {x y : Int64}

/-! Operands that count as integers. -/

theorem integers_bind {α : Type} (ha : s.Counts (s.deref a) x) (hb : s.Counts (s.deref b) y)
    (f : Int64 → Int64 → Eval α) : (toInt a >>= fun m => toInt b >>= fun n => f m n) s = f x y s := by
  rw [bind_of_ok (toInt_of_counts ha), bind_of_ok (toInt_of_counts hb)]

theorem divide_of_counts (ha : s.Counts (s.deref a) x) (hb : s.Counts (s.deref b) y) :
    divide a b s = if y = 0 then fail .divideByZero s else .ok (.int (x / y)) s := by
  refine (integers_bind ha hb _).trans ?_
  split <;> rfl

theorem modulo_of_counts (ha : s.Counts (s.deref a) x) (hb : s.Counts (s.deref b) y) :
    modulo a b s = if y = 0 then fail .moduloByZero s else .ok (.int (x % y)) s := by
  refine (integers_bind ha hb _).trans ?_
  split <;> rfl

/-- A refusal throws, and a result does not. -/
theorem fail_or_ok_throws (fault : Fault) (v : Value) (c : Prop) [Decidable c] :
    (∃ e s', (if c then fail fault s else .ok v s) = Outcome.thrown e s') ↔ c := by
  split
  case isTrue hc => exact ⟨fun _ => hc, fun _ => ⟨_, _, rfl⟩⟩
  case isFalse hc => exact ⟨nofun, fun h => absurd h hc⟩

/-- What the operators make of operands that count as `x` and `y`. -/
structure Calculates (s : State) (a b : Value) (x y : Int64) : Prop where
  add : ∃ n : Int64, add a b s = .ok (.int n) s ∧ n.toInt = (x.toInt + y.toInt).bmod (2 ^ 64)
  subtract : ∃ n : Int64, subtract a b s = .ok (.int n) s ∧
    n.toInt = (x.toInt - y.toInt).bmod (2 ^ 64)
  multiply : ∃ n : Int64, multiply a b s = .ok (.int n) s ∧
    n.toInt = (x.toInt * y.toInt).bmod (2 ^ 64)
  divide_throws : (∃ e s', divide a b s = .thrown e s') ↔ y = 0
  modulo_throws : (∃ e s', modulo a b s = .thrown e s') ↔ y = 0
  /-- The quotient times the divisor, with the remainder added, is the dividend again. -/
  divide : y ≠ 0 → ∃ q r p : Int64, divide a b s = .ok (.int q) s ∧ modulo a b s = .ok (.int r) s ∧
    Eval.multiply (.int q) b s = .ok (.int p) s ∧ Eval.add (.int p) (.int r) s = .ok (.int x) s ∧
    (q.toInt * y.toInt + r.toInt).bmod (2 ^ 64) = x.toInt ∧
    r.toInt.natAbs < y.toInt.natAbs ∧ (r.toInt = 0 ∨ r.toInt.sign = x.toInt.sign)
  /-- The negative is the complement and one, and the difference from zero. -/
  minus : ∃ n m : Int64, minus a s = .ok (.int n) s ∧ n.toInt = (-x.toInt).bmod (2 ^ 64) ∧
    bitwiseNot a s = .ok (.int m) s ∧ Eval.add (.int m) (.int 1) s = .ok (.int n) s ∧
    Eval.subtract (.int 0) a s = .ok (.int n) s
  plus : plus a s = .ok (.int x) s

theorem calculates (ha : s.Counts (s.deref a) x) (hb : s.Counts (s.deref b) y) :
    Calculates s a b x y where
  add := ⟨x + y, add_of_counts ha hb, Int64.toInt_add x y⟩
  subtract := ⟨x - y, integers_bind ha hb _, Int64.toInt_sub x y⟩
  multiply := ⟨x * y, integers_bind ha hb _, Int64.toInt_mul x y⟩
  divide_throws := by
    rw [divide_of_counts ha hb]
    exact fail_or_ok_throws ..
  modulo_throws := by
    rw [modulo_of_counts ha hb]
    exact fail_or_ok_throws ..
  divide hy := by
    refine ⟨x / y, x % y, x / y * y, (divide_of_counts ha hb).trans (if_neg hy),
      (modulo_of_counts ha hb).trans (if_neg hy), integers_bind (counts_int s _) hb _, ?_, ?_,
      natAbs_mod_word_lt x hy, sign_mod_word x y⟩
    · rw [add_of_counts (counts_int s _) (counts_int s _), div_mul_add_mod_word]
    · have hidentity := congrArg Int64.toInt (div_mul_add_mod_word x y)
      rwa [Int64.toInt_add, Int64.toInt_mul, Int.bmod_add_bmod] at hidentity
  minus := by
    refine ⟨-x, ~~~x, bind_of_ok (toInt_of_counts ha) _, Int64.toInt_neg x,
      bind_of_ok (toInt_of_counts ha) _, ?_, ?_⟩
    · rw [add_of_counts (counts_int s _) (counts_int s _), Int64.neg_eq_not_add]
    · refine (integers_bind (counts_int s 0) ha _).trans ?_
      rw [Int64.zero_sub]
      rfl
  plus := bind_of_ok (toInt_of_counts ha) _

/-! Every operator ends. -/

/-- A computation that gives a value or throws, in every state. -/
def Concludes {α : Type} (m : Eval α) : Prop :=
  ∀ s, ∃ s', (m s).EndsIn s'

section

variable {α β : Type}

theorem concludes_pure (a : α) : Concludes (pure a) :=
  fun s => ⟨s, .inl ⟨a, rfl⟩⟩

theorem concludes_look (f : State → α) : Concludes (look f) :=
  fun s => ⟨s, .inl ⟨f s, rfl⟩⟩

theorem concludes_fail (fault : Fault) : Concludes (fail fault : Eval α) :=
  fun s => ⟨(s.newException .exception fault.message).2, .inr ⟨_, rfl⟩⟩

theorem Concludes.bind {m : Eval α} {f : α → Eval β} (hm : Concludes m) (hf : ∀ a, Concludes (f a)) :
    Concludes (m >>= f) := by
  intro s
  obtain ⟨s₁, ⟨a, ha⟩ | ⟨e, he⟩⟩ := hm s
  · rw [bind_of_ok ha]
    exact hf a s₁
  · exact ⟨s₁, .inr ⟨e, bind_of_thrown he f⟩⟩

theorem Concludes.attempt {m : Eval α} (hm : Concludes m) : Concludes (attempt m) := by
  intro s
  obtain ⟨s₁, ⟨a, ha⟩ | ⟨e, he⟩⟩ := hm s
  · exact ⟨s₁, .inl ⟨.ok a, by rw [Eval.attempt, ha]⟩⟩
  · exact ⟨s₁, .inl ⟨.error e, by rw [Eval.attempt, he]⟩⟩

end

theorem concludes_newString (text : String) : Concludes (newString text) :=
  fun s => ⟨(s.newString text).2, .inl ⟨_, rfl⟩⟩

theorem concludes_toInt (v : Value) : Concludes (toInt v) := by
  intro s
  obtain ⟨n, -, hn⟩ | ⟨-, fault, hfault⟩ := toInt_cases v s
  · exact ⟨s, .inl ⟨n, hn⟩⟩
  · rw [hfault]
    exact concludes_fail fault s

theorem concludes_add (a b : Value) : Concludes (add a b) := by
  refine (concludes_look _).bind fun lhs => (concludes_look _).bind fun rhs => ?_
  refine (concludes_toInt lhs).attempt.bind fun left => (concludes_toInt rhs).attempt.bind fun right => ?_
  split
  · exact concludes_pure _
  · split
    · refine (concludes_look _).bind fun behavior => ?_
      split
      · exact concludes_fail _
      · exact (concludes_look _).bind fun _ => concludes_newString _
      · exact (concludes_look _).bind fun _ => concludes_newString _
      · exact concludes_fail _
    · exact (concludes_look _).bind fun _ => concludes_newString _

theorem concludes_operatorCompare (o : ObjectId) (v : Value) : Concludes (operatorCompare o v) := by
  refine (concludes_look _).bind fun behavior => ?_
  split
  · exact concludes_fail _
  · exact concludes_look _
  · exact (concludes_toInt _).bind fun _ => concludes_look _
  · exact concludes_look _
  · exact concludes_fail _

theorem concludes_compare (a b : Value) : Concludes (compare a b) := by
  refine (concludes_look _).bind fun lhs => (concludes_look _).bind fun rhs => ?_
  cases lhs with
  | null | undefined => exact concludes_pure _
  | int | bool => cases rhs <;> exact concludes_pure _
  | object o =>
    cases rhs with
    | object other => exact concludes_operatorCompare o _
    | _ => exact concludes_pure _
  | invalid =>
    cases rhs with
    | invalid => exact concludes_fail _
    | _ => exact concludes_pure _
  | reference r =>
    cases rhs with
    | reference r' => exact concludes_fail _
    | _ => exact concludes_pure _

theorem concludes_toWritableReference (v : Value) : Concludes (toWritableReference v) := by
  have hreference : Concludes (toReference v) := by
    unfold toReference
    split
    · exact concludes_pure _
    · exact concludes_fail _
  refine hreference.bind fun r => (concludes_look _).bind fun readOnly => ?_
  split
  · exact concludes_fail _
  · exact concludes_pure _

theorem concludes_step (v : Value) (delta : Int64) : Concludes (step v delta) := by
  refine (concludes_toWritableReference v).bind fun r => (concludes_look _).bind fun old => ?_
  refine (concludes_toInt old).bind fun n => (concludes_look _).bind fun value => (concludes_look _).bind fun sealed => ?_
  split
  · exact concludes_fail _
  · exact fun s => ⟨s.writeSlot r.slot value, .inl ⟨(), rfl⟩⟩

theorem concludes_unary (op : UnaryOp) (v : Value) : Concludes (unary op v) := by
  cases op with
  | not => exact (concludes_look _).bind fun _ => concludes_pure _
  | bitwiseNot | minus | plus => exact (concludes_toInt v).bind fun _ => concludes_pure _
  | preIncrement | preDecrement => exact (concludes_step v _).bind fun _ => concludes_pure _
  | postIncrement | postDecrement =>
    exact (concludes_look _).bind fun _ => (concludes_step v _).bind fun _ => concludes_pure _

theorem concludes_integers {f : Int64 → Int64 → Eval Value} (hf : ∀ m n, Concludes (f m n)) (a b : Value) :
    Concludes (toInt a >>= fun m => toInt b >>= fun n => f m n) :=
  (concludes_toInt a).bind fun m => (concludes_toInt b).bind fun n => hf m n

theorem concludes_binary (op : BinaryOp) (a b : Value) : Concludes (binary op a b) := by
  cases op with
  | add => exact concludes_add a b
  | subtract | multiply => exact concludes_integers (fun m n => concludes_pure _) a b
  | divide | modulo =>
    refine concludes_integers (fun m n => ?_) a b
    split
    · exact concludes_fail _
    · exact concludes_pure _
  | and | or => exact concludes_pure _
  | equal | notEqual | less | lessEqual | greater | greaterEqual =>
    exact (concludes_compare a b).bind fun _ => concludes_pure _

end Eval

open Eval in
/-- In every state the values that count as integers are those that convert to one, the operators
calculate on them modulo 2 ^ 64, and no operator fails to end on any values. -/
theorem arithmetic_wraps (s : State) :
    (∀ v n s', toInt v s = .ok n s' ↔ s.Counts (s.deref v) n ∧ s' = s) ∧
    (∀ a b x y, s.Counts (s.deref a) x → s.Counts (s.deref b) y → Calculates s a b x y) ∧
    (∀ op a b, ∃ s', (binary op a b s).EndsIn s') ∧ ∀ op v, ∃ s', (unary op v s).EndsIn s' :=
  ⟨fun _ _ _ => toInt_eq_ok_iff, fun _ _ _ _ => calculates, fun op a b => concludes_binary op a b s,
    fun op v => concludes_unary op v s⟩

open Eval in
/-- The one quotient that does not fit in 64 bits wraps to the dividend. -/
theorem arithmetic_wraps_least :
    (State.initial default).Counts (.int Int64.minValue) Int64.minValue ∧
      Calculates (State.initial default) (.int Int64.minValue) (.int (-1)) Int64.minValue (-1) ∧
      divide (.int Int64.minValue) (.int (-1)) (State.initial default) =
        .ok (.int Int64.minValue) (State.initial default) := by
  refine ⟨.int _, (arithmetic_wraps _).2.1 _ _ _ _ (counts_int _ _) (counts_int _ _), ?_⟩
  rw [divide_of_counts (counts_int _ _) (counts_int _ _), if_neg (by decide),
    show Int64.minValue / -1 = Int64.minValue by decide]

end Scripting
