import Scripting.Eval.Basic
import Scripting.Text.Blank
import Scripting.Text.Numeral

/-!
Conversions of values, and the operations of objects that the behavior of their class defines.
-/

namespace Scripting.Eval

/-- Holds for a character with which an integer can begin, or a blank in front of it. -/
def mayBeginInt (c : Char) : Bool :=
  Text.isBlank c || Text.isDigitOf 10 c || c = '+' || c = '-'

/-- The integer that the text of a string object denotes, blanks at its ends apart. Most texts are
refused by their first character. -/
def textToInt? (text : String) : Option Int64 :=
  if text.front?.any mayBeginInt then Text.readInt64? (Text.trim text.toList) else none

theorem readInt64?_cons_eq_none {c : Char} (rest : List Char) (h : mayBeginInt c = false) :
    Text.readInt64? (c :: rest) = none := by
  simp only [mayBeginInt, Bool.or_eq_false_iff, decide_eq_false_iff_not] at h
  obtain ⟨⟨⟨-, hdigit⟩, hplus⟩, hminus⟩ := h
  unfold Text.readInt64? Text.readInt?
  split
  · simp_all
  · simp_all
  · simp [Text.readDigits?, hdigit]

/-- Nothing is lost by looking at the first character. -/
theorem textToInt?_eq (text : String) :
    textToInt? text = Text.readInt64? (Text.trim text.toList) := by
  unfold textToInt?
  rw [String.front?_eq]
  cases htext : text.toList with
  | nil => rfl
  | cons c rest =>
    by_cases h : mayBeginInt c
    · simp [h]
    · have hblank : Text.isBlank c = false := by
        simp [mayBeginInt] at h
        simp [h]
      simp [h, Text.trim, hblank, Text.trimEnd_cons,
        readInt64?_cons_eq_none _ (Bool.eq_false_iff.2 h)]

/-- The form of an object as a value of another type. -/
def toPrimitive (o : ObjectId) (hint : ValueType) : Eval Value := do
  let type ← look (·.typeName o)
  match ← look (·.behavior? o) with
  | none => fail (.cannotConvert type "primitive")
  | some .string =>
    let text ← look fun s => (s.object o).text
    match hint with
    | .int =>
      match textToInt? text with
      | some n => return .int n
      | none => fail (.notANumber text)
    | _ => fail (.cannotConvert "String" hint.text)
  | some .tally =>
    match hint, ← look fun s => (s.object o).hostInt? with
    | .int, some n => return .int n
    | _, _ => fail (.noTally hint.text)
  | some .echo => return .bool true
  | some _ => fail (.cannotConvert type hint.text)

def toInt (v : Value) : Eval Int64 := do
  match ← deref v with
  | .null | .undefined => return 0
  | .int n => return n
  | .bool b => return if b then 1 else 0
  | .object o =>
    match ← toPrimitive o .int with
    | .int n => return n
    | other => fail (.cannotConvert other.type.text "int")
  | other => fail (.cannotConvert other.type.text "int")

def toObject (v : Value) : Eval ObjectId := do
  match ← deref v with
  | .object o => return o
  | other => fail (.cannotConvert other.type.text "object")

def toReference (v : Value) : Eval Reference := do
  match v with
  | .reference r => return r
  | other => fail (.cannotBind other.type.text)

def toWritableReference (v : Value) : Eval Reference := do
  let r ← toReference v
  if ← look fun s => (s.slot r.slot).readOnly then fail .readOnlyReference
  else return r

/-- Stores the value behind `v` in the slot of a reference. -/
def assign (r : Reference) (v : Value) : Eval Unit := do
  let value ← deref v
  if ← look fun s => (s.slot r.slot).readOnly then fail .readOnlyAssignment
  else change (·.writeSlot r.slot value)

end Scripting.Eval

namespace Scripting

/-- The result of comparing two values. -/
inductive Comparison where
  | equal
  | less
  | greater
  | unknown
deriving DecidableEq, Repr, Inhabited

def Comparison.ofInts (a b : Int64) : Comparison :=
  if a < b then less else if a = b then equal else greater

/-- Texts compare character by character, by code point. -/
def Comparison.ofTexts (a b : String) : Comparison :=
  if a < b then less else if a = b then equal else greater

end Scripting

namespace Scripting.Eval

/-- The `+` of an object on the left. -/
def operatorAdd (o : ObjectId) (rhs : Value) : Eval Value := do
  match ← look (·.behavior? o) with
  | none => fail .addWithoutClass
  | some .string => newString (← look fun s => (s.object o).text ++ s.text rhs)
  | some .echo =>
    newString (← look fun s => "add(" ++ s.typeName o ++ "," ++ s.text rhs ++ ")")
  | some _ => fail .addUndefined

/-- How an object with the `echo` behavior compares. -/
def echoCompare (s : State) (o : ObjectId) : Value → Comparison
  | .object other =>
    if o = other then .equal
    else
      match (s.object other).payload with
      | .string _ => .less
      | .function _ => .greater
      | _ => .unknown
  | _ => .unknown

/-- The comparison of an object on the left. -/
def operatorCompare (o : ObjectId) (rhs : Value) : Eval Comparison := do
  match ← look (·.behavior? o) with
  | none => fail .compareWithoutClass
  | some .string => look fun s => Comparison.ofTexts (s.object o).text (s.text rhs)
  | some .tally =>
    let n ← toInt rhs
    look fun s => Comparison.ofInts ((s.object o).hostInt?.getD 0) n
  | some .echo => look fun s => echoCompare s o rhs
  | some _ => fail .compareUndefined

/-- The subscript of an object. Objects are indexed by the text of the index, strings by position. -/
def operatorSubscript (o : ObjectId) (index : Value) : Eval Value := do
  match ← look (·.behavior? o) with
  | some .string =>
    let position ← toInt index
    let chars ← look fun s => (s.object o).text.toList
    let found := if position < 0 then none else chars[position.toInt.toNat]?
    match found with
    | some c => newString (String.ofList [c])
    | none => fail (.indexOutOfRange position)
  | some .echo => newString (← look fun s => "sub[" ++ s.text index ++ "]")
  | _ =>
    let r ← memberOf o (← look (·.text index))
    return .reference r

/-- Holds for an argument that is given and not `undefined`. -/
def isDefined (args : List Value) (index : Nat) : Eval Bool :=
  match args[index]? with
  | some v => look fun s => decide (s.deref v ≠ .undefined)
  | none => return false

/-- The text of an argument that is given and defined, else the empty text. -/
def textOrEmpty (args : List Value) (index : Nat) : Eval String := do
  if ← isDefined args index then look (·.text (args.getD index .undefined)) else return ""

/-- A new instance of a class. -/
def construct (c : ClassId) (args : List Value) : Eval ObjectId := do
  match ← look fun s => (s.classInfo c).behavior with
  | .string =>
    let text ← textOrEmpty args 0
    update (·.newString text)
  | .exception =>
    let message ← textOrEmpty args 0
    update (·.newException c message)
  | .tally =>
    let n ← toInt (args.getD 0 .undefined)
    update (·.addObject { classId := some c, payload := .host (.int n) })
  | _ => update (·.addObject { classId := some c })

end Scripting.Eval
