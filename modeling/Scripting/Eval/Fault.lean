/-!
The faults that the interpreter itself reports as exceptions, and their texts.
-/

namespace Scripting

inductive Fault where
  /-- A value or object of the named kind has no form of the other kind. -/
  | cannotConvert (what target : String)
  | notANumber (text : String)
  | cannotBind (type : String)
  | readOnlyReference
  | readOnlyAssignment
  | callOfNonObject
  | addWithoutClass
  | compareWithoutClass
  | callWithoutClass
  | notCallable (type : String)
  | addUndefined
  | compareUndefined
  | incomparable (type : String)
  | wrongThis (actual required : String)
  | functionWithoutBody
  | wrapperWithoutClass
  | notInstantiable (type : String)
  | divideByZero
  | moduloByZero
  | returnInGlobalScope
  | breakInGlobalScope
  | continueInGlobalScope
  | breakOutsideLoop
  | continueOutsideLoop
  | invalidStatement
  | invalidExpression
  | tooFewArguments (name : String) (least given : Nat)
  | tooManyArguments (name : String) (most given : Nat)
  | negativeStart
  | negativeLength
  | startBeyondEnd
  | lengthBeyondEnd
  | indexOutOfRange (index : Int64)
  | invalidCodepoint (codepoint : Int64)
  | noFileName
  | cannotOpen (path reason : String)
  | outputFailed (reason : String)
  | noTally (hint : String)
  /-- A text that the caller supplies. -/
  | custom (text : String)
deriving DecidableEq, Repr, Inhabited

def Fault.message : Fault → String
  | cannotConvert what target => "Cannot convert " ++ what ++ " to " ++ target
  | notANumber text => "Cannot convert '" ++ text ++ "' to int"
  | cannotBind type => "Cannot bind " ++ type ++ " to reference"
  | readOnlyReference => "Cannot create writable reference for read-only object"
  | readOnlyAssignment => "Cannot assign to read-only object"
  | callOfNonObject => "Cannot call non-object"
  | addWithoutClass => "Cannot call add operator without class"
  | compareWithoutClass => "Cannot call compare operator without class"
  | callWithoutClass => "Cannot call object without class"
  | notCallable type => "Object of type " ++ type ++ " is not callable"
  | addUndefined => "Add operator not defined for class"
  | compareUndefined => "Compare operator not defined for class"
  | incomparable type => "Cannot compare values of type " ++ type
  | wrongThis actual required =>
    "Cannot call function with invalid 'this': '" ++ actual ++ "', required type: " ++ required
  | functionWithoutBody => "Function object has no body"
  | wrapperWithoutClass => "Class wrapper has no class"
  | notInstantiable type => type ++ " is not instantiable"
  | divideByZero => "Cannot divide by 0"
  | moduloByZero => "Cannot modulo by 0"
  | returnInGlobalScope => "Cannot 'return' in global scope"
  | breakInGlobalScope => "Cannot 'break' in global scope"
  | continueInGlobalScope => "Cannot 'continue' in global scope"
  | breakOutsideLoop => "Cannot 'break' outside of loop"
  | continueOutsideLoop => "Cannot 'continue' outside of loop"
  | invalidStatement => "Cannot execute invalid statement"
  | invalidExpression => "Cannot evaluate invalid expression"
  | tooFewArguments name least given =>
    "`" ++ name ++ "` expected at least " ++ toString least ++ " arguments but received " ++
      toString given
  | tooManyArguments name most given =>
    "`" ++ name ++ "` expected at most " ++ toString most ++ " arguments but received " ++
      toString given
  | negativeStart => "start cannot be negative"
  | negativeLength => "length cannot be negative"
  | startBeyondEnd => "start exceeds string length"
  | lengthBeyondEnd => "length exceeds string length"
  | indexOutOfRange index => "Index " ++ toString index.toInt ++ " out of range"
  | invalidCodepoint codepoint => "Invalid codepoint " ++ toString codepoint.toInt
  | noFileName => "You need to specify file name"
  | cannotOpen path reason =>
    "Failed to open file '" ++ path ++ "' for executing: " ++ reason
  | outputFailed reason => "I/O error: " ++ reason
  | noTally hint => "Tally has no " ++ hint
  | custom text => text

end Scripting
