import Scripting.Parser.Block

/-!
Expressions.

From the loosest to the tightest: assignment, which groups to the right; the five levels of binary
operators, which group to the left; operators in front of an operand; operators behind it.
-/

namespace Scripting.Parser

/-- The arguments of a call, up to the closing parenthesis. -/
def argumentList (g : Grammar) : Nat → Parser (List Expr)
  | 0 => exhausted
  | limit + 1 => do
    let arg ← g.expression
    if ← accept .comma then
      let rest ← argumentList g limit
      return arg :: rest
    else
      let _ ← expect .rightParen "Expected ',' or ')' in argument list"
      return [arg]

/-- The arguments of a call behind the opening parenthesis. -/
def arguments (g : Grammar) : Parser (List Expr) := do
  if ← accept .rightParen then return [] else bounded (argumentList g)

/-- An expression behind its opening parenthesis. Its span takes in the parentheses. -/
def parenthesized (g : Grammar) (start : Span) : Parser Expr := do
  let inner ← g.expression
  if ← accept .rightParen then
    let span ← spanFrom start
    return inner.withSpan span
  else failHere "Unmatched '('"

/-- The name behind the keyword `function`, if there is one. -/
def optionalName : Parser (Option String) := do
  match ← nextKind with
  | .identifier =>
    let token ← advance
    return some token.lexeme
  | _ => return none

/-- A function behind the keyword. -/
def functionExpression (g : Grammar) (start : Span) : Parser Expr := do
  let name ← optionalName
  let definition ← blame start (functionRest g name start)
  let span ← spanFrom start
  return .function span definition

/-- The keywords that are values. -/
def special? : Keyword → Option Special
  | .thisObject => some .this
  | .globalObject => some .global
  | .nullValue => some .null
  | .trueValue => some .true
  | .falseValue => some .false
  | .undefinedValue => some .undefined
  | _ => none

def primary (g : Grammar) : Parser Expr := do
  let token ← peek
  match token.kind with
  | .number =>
    let value ← integerValue token
    let _ ← advance
    return .integer token.span value
  | .string =>
    let _ ← advance
    return .string token.span token.lexeme
  | .identifier =>
    let _ ← advance
    return .identifier token.span token.lexeme
  | .leftParen =>
    let _ ← advance
    parenthesized g token.span
  | .keyword .function =>
    let _ ← advance
    functionExpression g token.span
  | .keyword word =>
    match special? word with
    | some value =>
      let _ ← advance
      return .special token.span value
    | none => failHere "Expected primary expression"
  | .invalid => failHere ("Unexpected character '" ++ token.lexeme ++ "'")
  | _ => failHere "Expected primary expression"

/-- A member access behind the `.`; the name may be a keyword. -/
def memberName (object : Expr) : Parser Expr := do
  let token ← peek
  match token.kind with
  | .identifier | .keyword _ =>
    let _ ← advance
    return .member (object.span.join token.span) object token.lexeme
  | _ => failHere "Expected name in member expression"

/-- The operators behind an operand that starts at `start`. -/
def postfixes (g : Grammar) (start : Span) : Nat → Expr → Parser Expr
  | 0, _ => exhausted
  | limit + 1, expr => do
    match ← nextKind with
    | .dot =>
      let _ ← advance
      let access ← memberName expr
      postfixes g start limit access
    | .leftParen =>
      let _ ← advance
      let args ← blame start (arguments g)
      let span ← spanFrom start
      postfixes g start limit (.call span expr args)
    | .leftBracket =>
      let _ ← advance
      let index ← g.expression
      if ← accept .rightBracket then
        let span ← spanFrom start
        postfixes g start limit (.subscript span expr index)
      else failHere "Expected ']' after subscript"
    | .plusPlus =>
      let _ ← advance
      let span ← spanFrom start
      postfixes g start limit (.unary span .postIncrement expr)
    | .minusMinus =>
      let _ ← advance
      let span ← spanFrom start
      postfixes g start limit (.unary span .postDecrement expr)
    | _ => return expr

def withPostfixes (g : Grammar) (expr : Expr) : Parser Expr :=
  bounded fun limit => postfixes g expr.span limit expr

/-- The `.name` accesses between `new` and its arguments. -/
def memberChain : Nat → Expr → Parser Expr
  | 0, _ => exhausted
  | limit + 1, expr => do
    if ← accept .dot then
      let access ← memberName expr
      memberChain limit access
    else return expr

/-- A construction behind `new`: a primary with `.name` accesses, and arguments, which may not be left
out. Further operators apply to the new object. -/
def construction (g : Grammar) (start : Span) : Parser Expr := do
  let first ← primary g
  let callee ← bounded fun limit => memberChain limit first
  if ← accept .leftParen then
    let args ← blame start (arguments g)
    let span ← spanFrom start
    withPostfixes g (.construct span callee args)
  else failHere "Expected '(' after 'new' expression"

/-- The operators in front of an operand. -/
def prefixOp? : TokenKind → Option UnaryOp
  | .bang => some .not
  | .tilde => some .bitwiseNot
  | .minus => some .minus
  | .plus => some .plus
  | .plusPlus => some .preIncrement
  | .minusMinus => some .preDecrement
  | _ => none

def unary (g : Grammar) : Parser Expr := do
  let token ← peek
  match prefixOp? token.kind with
  | some op =>
    let _ ← advance
    let operand ← g.operand
    return .unary (token.span.join operand.span) op operand
  | none =>
    match token.kind with
    | .keyword .newObject =>
      let _ ← advance
      construction g token.span
    | _ =>
      let first ← primary g
      withPostfixes g first

/-- The further operands of one level of binary operators, grouped to the left. -/
def binaryRest (operand : Parser Expr) (op? : TokenKind → Option BinaryOp) :
    Nat → Expr → Parser Expr
  | 0, _ => exhausted
  | limit + 1, left => do
    match op? (← nextKind) with
    | none => return left
    | some op =>
      let _ ← advance
      let right ← operand
      binaryRest operand op? limit (.binary (left.span.join right.span) op left right)

/-- One level of binary operators over the next tighter one. -/
def binaryLevel (operand : Parser Expr) (op? : TokenKind → Option BinaryOp) : Parser Expr := do
  let left ← operand
  bounded fun limit => binaryRest operand op? limit left

def multiplicativeOp? : TokenKind → Option BinaryOp
  | .star => some .multiply
  | .slash => some .divide
  | .percent => some .modulo
  | _ => none

def additiveOp? : TokenKind → Option BinaryOp
  | .plus => some .add
  | .minus => some .subtract
  | _ => none

def comparisonOp? : TokenKind → Option BinaryOp
  | .equalEqual => some .equal
  | .bangEqual => some .notEqual
  | .less => some .less
  | .lessEqual => some .lessEqual
  | .greater => some .greater
  | .greaterEqual => some .greaterEqual
  | _ => none

def andOp? : TokenKind → Option BinaryOp
  | .andAnd => some .and
  | _ => none

def orOp? : TokenKind → Option BinaryOp
  | .orOr => some .or
  | _ => none

/-- The levels of binary operators, the tightest first. -/
def binaryLevels : List (TokenKind → Option BinaryOp) :=
  [multiplicativeOp?, additiveOp?, comparisonOp?, andOp?, orOp?]

def assignOp? : TokenKind → Option AssignOp
  | .assign => some .assign
  | .plusAssign => some .add
  | .minusAssign => some .subtract
  | .starAssign => some .multiply
  | .slashAssign => some .divide
  | .percentAssign => some .modulo
  | _ => none

/-- An assignment, or an expression of a tighter level. -/
def assignment (g : Grammar) : Parser Expr := do
  let target ← binaryLevels.foldl binaryLevel (unary g)
  match assignOp? (← nextKind) with
  | none => return target
  | some op =>
    let _ ← advance
    let value ← g.expression
    return .assign (target.span.join value.span) op target value

end Scripting.Parser
