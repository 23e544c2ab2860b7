import TraceGraph.Token

/-!
# Faults

Everything that can go wrong with a source text or an argument vector, by its
cause.  A fault in the source knows the line that it is reported at.
`Fault.message` is the only place where faults are put into words.
-/

namespace TraceGraph

/-- Why a text is not a program. -/
inductive Malformed where
  /-- No token starts here.  `near` is the beginning of the text that is left. -/
  | unexpectedInput (near : String)
  /-- Another token than the symbol, or none, was found. -/
  | expectedSymbol (want : Symbol) (got : Option Token)
  /-- Another token than a name, or none, was found. -/
  | expectedIdentifier (got : Option Token)
  /-- No expression starts with the token that was found. -/
  | expectedExpression (got : Option Token)
  /-- Only a name can be stepped. -/
  | invalidUpdateTarget
  /-- The text ends inside a block. -/
  | unterminatedBlock
deriving DecidableEq, Repr

/-- What a program uses that is outside the subset. -/
inductive Construct where
  | call (name : String)
  | functionExpression
  | reservedExpression (word : String)
  | reservedStatement (word : String)
  /-- An assignment or an update inside an expression that is folded. -/
  | assignmentAsValue
  /-- The program is not exactly one function. -/
  | notOneFunction
  /-- A function inside a function, with its name where the report gives it. -/
  | nestedFunction (name : Option String)
  /-- A condition that the arguments do not decide. -/
  | undecidedCondition (condition : String)
deriving DecidableEq, Repr

/-- Why a text is no argument vector. -/
inductive BadArguments where
  | notJson
  | notAnObject
  /-- Only numbers, booleans and texts can be arguments. -/
  | unsupportedValue (name value : String)
deriving DecidableEq, Repr

/-- What can go wrong. -/
inductive Fault where
  | malformed (line : Nat) (cause : Malformed)
  | unbound (name : String) (line : Nat)
  | unsupported (line : Nat) (construct : Construct)
  | badArguments (cause : BadArguments)
deriving DecidableEq, Repr

/-- A token that may be missing, as messages show it. -/
def describeFound : Option Token → String
  | some token => "Some(" ++ token.describe ++ ")"
  | none => "None"

/-- The cause in words. -/
def Malformed.message : Malformed → String
  | .unexpectedInput near => "Unexpected input near " ++ Text.quoted near
  | .expectedSymbol want got => "Expected " ++ want.name ++ ", got " ++ describeFound got
  | .expectedIdentifier got => "Expected identifier, got " ++ describeFound got
  | .expectedExpression (some token) => "Expected expression, got " ++ token.describe
  | .expectedExpression none => "Expected expression, got end of input"
  | .invalidUpdateTarget => "Invalid update target, expected an identifier"
  | .unterminatedBlock => "Unterminated block"

/-- The construct in words. -/
def Construct.message : Construct → String
  | .call name => "call to `" ++ name ++ "`"
  | .functionExpression => "function expression"
  | .reservedExpression word => "`" ++ word ++ "` expression"
  | .reservedStatement word => "`" ++ word ++ "` statement"
  | .assignmentAsValue => "assignment used as a value"
  | .notOneFunction => "program must be exactly one function declaration"
  | .nestedFunction none => "nested function declaration"
  | .nestedFunction (some name) => "nested function declaration `" ++ name ++ "`"
  | .undecidedCondition condition =>
    "condition `" ++ condition ++ "` does not reduce to a constant"

/-- The cause in words. -/
def BadArguments.message : BadArguments → String
  | .notJson => "malformed JSON"
  | .notAnObject => "expected a JSON object"
  | .unsupportedValue name value => "unsupported value for `" ++ name ++ "`: " ++ value

/-- The fault in words. -/
def Fault.message : Fault → String
  | .malformed line cause => "Syntax error at line " ++ toString line ++ ": " ++ cause.message
  | .unbound name line => "Unbound variable `" ++ name ++ "` at line " ++ toString line
  | .unsupported line construct =>
    "Unsupported construct at line " ++ toString line ++ ": " ++ construct.message
  | .badArguments cause => "Invalid argument vector: " ++ cause.message

end TraceGraph
