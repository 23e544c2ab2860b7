import TraceGraph.Number.Layout
import TraceGraph.Operator
import TraceGraph.Text.Quoted

/-!
# Tokens

The words and symbols that a source text is made of.  Symbols and keywords are
fixed spellings, each with the name under which messages mention it.  Some words
are reserved: they are recognised only so that their use can be refused.
-/

namespace TraceGraph

/-- Operators and delimiters. -/
inductive Symbol where
  | plus
  | minus
  | star
  | slash
  | percent
  | bang
  | less
  | lessEqual
  | greater
  | greaterEqual
  | equalEqual
  | bangEqual
  | equalEqualEqual
  | bangEqualEqual
  | andAnd
  | orOr
  | assign
  | plusAssign
  | minusAssign
  | starAssign
  | slashAssign
  | percentAssign
  | plusPlus
  | minusMinus
  | leftParen
  | rightParen
  | leftBrace
  | rightBrace
  | comma
  | semicolon
deriving DecidableEq, Repr, Inhabited

/-- Words with a meaning of their own. -/
inductive Keyword where
  | functionWord
  | letWord
  | varWord
  | constWord
  | ifWord
  | elseWord
  | whileWord
  | returnWord
  | trueWord
  | falseWord
deriving DecidableEq, Repr, Inhabited

/-- A token of the source text. -/
inductive Token where
  | keyword (word : Keyword)
  | reserved (word : String)
  | identifier (name : String)
  | number (value : Float)
  | text (value : String)
  | symbol (mark : Symbol)
deriving DecidableEq, Repr, Inhabited

/-- A token with the line that it starts on. -/
structure PlacedToken where
  token : Token
  line : Nat
deriving DecidableEq, Repr, Inhabited

/-! ## Symbols -/

namespace Symbol

/-- How the symbol is written. -/
def spelling : Symbol → String
  | .plus => "+"
  | .minus => "-"
  | .star => "*"
  | .slash => "/"
  | .percent => "%"
  | .bang => "!"
  | .less => "<"
  | .lessEqual => "<="
  | .greater => ">"
  | .greaterEqual => ">="
  | .equalEqual => "=="
  | .bangEqual => "!="
  | .equalEqualEqual => "==="
  | .bangEqualEqual => "!=="
  | .andAnd => "&&"
  | .orOr => "||"
  | .assign => "="
  | .plusAssign => "+="
  | .minusAssign => "-="
  | .starAssign => "*="
  | .slashAssign => "/="
  | .percentAssign => "%="
  | .plusPlus => "++"
  | .minusMinus => "--"
  | .leftParen => "("
  | .rightParen => ")"
  | .leftBrace => "\x7b"
  | .rightBrace => "\x7d"
  | .comma => ","
  | .semicolon => ";"

/-- How messages call the symbol. -/
def name : Symbol → String
  | .plus => "Plus"
  | .minus => "Minus"
  | .star => "Star"
  | .slash => "Slash"
  | .percent => "Percent"
  | .bang => "Bang"
  | .less => "Less"
  | .lessEqual => "LessEqual"
  | .greater => "Greater"
  | .greaterEqual => "GreaterEqual"
  | .equalEqual => "EqualEqual"
  | .bangEqual => "BangEqual"
  | .equalEqualEqual => "EqualEqualEqual"
  | .bangEqualEqual => "BangEqualEqual"
  | .andAnd => "AndAnd"
  | .orOr => "OrOr"
  | .assign => "Assign"
  | .plusAssign => "PlusAssign"
  | .minusAssign => "MinusAssign"
  | .starAssign => "StarAssign"
  | .slashAssign => "SlashAssign"
  | .percentAssign => "PercentAssign"
  | .plusPlus => "PlusPlus"
  | .minusMinus => "MinusMinus"
  | .leftParen => "LeftParen"
  | .rightParen => "RightParen"
  | .leftBrace => "LeftBrace"
  | .rightBrace => "RightBrace"
  | .comma => "Comma"
  | .semicolon => "Semicolon"

/-- All symbols, longer ones before shorter ones, so that the first one that
fits is the longest one that fits. -/
def longestFirst : List Symbol :=
  [.equalEqualEqual, .bangEqualEqual,
   .equalEqual, .bangEqual, .lessEqual, .greaterEqual, .andAnd, .orOr, .plusPlus, .minusMinus,
   .plusAssign, .minusAssign, .starAssign, .slashAssign, .percentAssign,
   .plus, .minus, .star, .slash, .percent, .bang, .less, .greater, .assign,
   .leftParen, .rightParen, .leftBrace, .rightBrace, .comma, .semicolon]

/-- The operator that the symbol is before an operand. -/
def unaryOp? : Symbol → Option UnaryOp
  | .minus => some .neg
  | .plus => some .plus
  | .bang => some .not
  | _ => none

/-- The operator that the symbol is between two operands. -/
def binaryOp? : Symbol → Option BinaryOp
  | .plus => some .add
  | .minus => some .sub
  | .star => some .mul
  | .slash => some .div
  | .percent => some .rem
  | .less => some .less
  | .lessEqual => some .lessEqual
  | .greater => some .greater
  | .greaterEqual => some .greaterEqual
  | .equalEqual => some .equal
  | .bangEqual => some .notEqual
  | .equalEqualEqual => some .strictEqual
  | .bangEqualEqual => some .strictNotEqual
  | .andAnd => some .and
  | .orOr => some .or
  | _ => none

/-- The assignment that the symbol is after a name. -/
def assignOp? : Symbol → Option AssignOp
  | .assign => some .assign
  | .plusAssign => some .addAssign
  | .minusAssign => some .subAssign
  | .starAssign => some .mulAssign
  | .slashAssign => some .divAssign
  | .percentAssign => some .remAssign
  | _ => none

/-- The update that the symbol is beside a name. -/
def updateOp? : Symbol → Option UpdateOp
  | .plusPlus => some .increment
  | .minusMinus => some .decrement
  | _ => none

end Symbol

/-! ## Words -/

namespace Keyword

/-- How the keyword is written. -/
def spelling : Keyword → String
  | .functionWord => "function"
  | .letWord => "let"
  | .varWord => "var"
  | .constWord => "const"
  | .ifWord => "if"
  | .elseWord => "else"
  | .whileWord => "while"
  | .returnWord => "return"
  | .trueWord => "true"
  | .falseWord => "false"

/-- How messages call the keyword. -/
def name : Keyword → String
  | .functionWord => "Function"
  | .letWord => "Let"
  | .varWord => "Var"
  | .constWord => "Const"
  | .ifWord => "If"
  | .elseWord => "Else"
  | .whileWord => "While"
  | .returnWord => "Return"
  | .trueWord => "True"
  | .falseWord => "False"

/-- All keywords. -/
def all : List Keyword :=
  [.functionWord, .letWord, .varWord, .constWord, .ifWord, .elseWord, .whileWord, .returnWord,
   .trueWord, .falseWord]

end Keyword

/-- Words that the language keeps for constructs outside the subset. -/
def reservedWords : List String :=
  ["for", "do", "switch", "case", "break", "continue", "try", "catch", "throw", "new", "class"]

namespace Token

/-- The token of a word: a keyword, a reserved word, or else an identifier. -/
def ofWord (word : String) : Token :=
  match Keyword.all.find? (·.spelling == word) with
  | some found => .keyword found
  | none => if reservedWords.contains word then .reserved word else .identifier word

/-! ## How messages show tokens -/

/-- The kind of the token, under the name that messages use. -/
def kind : Token → String
  | .keyword word => word.name
  | .reserved _ => "Reserved"
  | .identifier _ => "Identifier"
  | .number _ => "Number"
  | .text _ => "Str"
  | .symbol mark => mark.name

/-- Numbers in messages keep a point, and very large and very small ones are
written with an exponent. -/
def numberLayout : Number.Layout where
  tie := .up
  positional e := -4 ≤ e && e < 16
  pointZero := true
  plusExponent := false
  infinity := "inf"
  nan := "NaN"

/-- The token as messages show it: its kind, and what it carries in
parentheses. -/
def describe (token : Token) : String :=
  match token with
  | .reserved word => token.kind ++ "(" ++ Text.quoted word ++ ")"
  | .identifier name => token.kind ++ "(" ++ Text.quoted name ++ ")"
  | .number value => token.kind ++ "(" ++ numberLayout.write value ++ ")"
  | .text value => token.kind ++ "(" ++ Text.quoted value ++ ")"
  | .keyword _ | .symbol _ => token.kind

end Token

end TraceGraph
