import TraceGraph.Expr
import TraceGraph.Fault

/-!
# Statements and programs

Every statement carries the line that it starts on.  A conditional with `else`
and one without are two constructors, and an else-if chain is a conditional
whose alternative is again a conditional.

A program is a list of statements.  Most of this library looks at programs that
are exactly one function.
-/

namespace TraceGraph

/-- The word that opens a declaration. -/
inductive DeclKind where
  | letDecl
  | varDecl
  | constDecl
deriving DecidableEq, Repr, Inhabited

/-- How the declaration is opened. -/
def DeclKind.spelling : DeclKind → String
  | .letDecl => "let"
  | .varDecl => "var"
  | .constDecl => "const"

/-- One name of a declaration, with its initial value if it has one. -/
structure Declarator where
  name : String
  init : Option Expr
  line : Nat
deriving DecidableEq, Repr, Inhabited

/-- A statement with the line that it starts on. -/
inductive Stmt where
  /-- A function.  `bodyLine` is the line of the brace that opens its body. -/
  | function (line : Nat) (name : String) (params : List String) (bodyLine : Nat)
      (body : List Stmt)
  | block (line : Nat) (body : List Stmt)
  | expression (line : Nat) (expr : Expr)
  | declare (line : Nat) (kind : DeclKind) (declarators : List Declarator)
  /-- A conditional without an alternative. -/
  | ifThen (line : Nat) (test : Expr) (consequent : Stmt)
  /-- A conditional with an alternative. -/
  | ifElse (line : Nat) (test : Expr) (consequent alternate : Stmt)
  | loop (line : Nat) (test : Expr) (body : Stmt)
  /-- The end of the function, with its result if there is one. -/
  | exit (line : Nat) (result : Option Expr)
deriving Repr, Inhabited

namespace Stmt

/-- The line that the statement starts on. -/
def line : Stmt → Nat
  | .function line _ _ _ _ => line
  | .block line _ => line
  | .expression line _ => line
  | .declare line _ _ => line
  | .ifThen line _ _ => line
  | .ifElse line _ _ _ => line
  | .loop line _ _ => line
  | .exit line _ => line

/-- Whether the statement is a braced block. -/
def isBlock : Stmt → Bool
  | .block .. => true
  | _ => false

/-- Whether the statement is a conditional. -/
def isConditional : Stmt → Bool
  | .ifThen .. | .ifElse .. => true
  | _ => false

end Stmt

/-- A function on its own. -/
structure FunctionDecl where
  name : String
  params : List String
  bodyLine : Nat
  body : List Stmt
deriving Repr, Inhabited

/-- A whole source text. -/
structure Program where
  body : List Stmt
deriving Repr, Inhabited

namespace Program

/-- The function of a program that is exactly one function. -/
def function? (program : Program) : Option FunctionDecl :=
  match program.body with
  | [.function _ name params bodyLine body] => some ⟨name, params, bodyLine, body⟩
  | _ => none

/-- The function of a program that is exactly one function.  Any other program
is refused at the line of its first statement. -/
def theFunction (program : Program) : Except Fault FunctionDecl :=
  match program.function? with
  | some decl => .ok decl
  | none =>
    .error (.unsupported ((program.body.head?.map Stmt.line).getD 1) .notOneFunction)

end Program

end TraceGraph
