import TraceGraph.Expr.Parser
import TraceGraph.Stmt
import TraceGraph.Token.Lexer

/-!
# Reading statements and programs

The first token decides what kind of statement follows.  A semicolon after a
declaration, a return or an expression may be left out, and extra semicolons may
stand between the statements of a block or a program.  An `else` belongs to the
nearest conditional that can take it.

`Program.parse` reads a whole source text.
-/

namespace TraceGraph

/-- The tokens without a semicolon at the front. -/
def skipSemicolon : List PlacedToken → List PlacedToken
  | ⟨.symbol .semicolon, _⟩ :: rest => rest
  | tokens => tokens

theorem skipSemicolon_length_le (tokens : List PlacedToken) :
    (skipSemicolon tokens).length ≤ tokens.length := by
  unfold skipSemicolon
  split <;> simp

/-- The same result after an optional semicolon. -/
def Parsed.skipSemicolon {α : Type} {n : Nat} (p : Parsed PlacedToken α n) :
    Parsed PlacedToken α n :=
  ⟨p.value, TraceGraph.skipSemicolon p.rest,
    Nat.lt_of_le_of_lt (skipSemicolon_length_le p.rest) p.shorter⟩

namespace Stmt

/-- Names between commas, at least one. -/
def parseNames (endLine : Nat) (tokens : List PlacedToken) :
    ParseResult (List String) tokens.length := do
  let name ← expectIdentifier endLine tokens
  have hname := name.shorter
  match h : name.rest with
  | ⟨.symbol .comma, _⟩ :: rest =>
    have hrest : rest.length < tokens.length := by rw [h, List.length_cons] at hname; omega
    let names ← parseNames endLine rest
    return ⟨name.value :: names.value, names.rest, by have := names.shorter; omega⟩
  | _ => return ⟨[name.value], name.rest, hname⟩
termination_by tokens.length

/-- The parameters of a function, after the opening parenthesis and with the
closing one. -/
def parseParams (endLine : Nat) (tokens : List PlacedToken) :
    ParseResult (List String) tokens.length :=
  match tokens with
  | ⟨.symbol .rightParen, _⟩ :: rest => .ok (.leaving [] rest)
  | tokens => do
    let names ← parseNames endLine tokens
    let close ← expectSymbol endLine .rightParen names.rest
    return ⟨names.value, close.rest, by have := names.shorter; have := close.shorter; omega⟩

/-- A name with its initial value, if there is one. -/
def parseDeclarator (endLine : Nat) (tokens : List PlacedToken) :
    ParseResult Declarator tokens.length := do
  let name ← expectIdentifier endLine tokens
  have hname := name.shorter
  match h : name.rest with
  | ⟨.symbol .assign, _⟩ :: rest =>
    let init ← Expr.parse endLine rest
    return ⟨⟨name.value, some init.value, lineAt endLine tokens⟩, init.rest,
      by have := init.shorter; rw [h, List.length_cons] at hname; omega⟩
  | _ => return ⟨⟨name.value, none, lineAt endLine tokens⟩, name.rest, hname⟩

/-- Declared names between commas, at least one. -/
def parseDeclarators (endLine : Nat) (tokens : List PlacedToken) :
    ParseResult (List Declarator) tokens.length := do
  let first ← parseDeclarator endLine tokens
  have hfirst := first.shorter
  match h : first.rest with
  | ⟨.symbol .comma, _⟩ :: rest =>
    have hrest : rest.length < tokens.length := by rw [h, List.length_cons] at hfirst; omega
    let others ← parseDeclarators endLine rest
    return ⟨first.value :: others.value, others.rest, by have := others.shorter; omega⟩
  | _ => return ⟨[first.value], first.rest, hfirst⟩
termination_by tokens.length

/-- A condition in parentheses. -/
def parseTest (endLine : Nat) (tokens : List PlacedToken) : ParseResult Expr tokens.length := do
  let start ← expectSymbol endLine .leftParen tokens
  let test ← Expr.parse endLine start.rest
  let close ← expectSymbol endLine .rightParen test.rest
  return ⟨test.value, close.rest,
    by have := start.shorter; have := test.shorter; have := close.shorter; omega⟩

/-- The result of a return: none before a semicolon or a closing brace, else an
expression. -/
def parseResult (endLine : Nat) (tokens : List PlacedToken) :
    ParseResult (Option Expr) (tokens.length + 1) :=
  match nextToken? tokens with
  | some (.symbol .semicolon) | some (.symbol .rightBrace) => .ok (.leaving none tokens)
  | _ => do
    let result ← Expr.parse endLine tokens
    return (result.map some).weaken (by omega)

/-- A declaration after its keyword. -/
def parseDeclaration (endLine line : Nat) (kind : DeclKind) (tokens : List PlacedToken) :
    ParseResult Stmt tokens.length := do
  let declarators ← parseDeclarators endLine tokens
  return (declarators.map (.declare line kind)).skipSemicolon

mutual

/-- A statement. -/
def parse (endLine : Nat) (tokens : List PlacedToken) : ParseResult Stmt tokens.length :=
  match tokens with
  | ⟨.keyword .functionWord, line⟩ :: rest => do
    let name ← expectIdentifier endLine rest
    let start ← expectSymbol endLine .leftParen name.rest
    let params ← parseParams endLine start.rest
    let brace ← expectSymbol endLine .leftBrace params.rest
    have hbrace : brace.rest.length < rest.length := by
      have := name.shorter
      have := start.shorter
      have := params.shorter
      have := brace.shorter
      omega
    let body ← parseBlock endLine brace.rest
    return ⟨.function line name.value params.value (lineAt endLine params.rest) body.value,
      body.rest, by have := body.shorter; simp only [List.length_cons]; omega⟩
  | ⟨.symbol .leftBrace, line⟩ :: rest => do
    let body ← parseBlock endLine rest
    return (body.map (.block line)).succ
  | ⟨.keyword .letWord, line⟩ :: rest => do
    return (← parseDeclaration endLine line .letDecl rest).succ
  | ⟨.keyword .varWord, line⟩ :: rest => do
    return (← parseDeclaration endLine line .varDecl rest).succ
  | ⟨.keyword .constWord, line⟩ :: rest => do
    return (← parseDeclaration endLine line .constDecl rest).succ
  | ⟨.keyword .ifWord, line⟩ :: rest => do
    let test ← parseTest endLine rest
    have htest := test.shorter
    let consequent ← parse endLine test.rest
    have hconsequent := consequent.shorter
    match h : consequent.rest with
    | ⟨.keyword .elseWord, _⟩ :: others =>
      have hothers : others.length < rest.length := by
        rw [h, List.length_cons] at hconsequent; omega
      let alternate ← parse endLine others
      return ⟨.ifElse line test.value consequent.value alternate.value, alternate.rest,
        by have := alternate.shorter; simp only [List.length_cons]; omega⟩
    | _ =>
      return ⟨.ifThen line test.value consequent.value, consequent.rest,
        by simp only [List.length_cons]; omega⟩
  | ⟨.keyword .whileWord, line⟩ :: rest => do
    let test ← parseTest endLine rest
    have htest := test.shorter
    let body ← parse endLine test.rest
    return ⟨.loop line test.value body.value, body.rest,
      by have := body.shorter; simp only [List.length_cons]; omega⟩
  | ⟨.keyword .returnWord, line⟩ :: rest => do
    let result ← parseResult endLine rest
    return (result.map (.exit line)).skipSemicolon
  | ⟨.reserved word, line⟩ :: _ => .error (.unsupported line (.reservedStatement word))
  | tokens => do
    let expr ← Expr.parse endLine tokens
    return (expr.map (.expression (lineAt endLine tokens))).skipSemicolon
termination_by (tokens.length, 0)

/-- The statements of a block, after the opening brace and with the closing
one. -/
def parseBlock (endLine : Nat) (tokens : List PlacedToken) :
    ParseResult (List Stmt) tokens.length :=
  match tokens with
  | [] => .error (.malformed endLine .unterminatedBlock)
  | ⟨.symbol .rightBrace, _⟩ :: rest => .ok (.leaving [] rest)
  | ⟨.symbol .semicolon, _⟩ :: rest => do
    return (← parseBlock endLine rest).succ
  | tokens => do
    let first ← parse endLine tokens
    have hfirst := first.shorter
    let others ← parseBlock endLine first.rest
    return ⟨first.value :: others.value, others.rest, by have := others.shorter; omega⟩
termination_by (tokens.length, 1)

end

/-- All statements up to the end of the input. -/
def parseAll (endLine : Nat) (tokens : List PlacedToken) : Except Fault (List Stmt) :=
  match tokens with
  | [] => .ok []
  | ⟨.symbol .semicolon, _⟩ :: rest => parseAll endLine rest
  | tokens => do
    let first ← parse endLine tokens
    have _hfirst := first.shorter
    return first.value :: (← parseAll endLine first.rest)
termination_by tokens.length

end Stmt

/-- The line that faults at the end of the input are reported at: that of the
last token, or one if there is none. -/
def lastLine (tokens : List PlacedToken) : Nat :=
  (tokens.getLast?.map PlacedToken.line).getD 1

/-- The program that a list of tokens is. -/
def Program.ofTokens (tokens : List PlacedToken) : Except Fault Program := do
  return ⟨← Stmt.parseAll (lastLine tokens) tokens⟩

/-- The program that a source text is. -/
def Program.parse (source : String) : Except Fault Program := do
  Program.ofTokens (← tokenize source)

/-- The expression at the front of a source text.  What follows it is not
looked at. -/
def Expr.parseText (source : String) : Except Fault Expr := do
  let tokens ← tokenize source
  let expr ← Expr.parse (lastLine tokens) tokens
  return expr.value

end TraceGraph
