import TraceGraph.Proofs.Script
import TraceGraph.Proofs.Stmt.Reading

/-!
# The calls of the parsers

The parsers call each other.  Here each of them, and each round of their loops, is a
script whose calls can be looked at.

* `Call`: what is to be read, and the tokens that are left.  `Call.outcome` is what the
  parsers return for it.
* `Call.script`: what the parsers do on a call, and which calls they make.
* `Call.run_script`: the outcome of a call is what its script makes of the outcomes of its
  own calls.
-/

namespace TraceGraph

/-! ## Calls -/

/-- What can be read off the front of the tokens. -/
inductive Nonterminal where
  /-- The rest of a program. -/
  | program
  | statement
  /-- Statements in braces. -/
  | block
  /-- The rest of a block, with its closing brace. -/
  | body
  /-- Names between commas. -/
  | names
  /-- Declared names between commas. -/
  | declarators
  | assignment
  | binary (least : Nat)
  /-- Operations that go on after an operand. -/
  | climb (least : Nat) (left : Expr)
  | unary
  /-- A primary expression and a step after it, if there is one. -/
  | step
  | primary

namespace Nonterminal

/-- What is made of the tokens. -/
abbrev Tree : Nonterminal → Type
  | .program | .block | .body => List Stmt
  | .statement => Stmt
  | .names => List String
  | .declarators => List Declarator
  | .assignment | .binary _ | .climb .. | .unary | .step | .primary => Expr

end Nonterminal

/-- A call of a parser: what is to be read, and the tokens that are left. -/
structure Call where
  goal : Nonterminal
  tokens : List PlacedToken

namespace Call

/-- What is made of the tokens that are taken, with the tokens that are left. -/
abbrev Taken (α : Type) : Type :=
  α × List PlacedToken

/-- What a call gives. -/
abbrev Answer (c : Call) : Type :=
  Taken c.goal.Tree

/-- The outcome of a call. -/
def outcome (endLine : Nat) : (c : Call) → Except Fault c.Answer
  | ⟨.program, tokens⟩ => (Stmt.parseAll endLine tokens).map fun body => (body, [])
  | ⟨.statement, tokens⟩ => reading (Stmt.parse endLine tokens)
  | ⟨.block, tokens⟩ =>
    (reading (expectSymbol endLine .leftBrace tokens)).bind fun start =>
      reading (Stmt.parseBlock endLine start.2)
  | ⟨.body, tokens⟩ => reading (Stmt.parseBlock endLine tokens)
  | ⟨.names, tokens⟩ => reading (Stmt.parseNames endLine tokens)
  | ⟨.declarators, tokens⟩ => reading (Stmt.parseDeclarators endLine tokens)
  | ⟨.assignment, tokens⟩ => reading (Expr.parse endLine tokens)
  | ⟨.binary least, tokens⟩ => reading (Expr.parseBinary endLine least tokens)
  | ⟨.climb least left, tokens⟩ => reading (Expr.climb endLine least left tokens)
  | ⟨.unary, tokens⟩ => reading (Expr.parseUnary endLine tokens)
  | ⟨.step, tokens⟩ => (reading (Expr.parsePrimary endLine tokens)).bind Expr.step
  | ⟨.primary, tokens⟩ => reading (Expr.parsePrimary endLine tokens)

/-! ## Scripts -/

/-- What a parser does, one step at a time. -/
abbrev Steps :=
  Script Call Answer

/-- Calls a parser. -/
def ask (goal : Nonterminal) (tokens : List PlacedToken) : Steps (Taken goal.Tree) :=
  .call ⟨goal, tokens⟩ pure

/-- Takes the given symbol. -/
def takeSymbol (endLine : Nat) (want : Symbol) (tokens : List PlacedToken) : Steps (Taken Unit) :=
  .done (reading (expectSymbol endLine want tokens))

/-- Takes a name. -/
def takeName (endLine : Nat) (tokens : List PlacedToken) : Steps (Taken String) :=
  .done (reading (expectIdentifier endLine tokens))

/-! ### Expressions -/

def assignment (tokens : List PlacedToken) : Steps (Taken Expr) :=
  match tokens with
  | ⟨.identifier name, line⟩ :: ⟨.symbol mark, _⟩ :: rest =>
    match mark.assignOp? with
    | some op => do
      let value ← ask .assignment rest
      return (.assign line op name value.1, value.2)
    | none => ask (.binary 1) tokens
  | _ => ask (.binary 1) tokens

def binary (least : Nat) (tokens : List PlacedToken) : Steps (Taken Expr) := do
  let left ← ask .unary tokens
  ask (.climb least left.1) left.2

def climb (least : Nat) (left : Expr) (tokens : List PlacedToken) : Steps (Taken Expr) :=
  match tokens with
  | ⟨.symbol mark, _⟩ :: rest =>
    match mark.binaryOp? with
    | some op =>
      if op.precedence < least then return (left, tokens)
      else do
        let right ← ask (.binary (op.precedence + 1)) rest
        ask (.climb least (.binary left.line op left right.1)) right.2
    | none => return (left, tokens)
  | _ => return (left, tokens)

def unary (endLine : Nat) (tokens : List PlacedToken) : Steps (Taken Expr) :=
  match tokens with
  | ⟨.symbol mark, line⟩ :: rest =>
    match mark.unaryOp?, mark.updateOp? with
    | some op, _ => do
      let operand ← ask .unary rest
      return (.unary line op operand.1, operand.2)
    | none, some op => do
      let target ← takeName endLine rest
      return (.update line op true target.1, target.2)
    | none, none => ask .step tokens
  | _ => ask .step tokens

def step (tokens : List PlacedToken) : Steps (Taken Expr) := do
  let operand ← ask .primary tokens
  .done (Expr.step operand)

def primary (endLine : Nat) (tokens : List PlacedToken) : Steps (Taken Expr) :=
  match tokens with
  | [] => .done (.error (.malformed endLine (.expectedExpression none)))
  | ⟨token, line⟩ :: rest =>
    match token with
    | .number x => return (.literal line (.number x), rest)
    | .text s => return (.literal line (.text s), rest)
    | .keyword .trueWord => return (.literal line (.bool true), rest)
    | .keyword .falseWord => return (.literal line (.bool false), rest)
    | .identifier name =>
      if nextToken? rest = some (.symbol .leftParen) then
        .done (.error (.unsupported line (.call name)))
      else return (.identifier line name, rest)
    | .symbol .leftParen => do
      let inner ← ask .assignment rest
      let close ← takeSymbol endLine .rightParen inner.2
      return (inner.1, close.2)
    | .keyword .functionWord => .done (.error (.unsupported line .functionExpression))
    | .reserved word => .done (.error (.unsupported line (.reservedExpression word)))
    | other => .done (.error (.malformed line (.expectedExpression (some other))))

/-! ### Statements -/

def names (endLine : Nat) (tokens : List PlacedToken) : Steps (Taken (List String)) := do
  let name ← takeName endLine tokens
  match name.2 with
  | ⟨.symbol .comma, _⟩ :: rest => do
    let names ← ask .names rest
    return (name.1 :: names.1, names.2)
  | _ => return ([name.1], name.2)

/-- The parameters of a function, with the closing parenthesis. -/
def params (endLine : Nat) (tokens : List PlacedToken) : Steps (Taken (List String)) :=
  match tokens with
  | ⟨.symbol .rightParen, _⟩ :: rest => return ([], rest)
  | _ => do
    let names ← ask .names tokens
    let close ← takeSymbol endLine .rightParen names.2
    return (names.1, close.2)

/-- A name with its initial value, if there is one. -/
def declarator (endLine : Nat) (tokens : List PlacedToken) : Steps (Taken Declarator) := do
  let name ← takeName endLine tokens
  match name.2 with
  | ⟨.symbol .assign, _⟩ :: rest => do
    let init ← ask .assignment rest
    return (⟨name.1, some init.1, lineAt endLine tokens⟩, init.2)
  | _ => return (⟨name.1, none, lineAt endLine tokens⟩, name.2)

def declarators (endLine : Nat) (tokens : List PlacedToken) : Steps (Taken (List Declarator)) := do
  let first ← declarator endLine tokens
  match first.2 with
  | ⟨.symbol .comma, _⟩ :: rest => do
    let others ← ask .declarators rest
    return (first.1 :: others.1, others.2)
  | _ => return ([first.1], first.2)

/-- A condition in parentheses. -/
def test (endLine : Nat) (tokens : List PlacedToken) : Steps (Taken Expr) := do
  let start ← takeSymbol endLine .leftParen tokens
  let test ← ask .assignment start.2
  let close ← takeSymbol endLine .rightParen test.2
  return (test.1, close.2)

/-- The result of a return, if there is one. -/
def result (tokens : List PlacedToken) : Steps (Taken (Option Expr)) :=
  if nextToken? tokens = some (.symbol .semicolon)
      ∨ nextToken? tokens = some (.symbol .rightBrace) then return (none, tokens)
  else do
    let result ← ask .assignment tokens
    return (some result.1, result.2)

/-- A declaration after its keyword. -/
def declaration (line : Nat) (kind : DeclKind) (tokens : List PlacedToken) :
    Steps (Taken Stmt) := do
  let declarators ← ask .declarators tokens
  return (.declare line kind declarators.1, skipSemicolon declarators.2)

def statement (endLine : Nat) (tokens : List PlacedToken) : Steps (Taken Stmt) :=
  match tokens with
  | ⟨.keyword .functionWord, line⟩ :: rest => do
    let name ← takeName endLine rest
    let start ← takeSymbol endLine .leftParen name.2
    let params ← params endLine start.2
    let body ← ask .block params.2
    return (.function line name.1 params.1 (lineAt endLine params.2) body.1, body.2)
  | ⟨.symbol .leftBrace, line⟩ :: _ => do
    let body ← ask .block tokens
    return (.block line body.1, body.2)
  | ⟨.keyword .letWord, line⟩ :: rest => declaration line .letDecl rest
  | ⟨.keyword .varWord, line⟩ :: rest => declaration line .varDecl rest
  | ⟨.keyword .constWord, line⟩ :: rest => declaration line .constDecl rest
  | ⟨.keyword .ifWord, line⟩ :: rest => do
    let test ← test endLine rest
    let consequent ← ask .statement test.2
    match consequent.2 with
    | ⟨.keyword .elseWord, _⟩ :: others => do
      let alternate ← ask .statement others
      return (.ifElse line test.1 consequent.1 alternate.1, alternate.2)
    | _ => return (.ifThen line test.1 consequent.1, consequent.2)
  | ⟨.keyword .whileWord, line⟩ :: rest => do
    let test ← test endLine rest
    let body ← ask .statement test.2
    return (.loop line test.1 body.1, body.2)
  | ⟨.keyword .returnWord, line⟩ :: rest => do
    let result ← result rest
    return (.exit line result.1, skipSemicolon result.2)
  | ⟨.reserved word, line⟩ :: _ => .done (.error (.unsupported line (.reservedStatement word)))
  | _ => do
    let expr ← ask .assignment tokens
    return (.expression (lineAt endLine tokens) expr.1, skipSemicolon expr.2)

def block (endLine : Nat) (tokens : List PlacedToken) : Steps (Taken (List Stmt)) := do
  let start ← takeSymbol endLine .leftBrace tokens
  ask .body start.2

def body (endLine : Nat) (tokens : List PlacedToken) : Steps (Taken (List Stmt)) :=
  match tokens with
  | [] => .done (.error (.malformed endLine .unterminatedBlock))
  | ⟨.symbol .rightBrace, _⟩ :: rest => return ([], rest)
  | ⟨.symbol .semicolon, _⟩ :: rest => ask .body rest
  | _ => do
    let first ← ask .statement tokens
    let others ← ask .body first.2
    return (first.1 :: others.1, others.2)

def program (tokens : List PlacedToken) : Steps (Taken (List Stmt)) :=
  match tokens with
  | [] => return ([], [])
  | ⟨.symbol .semicolon, _⟩ :: rest => ask .program rest
  | _ => do
    let first ← ask .statement tokens
    let others ← ask .program first.2
    return (first.1 :: others.1, others.2)

/-- What the parsers do on a call. -/
def script (endLine : Nat) : (c : Call) → Steps c.Answer
  | ⟨.program, tokens⟩ => program tokens
  | ⟨.statement, tokens⟩ => statement endLine tokens
  | ⟨.block, tokens⟩ => block endLine tokens
  | ⟨.body, tokens⟩ => body endLine tokens
  | ⟨.names, tokens⟩ => names endLine tokens
  | ⟨.declarators, tokens⟩ => declarators endLine tokens
  | ⟨.assignment, tokens⟩ => assignment tokens
  | ⟨.binary least, tokens⟩ => binary least tokens
  | ⟨.climb least left, tokens⟩ => climb least left tokens
  | ⟨.unary, tokens⟩ => unary endLine tokens
  | ⟨.step, tokens⟩ => step tokens
  | ⟨.primary, tokens⟩ => primary endLine tokens

/-! ## The parsers do what the scripts say -/

variable {endLine : Nat}

-- the type of the answer computes, so it must not be a key for the simplifier
@[simp] theorem run_ask (goal : Nonterminal) (tokens : List PlacedToken) :
    @Script.run Call Answer (no_index (Taken goal.Tree)) (outcome endLine) (ask goal tokens)
      = outcome endLine ⟨goal, tokens⟩ := by
  show (outcome endLine ⟨goal, tokens⟩).bind _ = _
  cases outcome endLine ⟨goal, tokens⟩ <;> rfl

@[simp] theorem run_takeSymbol (want : Symbol) (tokens : List PlacedToken) :
    (takeSymbol endLine want tokens).run (outcome endLine)
      = reading (expectSymbol endLine want tokens) := rfl

@[simp] theorem run_takeName (tokens : List PlacedToken) :
    (takeName endLine tokens).run (outcome endLine)
      = reading (expectIdentifier endLine tokens) := rfl

theorem run_assignment (tokens : List PlacedToken) :
    (assignment tokens).run (outcome endLine) = reading (Expr.parse endLine tokens) := by
  unfold assignment
  split
  · rename_i name line mark stop rest
    rw [Expr.reading_parse]
    dsimp only
    cases mark.assignOp? with
    | none => simp only [run_ask, outcome]
    | some op => simp only [Script.run_bind, Script.run_pure, run_ask, map_eq_bind, outcome]
  · rw [Expr.reading_parse]
    simp only [run_ask, outcome]

theorem run_binary (least : Nat) (tokens : List PlacedToken) :
    (binary least tokens).run (outcome endLine)
      = reading (Expr.parseBinary endLine least tokens) := by
  rw [Expr.reading_parseBinary]
  simp only [binary, Script.run_bind, run_ask, outcome]

theorem run_climb (least : Nat) (left : Expr) (tokens : List PlacedToken) :
    (climb least left tokens).run (outcome endLine)
      = reading (Expr.climb endLine least left tokens) := by
  unfold climb
  split
  · rename_i mark line rest
    rw [Expr.reading_climb]
    dsimp only
    cases mark.binaryOp? with
    | none => rfl
    | some op =>
      dsimp only
      by_cases hlow : op.precedence < least
      · rw [if_pos hlow, if_pos hlow, Script.run_pure]
      · rw [if_neg hlow, if_neg hlow]
        simp only [Script.run_bind, run_ask, outcome]
  · rw [Expr.reading_climb]
    simp only [Script.run_pure]

theorem run_unary (tokens : List PlacedToken) :
    (unary endLine tokens).run (outcome endLine) = reading (Expr.parseUnary endLine tokens) := by
  unfold unary
  split
  · rename_i mark line rest
    rw [Expr.reading_parseUnary]
    dsimp only
    cases mark.unaryOp? with
    | some op => simp only [Script.run_bind, Script.run_pure, run_ask, map_eq_bind, outcome]
    | none =>
      cases mark.updateOp? with
      | some op => simp only [Script.run_bind, Script.run_pure, run_takeName, map_eq_bind]
      | none => simp only [run_ask, outcome]
  · rw [Expr.reading_parseUnary]
    simp only [run_ask, outcome]

theorem run_step (tokens : List PlacedToken) :
    (step tokens).run (outcome endLine)
      = (reading (Expr.parsePrimary endLine tokens)).bind Expr.step := by
  simp only [step, Script.run_bind, Script.run_done, run_ask, outcome]

theorem run_primary (tokens : List PlacedToken) :
    (primary endLine tokens).run (outcome endLine)
      = reading (Expr.parsePrimary endLine tokens) := by
  rw [Expr.reading_parsePrimary]
  unfold primary
  split
  · rfl
  · rename_i token line rest
    cases token with
    | keyword word => cases word <;> rfl
    | identifier name =>
      dsimp only
      split <;> rfl
    | symbol mark =>
      cases mark with
      | leftParen =>
        simp only [Script.run_bind, Script.run_pure, run_ask, run_takeSymbol, map_eq_bind, outcome]
      | _ => rfl
    | _ => rfl

theorem run_names (tokens : List PlacedToken) :
    (names endLine tokens).run (outcome endLine) = reading (Stmt.parseNames endLine tokens) := by
  rw [Stmt.reading_parseNames]
  simp only [names, Script.run_bind, run_takeName]
  congr 1
  funext name
  obtain ⟨name, rest⟩ := name
  dsimp only
  split
  · simp only [Script.run_bind, Script.run_pure, run_ask, map_eq_bind, outcome]
  · simp only [Script.run_pure]

theorem run_params (tokens : List PlacedToken) :
    (params endLine tokens).run (outcome endLine) = reading (Stmt.parseParams endLine tokens) := by
  rw [Stmt.reading_parseParams]
  unfold params
  split
  · rfl
  · simp only [Script.run_bind, Script.run_pure, run_ask, run_takeSymbol, map_eq_bind, outcome]

theorem run_declarator (tokens : List PlacedToken) :
    (declarator endLine tokens).run (outcome endLine)
      = reading (Stmt.parseDeclarator endLine tokens) := by
  rw [Stmt.reading_parseDeclarator]
  simp only [declarator, Script.run_bind, run_takeName]
  congr 1
  funext name
  obtain ⟨name, rest⟩ := name
  dsimp only
  split
  · simp only [Script.run_bind, Script.run_pure, run_ask, map_eq_bind, outcome]
  · simp only [Script.run_pure]

theorem run_declarators (tokens : List PlacedToken) :
    (declarators endLine tokens).run (outcome endLine)
      = reading (Stmt.parseDeclarators endLine tokens) := by
  rw [Stmt.reading_parseDeclarators]
  simp only [declarators, Script.run_bind, run_declarator]
  congr 1
  funext first
  obtain ⟨first, rest⟩ := first
  dsimp only
  split
  · simp only [Script.run_bind, Script.run_pure, run_ask, map_eq_bind, outcome]
  · simp only [Script.run_pure]

theorem run_test (tokens : List PlacedToken) :
    (test endLine tokens).run (outcome endLine) = reading (Stmt.parseTest endLine tokens) := by
  rw [Stmt.reading_parseTest]
  simp only [test, Script.run_bind, Script.run_pure, run_ask, run_takeSymbol, map_eq_bind, outcome]

theorem run_result (tokens : List PlacedToken) :
    (result tokens).run (outcome endLine) = reading (Stmt.parseResult endLine tokens) := by
  rw [Stmt.reading_parseResult]
  unfold result
  split
  · rfl
  · simp only [Script.run_bind, Script.run_pure, run_ask, map_eq_bind, outcome]

theorem run_declaration (line : Nat) (kind : DeclKind) (tokens : List PlacedToken) :
    (declaration line kind tokens).run (outcome endLine)
      = reading (Stmt.parseDeclaration endLine line kind tokens) := by
  rw [Stmt.reading_parseDeclaration]
  simp only [declaration, Script.run_bind, Script.run_pure, run_ask, map_eq_bind, outcome]

theorem run_statement (tokens : List PlacedToken) :
    (statement endLine tokens).run (outcome endLine) = reading (Stmt.parse endLine tokens) := by
  rw [Stmt.reading_parse]
  unfold statement
  split
  · simp only [Script.run_bind, Script.run_pure, run_ask, run_takeName, run_takeSymbol, run_params,
      map_eq_bind, outcome, bind_bind]
  · -- the call takes the brace that is known to be there
    simp only [Script.run_bind, Script.run_pure, run_ask, map_eq_bind]
    rfl
  · simp only [run_declaration]
  · simp only [run_declaration]
  · simp only [run_declaration]
  · simp only [Script.run_bind, run_test, run_ask]
    congr 1
    funext test
    congr 1
    funext consequent
    obtain ⟨consequent, rest⟩ := consequent
    dsimp only
    split
    · simp only [Script.run_bind, Script.run_pure, run_ask, map_eq_bind, outcome]
    · simp only [Script.run_pure]
  · simp only [Script.run_bind, Script.run_pure, run_ask, run_test, map_eq_bind, outcome]
  · simp only [Script.run_bind, Script.run_pure, run_result, map_eq_bind]
  · rfl
  · simp only [Script.run_bind, Script.run_pure, run_ask, map_eq_bind, outcome]

theorem run_block (tokens : List PlacedToken) :
    (block endLine tokens).run (outcome endLine) = outcome endLine ⟨.block, tokens⟩ := by
  simp only [block, Script.run_bind, run_takeSymbol, run_ask, outcome]

theorem run_body (tokens : List PlacedToken) :
    (body endLine tokens).run (outcome endLine) = reading (Stmt.parseBlock endLine tokens) := by
  rw [Stmt.reading_parseBlock]
  unfold body
  split
  · rfl
  · rfl
  · simp only [run_ask, outcome]
  · simp only [Script.run_bind, Script.run_pure, run_ask, map_eq_bind, outcome]

theorem run_program (tokens : List PlacedToken) :
    (program tokens).run (outcome endLine) = outcome endLine ⟨.program, tokens⟩ := by
  rw [outcome, Stmt.parseAll_eq]
  unfold program
  split
  · rfl
  · simp only [run_ask, outcome]
  · simp only [Script.run_bind, Script.run_pure, run_ask, map_eq_bind, outcome, bind_bind]
    rfl

/-- The outcome of a call is what its script makes of the outcomes of its own calls. -/
theorem run_script (c : Call) : (c.script endLine).run (outcome endLine) = c.outcome endLine := by
  obtain ⟨goal, tokens⟩ := c
  cases goal with
  | program => exact run_program tokens
  | statement => exact run_statement tokens
  | block => exact run_block tokens
  | body => exact run_body tokens
  | names => exact run_names tokens
  | declarators => exact run_declarators tokens
  | assignment => exact run_assignment tokens
  | binary least => exact run_binary least tokens
  | climb least left => exact run_climb least left tokens
  | unary => exact run_unary tokens
  | step => exact run_step tokens
  | primary => exact run_primary tokens

end Call

end TraceGraph
