import TraceGraph.Proofs.Expr.Moving
import TraceGraph.Proofs.Stmt.Reading

/-!
# Reading statements on other lines

The statement parsers do not look at lines either.  A source text that is laid out
differently is read as the same program on other lines, or is refused for the same
reason there.

* `Stmt.mapLines` and `Program.mapLines`: statements and programs on other lines.
* `Stmt.parse_moveTokens` and `Stmt.parseBlock_moveTokens`: reading moved tokens.
* `Program.ofTokens_moveTokens`: the same for whole programs.
-/

namespace TraceGraph

variable (f : Nat → Nat)

/-- The declarator with all lines changed. -/
def Declarator.mapLines : Declarator → Declarator :=
  Declarator.map f (Expr.mapLines f)

namespace Stmt

/-- The statement with all lines changed. -/
def mapLines : Stmt → Stmt :=
  Stmt.map f (Expr.mapLines f)

/-- The statements with all lines changed. -/
def mapLinesAll : List Stmt → List Stmt :=
  mapAll f (Expr.mapLines f)

end Stmt

/-- The program with all lines changed. -/
def Program.mapLines (p : Program) : Program :=
  ⟨Stmt.mapLinesAll f p.body⟩

theorem skipSemicolon_moveTokens (tokens : List PlacedToken) :
    skipSemicolon (moveTokens f tokens) = moveTokens f (skipSemicolon tokens) := by
  cases tokens with
  | nil => rfl
  | cons first rest =>
    obtain ⟨token, line⟩ := first
    cases token with
    | symbol mark => cases mark <;> rfl
    | _ => rfl

namespace Stmt

/-! ## Lists between commas -/

theorem parseNames_moveTokens (endLine : Nat) (tokens : List PlacedToken) :
    reading (parseNames (f endLine) (moveTokens f tokens))
      = relined f (moved f id) (reading (parseNames endLine tokens)) := by
  rw [reading_parseNames, reading_parseNames, expectIdentifier_moveTokens]
  refine relined_bind fun name hname => ?_
  have hshort := reading_length_lt hname
  obtain ⟨name, rest⟩ := name
  cases rest with
  | nil => rfl
  | cons first rest =>
    obtain ⟨token, line⟩ := first
    cases token with
    | symbol mark =>
      cases mark with
      | comma =>
        have hnames := parseNames_moveTokens endLine rest
        simp only [moved, moveTokens, List.map_cons, PlacedToken.mapLine] at hnames ⊢
        rw [hnames]
        exact relined_map fun _ _ => rfl
      | _ => rfl
    | _ => rfl
termination_by tokens.length
decreasing_by
  simp only [List.length_cons] at hshort
  omega

theorem parseParams_moveTokens (endLine : Nat) (tokens : List PlacedToken) :
    reading (parseParams (f endLine) (moveTokens f tokens))
      = relined f (moved f id) (reading (parseParams endLine tokens)) := by
  have hnames : (reading (parseNames (f endLine) (moveTokens f tokens))).bind (fun names =>
        (reading (expectSymbol (f endLine) .rightParen names.2)).map fun close =>
          (names.1, close.2))
      = relined f (moved f id) ((reading (parseNames endLine tokens)).bind fun names =>
        (reading (expectSymbol endLine .rightParen names.2)).map fun close =>
          (names.1, close.2)) := by
    rw [parseNames_moveTokens]
    refine relined_bind fun names _ => ?_
    show (reading (expectSymbol (f endLine) .rightParen (moveTokens f names.2))).map _ = _
    rw [expectSymbol_moveTokens]
    exact relined_map fun _ _ => rfl
  rw [reading_parseParams, reading_parseParams]
  cases tokens with
  | nil => exact hnames
  | cons first rest =>
    obtain ⟨token, line⟩ := first
    cases token with
    | symbol mark =>
      cases mark with
      | rightParen => rfl
      | _ => exact hnames
    | _ => exact hnames

theorem parseDeclarator_moveTokens (endLine : Nat) (tokens : List PlacedToken) :
    reading (parseDeclarator (f endLine) (moveTokens f tokens))
      = relined f (moved f (Declarator.mapLines f)) (reading (parseDeclarator endLine tokens)) := by
  rw [reading_parseDeclarator, reading_parseDeclarator, expectIdentifier_moveTokens,
    lineAt_moveTokens]
  refine relined_bind fun name _ => ?_
  obtain ⟨name, rest⟩ := name
  cases rest with
  | nil => rfl
  | cons first rest =>
    obtain ⟨token, line⟩ := first
    cases token with
    | symbol mark =>
      cases mark with
      | assign =>
        have hinit := Expr.parse_moveTokens f endLine rest
        simp only [moved, moveTokens, List.map_cons, PlacedToken.mapLine] at hinit ⊢
        rw [hinit]
        exact relined_map fun _ _ => rfl
      | _ => rfl
    | _ => rfl

theorem parseDeclarators_moveTokens (endLine : Nat) (tokens : List PlacedToken) :
    reading (parseDeclarators (f endLine) (moveTokens f tokens))
      = relined f (moved f (List.map (Declarator.mapLines f)))
          (reading (parseDeclarators endLine tokens)) := by
  rw [reading_parseDeclarators, reading_parseDeclarators, parseDeclarator_moveTokens]
  refine relined_bind fun first hfirst => ?_
  have hshort := reading_length_lt hfirst
  obtain ⟨first, rest⟩ := first
  cases rest with
  | nil => rfl
  | cons next rest =>
    obtain ⟨token, line⟩ := next
    cases token with
    | symbol mark =>
      cases mark with
      | comma =>
        have hothers := parseDeclarators_moveTokens endLine rest
        simp only [moved, moveTokens, List.map_cons, PlacedToken.mapLine] at hothers ⊢
        rw [hothers]
        exact relined_map fun _ _ => rfl
      | _ => rfl
    | _ => rfl
termination_by tokens.length
decreasing_by
  simp only [List.length_cons] at hshort
  omega

/-! ## Parts of statements -/

theorem parseTest_moveTokens (endLine : Nat) (tokens : List PlacedToken) :
    reading (parseTest (f endLine) (moveTokens f tokens))
      = relined f (moved f (Expr.mapLines f)) (reading (parseTest endLine tokens)) := by
  rw [reading_parseTest, reading_parseTest, expectSymbol_moveTokens]
  refine relined_bind fun start _ => ?_
  show (reading (Expr.parse (f endLine) (moveTokens f start.2))).bind _ = _
  rw [Expr.parse_moveTokens]
  refine relined_bind fun test _ => ?_
  show (reading (expectSymbol (f endLine) .rightParen (moveTokens f test.2))).map _ = _
  rw [expectSymbol_moveTokens]
  exact relined_map fun _ _ => rfl

theorem parseResult_moveTokens (endLine : Nat) (tokens : List PlacedToken) :
    reading (parseResult (f endLine) (moveTokens f tokens))
      = relined f (moved f (Option.map (Expr.mapLines f)))
          (reading (parseResult endLine tokens)) := by
  rw [reading_parseResult, reading_parseResult, nextToken?_moveTokens, Expr.parse_moveTokens]
  split
  · rfl
  · exact relined_map fun _ _ => rfl

theorem parseDeclaration_moveTokens (endLine line : Nat) (kind : DeclKind)
    (tokens : List PlacedToken) :
    reading (parseDeclaration (f endLine) (f line) kind (moveTokens f tokens))
      = relined f (moved f (mapLines f)) (reading (parseDeclaration endLine line kind tokens)) := by
  rw [reading_parseDeclaration, reading_parseDeclaration, parseDeclarators_moveTokens]
  refine relined_map fun declarators _ => ?_
  exact congrArg (_, ·) (skipSemicolon_moveTokens f declarators.2)

/-! ## Statements -/

private theorem parse_expression_moveTokens (endLine : Nat) (tokens : List PlacedToken) :
    ((reading (Expr.parse (f endLine) (moveTokens f tokens))).map fun expr =>
        (expression (lineAt (f endLine) (moveTokens f tokens)) expr.1, skipSemicolon expr.2))
      = relined f (moved f (mapLines f)) ((reading (Expr.parse endLine tokens)).map fun expr =>
        (expression (lineAt endLine tokens) expr.1, skipSemicolon expr.2)) := by
  rw [Expr.parse_moveTokens, lineAt_moveTokens]
  refine relined_map fun expr _ => ?_
  exact congrArg (_, ·) (skipSemicolon_moveTokens f expr.2)

mutual

/-- Tokens that are moved to other lines are read as the statement on these lines. -/
theorem parse_moveTokens (endLine : Nat) (tokens : List PlacedToken) :
    reading (parse (f endLine) (moveTokens f tokens))
      = relined f (moved f (mapLines f)) (reading (parse endLine tokens)) := by
  have hexpression := parse_expression_moveTokens f endLine tokens
  rw [reading_parse, reading_parse]
  cases tokens with
  | nil => exact hexpression
  | cons first rest =>
    obtain ⟨token, line⟩ := first
    cases token with
    | keyword word =>
      cases word with
      | functionWord =>
        show (reading (expectIdentifier (f endLine) (moveTokens f rest))).bind _ = _
        rw [expectIdentifier_moveTokens]
        refine relined_bind fun name hname => ?_
        show (reading (expectSymbol (f endLine) .leftParen (moveTokens f name.2))).bind _ = _
        rw [expectSymbol_moveTokens]
        refine relined_bind fun start hstart => ?_
        show (reading (parseParams (f endLine) (moveTokens f start.2))).bind _ = _
        rw [parseParams_moveTokens]
        refine relined_bind fun params hparams => ?_
        show (reading (expectSymbol (f endLine) .leftBrace (moveTokens f params.2))).bind _ = _
        rw [expectSymbol_moveTokens]
        refine relined_bind fun brace hbrace => ?_
        have hname := reading_length_lt hname
        have hstart := reading_length_lt hstart
        have hparams := reading_length_lt hparams
        have hbrace := reading_length_lt hbrace
        show (reading (parseBlock (f endLine) (moveTokens f brace.2))).map _ = _
        rw [parseBlock_moveTokens endLine brace.2]
        refine relined_map fun body _ => ?_
        show (function (f line) _ _ (lineAt (f endLine) (moveTokens f params.2)) _, _) = _
        rw [lineAt_moveTokens]
        rfl
      | letWord => exact parseDeclaration_moveTokens f endLine line .letDecl rest
      | varWord => exact parseDeclaration_moveTokens f endLine line .varDecl rest
      | constWord => exact parseDeclaration_moveTokens f endLine line .constDecl rest
      | ifWord =>
        show (reading (parseTest (f endLine) (moveTokens f rest))).bind _ = _
        rw [parseTest_moveTokens]
        refine relined_bind fun test htest => ?_
        have htest := reading_length_lt htest
        show (reading (parse (f endLine) (moveTokens f test.2))).bind _ = _
        rw [parse_moveTokens endLine test.2]
        refine relined_bind fun consequent hconsequent => ?_
        have hconsequent := reading_length_lt hconsequent
        obtain ⟨consequent, after⟩ := consequent
        cases after with
        | nil => rfl
        | cons next others =>
          obtain ⟨token, elseLine⟩ := next
          cases token with
          | keyword word =>
            cases word with
            | elseWord =>
              have hothers : others.length + 1 < test.2.length := hconsequent
              show (reading (parse (f endLine) (moveTokens f others))).map _ = _
              rw [parse_moveTokens endLine others]
              exact relined_map fun _ _ => rfl
            | _ => rfl
          | _ => rfl
      | whileWord =>
        show (reading (parseTest (f endLine) (moveTokens f rest))).bind _ = _
        rw [parseTest_moveTokens]
        refine relined_bind fun test htest => ?_
        have htest := reading_length_lt htest
        show (reading (parse (f endLine) (moveTokens f test.2))).map _ = _
        rw [parse_moveTokens endLine test.2]
        exact relined_map fun _ _ => rfl
      | returnWord =>
        show (reading (parseResult (f endLine) (moveTokens f rest))).map _ = _
        rw [parseResult_moveTokens]
        refine relined_map fun result _ => ?_
        exact congrArg (_, ·) (skipSemicolon_moveTokens f result.2)
      | _ => exact hexpression
    | symbol mark =>
      cases mark with
      | leftBrace =>
        show (reading (parseBlock (f endLine) (moveTokens f rest))).map _ = _
        rw [parseBlock_moveTokens endLine rest]
        exact relined_map fun _ _ => rfl
      | _ => exact hexpression
    | reserved word => rfl
    | _ => exact hexpression
termination_by (tokens.length, 0)

theorem parseBlock_moveTokens (endLine : Nat) (tokens : List PlacedToken) :
    reading (parseBlock (f endLine) (moveTokens f tokens))
      = relined f (moved f (mapLinesAll f)) (reading (parseBlock endLine tokens)) := by
  have hstatement : ((reading (parse (f endLine) (moveTokens f tokens))).bind fun first =>
        (reading (parseBlock (f endLine) first.2)).map fun others => (first.1 :: others.1, others.2))
      = relined f (moved f (mapLinesAll f)) ((reading (parse endLine tokens)).bind fun first =>
        (reading (parseBlock endLine first.2)).map fun others =>
          (first.1 :: others.1, others.2)) := by
    rw [parse_moveTokens endLine tokens]
    refine relined_bind fun first hfirst => ?_
    have hshort := reading_length_lt hfirst
    show (reading (parseBlock (f endLine) (moveTokens f first.2))).map _ = _
    rw [parseBlock_moveTokens endLine first.2]
    exact relined_map fun _ _ => rfl
  rw [reading_parseBlock, reading_parseBlock]
  cases tokens with
  | nil => rfl
  | cons first rest =>
    obtain ⟨token, line⟩ := first
    cases token with
    | symbol mark =>
      cases mark with
      | rightBrace => rfl
      | semicolon => exact parseBlock_moveTokens endLine rest
      | _ => exact hstatement
    | _ => exact hstatement
termination_by (tokens.length, 1)

end

/-! ## Programs -/

theorem parseAll_moveTokens (endLine : Nat) (tokens : List PlacedToken) :
    parseAll (f endLine) (moveTokens f tokens)
      = relined f (mapLinesAll f) (parseAll endLine tokens) := by
  have hstatement : ((reading (parse (f endLine) (moveTokens f tokens))).bind fun first =>
        (parseAll (f endLine) first.2).map fun others => first.1 :: others)
      = relined f (mapLinesAll f) ((reading (parse endLine tokens)).bind fun first =>
        (parseAll endLine first.2).map fun others => first.1 :: others) := by
    rw [parse_moveTokens f endLine tokens]
    refine relined_bind fun first hfirst => ?_
    have hshort := reading_length_lt hfirst
    show (parseAll (f endLine) (moveTokens f first.2)).map _ = _
    rw [parseAll_moveTokens endLine first.2]
    exact relined_map fun _ _ => rfl
  rw [parseAll_eq, parseAll_eq]
  cases tokens with
  | nil => rfl
  | cons first rest =>
    obtain ⟨token, line⟩ := first
    cases token with
    | symbol mark =>
      cases mark with
      | semicolon => exact parseAll_moveTokens endLine rest
      | _ => exact hstatement
    | _ => exact hstatement
termination_by tokens.length

end Stmt

theorem lastLine_moveTokens {tokens : List PlacedToken} (h : tokens ≠ []) :
    lastLine (moveTokens f tokens) = f (lastLine tokens) := by
  rw [lastLine, lastLine, moveTokens, List.getLast?_map]
  cases hlast : tokens.getLast? with
  | none => exact absurd (List.getLast?_eq_none_iff.1 hlast) h
  | some token => rfl

/-- Tokens that are moved to other lines are the program on these lines. -/
theorem Program.ofTokens_moveTokens (tokens : List PlacedToken) :
    Program.ofTokens (moveTokens f tokens)
      = relined f (Program.mapLines f) (Program.ofTokens tokens) := by
  by_cases htokens : tokens = []
  · have hnil : Program.ofTokens [] = .ok ⟨[]⟩ := by
      show (Stmt.parseAll 1 []).map Program.mk = _
      rw [Stmt.parseAll_eq]
      rfl
    rw [htokens, moveTokens, List.map_nil, hnil]
    rfl
  · show (Stmt.parseAll (lastLine (moveTokens f tokens)) (moveTokens f tokens)).map Program.mk
      = relined f _ ((Stmt.parseAll (lastLine tokens) tokens).map Program.mk)
    rw [lastLine_moveTokens f htokens, Stmt.parseAll_moveTokens]
    exact relined_map fun _ _ => rfl

end TraceGraph
