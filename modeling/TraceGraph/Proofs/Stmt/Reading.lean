import TraceGraph.Proofs.Expr.Reading
import TraceGraph.Stmt.Parser

/-!
# What the statement parsers return

For each parser of statements one equation says what it returns in terms of the
others, without the bounds on what they leave.
-/

namespace TraceGraph.Stmt

/-! ## Lists between commas -/

theorem reading_parseNames (endLine : Nat) (tokens : List PlacedToken) :
    reading (parseNames endLine tokens) =
      (reading (expectIdentifier endLine tokens)).bind fun name =>
        match name.2 with
        | ⟨.symbol .comma, _⟩ :: rest =>
          (reading (parseNames endLine rest)).map fun names => (name.1 :: names.1, names.2)
        | _ => .ok ([name.1], name.2) := by
  rw [parseNames]
  cases expectIdentifier endLine tokens with
  | error => rfl
  | ok name =>
    obtain ⟨name, rest, hrest⟩ := name
    cases rest with
    | nil => rfl
    | cons first rest =>
      obtain ⟨token, line⟩ := first
      cases token with
      | symbol mark =>
        cases mark with
        | comma =>
          show reading (parseNames endLine rest >>= _) = (reading (parseNames endLine rest)).map _
          cases parseNames endLine rest <;> rfl
        | _ => rfl
      | _ => rfl

theorem reading_parseParams (endLine : Nat) (tokens : List PlacedToken) :
    reading (parseParams endLine tokens) =
      match tokens with
      | ⟨.symbol .rightParen, _⟩ :: rest => .ok ([], rest)
      | _ =>
        (reading (parseNames endLine tokens)).bind fun names =>
          (reading (expectSymbol endLine .rightParen names.2)).map fun close =>
            (names.1, close.2) := by
  refine eq_of_eq_right fun right hright => ?_
  unfold parseParams
  split
  · rw [hright]
    rfl
  · rename_i hother
    subst hright
    split
    · exact absurd rfl (hother _ _)
    cases parseNames endLine tokens with
    | error => rfl
    | ok names =>
      show reading (expectSymbol endLine .rightParen names.rest >>= _)
        = (reading (expectSymbol endLine .rightParen names.rest)).map _
      cases expectSymbol endLine .rightParen names.rest <;> rfl

theorem reading_parseDeclarator (endLine : Nat) (tokens : List PlacedToken) :
    reading (parseDeclarator endLine tokens) =
      (reading (expectIdentifier endLine tokens)).bind fun name =>
        match name.2 with
        | ⟨.symbol .assign, _⟩ :: rest =>
          (reading (Expr.parse endLine rest)).map fun init =>
            (⟨name.1, some init.1, lineAt endLine tokens⟩, init.2)
        | _ => .ok (⟨name.1, none, lineAt endLine tokens⟩, name.2) := by
  rw [parseDeclarator]
  cases expectIdentifier endLine tokens with
  | error => rfl
  | ok name =>
    obtain ⟨name, rest, hrest⟩ := name
    cases rest with
    | nil => rfl
    | cons first rest =>
      obtain ⟨token, line⟩ := first
      cases token with
      | symbol mark =>
        cases mark with
        | assign =>
          show reading (Expr.parse endLine rest >>= _) = (reading (Expr.parse endLine rest)).map _
          cases Expr.parse endLine rest <;> rfl
        | _ => rfl
      | _ => rfl

theorem reading_parseDeclarators (endLine : Nat) (tokens : List PlacedToken) :
    reading (parseDeclarators endLine tokens) =
      (reading (parseDeclarator endLine tokens)).bind fun first =>
        match first.2 with
        | ⟨.symbol .comma, _⟩ :: rest =>
          (reading (parseDeclarators endLine rest)).map fun others =>
            (first.1 :: others.1, others.2)
        | _ => .ok ([first.1], first.2) := by
  rw [parseDeclarators]
  cases parseDeclarator endLine tokens with
  | error => rfl
  | ok first =>
    obtain ⟨first, rest, hrest⟩ := first
    cases rest with
    | nil => rfl
    | cons next rest =>
      obtain ⟨token, line⟩ := next
      cases token with
      | symbol mark =>
        cases mark with
        | comma =>
          show reading (parseDeclarators endLine rest >>= _)
            = (reading (parseDeclarators endLine rest)).map _
          cases parseDeclarators endLine rest <;> rfl
        | _ => rfl
      | _ => rfl

/-! ## Parts of statements -/

theorem reading_parseTest (endLine : Nat) (tokens : List PlacedToken) :
    reading (parseTest endLine tokens) =
      (reading (expectSymbol endLine .leftParen tokens)).bind fun start =>
        (reading (Expr.parse endLine start.2)).bind fun test =>
          (reading (expectSymbol endLine .rightParen test.2)).map fun close =>
            (test.1, close.2) := by
  rw [parseTest]
  cases expectSymbol endLine .leftParen tokens with
  | error => rfl
  | ok start =>
    show reading (Expr.parse endLine start.rest >>= _)
      = (reading (Expr.parse endLine start.rest)).bind _
    cases Expr.parse endLine start.rest with
    | error => rfl
    | ok test =>
      show reading (expectSymbol endLine .rightParen test.rest >>= _)
        = (reading (expectSymbol endLine .rightParen test.rest)).map _
      cases expectSymbol endLine .rightParen test.rest <;> rfl

theorem reading_parseResult (endLine : Nat) (tokens : List PlacedToken) :
    reading (parseResult endLine tokens) =
      if nextToken? tokens = some (.symbol .semicolon)
          ∨ nextToken? tokens = some (.symbol .rightBrace) then .ok (none, tokens)
      else (reading (Expr.parse endLine tokens)).map fun result => (some result.1, result.2) := by
  unfold parseResult
  split
  · rename_i heq
    rw [if_pos (.inl heq)]
    rfl
  · rename_i heq
    rw [if_pos (.inr heq)]
    rfl
  · rename_i hsemicolon hbrace
    rw [if_neg (not_or.2 ⟨hsemicolon, hbrace⟩)]
    cases Expr.parse endLine tokens <;> rfl

theorem reading_parseDeclaration (endLine line : Nat) (kind : DeclKind)
    (tokens : List PlacedToken) :
    reading (parseDeclaration endLine line kind tokens) =
      (reading (parseDeclarators endLine tokens)).map fun declarators =>
        (.declare line kind declarators.1, skipSemicolon declarators.2) := by
  rw [parseDeclaration]
  cases parseDeclarators endLine tokens <;> rfl

/-! ## Statements -/

theorem reading_parse (endLine : Nat) (tokens : List PlacedToken) :
    reading (parse endLine tokens) =
      match tokens with
      | ⟨.keyword .functionWord, line⟩ :: rest =>
        (reading (expectIdentifier endLine rest)).bind fun name =>
          (reading (expectSymbol endLine .leftParen name.2)).bind fun start =>
            (reading (parseParams endLine start.2)).bind fun params =>
              (reading (expectSymbol endLine .leftBrace params.2)).bind fun brace =>
                (reading (parseBlock endLine brace.2)).map fun body =>
                  (.function line name.1 params.1 (lineAt endLine params.2) body.1, body.2)
      | ⟨.symbol .leftBrace, line⟩ :: rest =>
        (reading (parseBlock endLine rest)).map fun body => (.block line body.1, body.2)
      | ⟨.keyword .letWord, line⟩ :: rest =>
        reading (parseDeclaration endLine line .letDecl rest)
      | ⟨.keyword .varWord, line⟩ :: rest =>
        reading (parseDeclaration endLine line .varDecl rest)
      | ⟨.keyword .constWord, line⟩ :: rest =>
        reading (parseDeclaration endLine line .constDecl rest)
      | ⟨.keyword .ifWord, line⟩ :: rest =>
        (reading (parseTest endLine rest)).bind fun test =>
          (reading (parse endLine test.2)).bind fun consequent =>
            match consequent.2 with
            | ⟨.keyword .elseWord, _⟩ :: others =>
              (reading (parse endLine others)).map fun alternate =>
                (.ifElse line test.1 consequent.1 alternate.1, alternate.2)
            | _ => .ok (.ifThen line test.1 consequent.1, consequent.2)
      | ⟨.keyword .whileWord, line⟩ :: rest =>
        (reading (parseTest endLine rest)).bind fun test =>
          (reading (parse endLine test.2)).map fun body => (.loop line test.1 body.1, body.2)
      | ⟨.keyword .returnWord, line⟩ :: rest =>
        (reading (parseResult endLine rest)).map fun result =>
          (.exit line result.1, skipSemicolon result.2)
      | ⟨.reserved word, line⟩ :: _ => .error (.unsupported line (.reservedStatement word))
      | _ =>
        (reading (Expr.parse endLine tokens)).map fun expr =>
          (.expression (lineAt endLine tokens) expr.1, skipSemicolon expr.2) := by
  have hdeclaration : ∀ (line : Nat) (kind : DeclKind) (rest : List PlacedToken),
      reading (do return (← parseDeclaration endLine line kind rest).succ)
        = reading (parseDeclaration endLine line kind rest) := by
    intro line kind rest
    cases parseDeclaration endLine line kind rest <;> rfl
  refine eq_of_eq_right fun right hright => ?_
  rw [parse.eq_def]
  split
  · rename_i line rest
    simp only [hright]
    cases expectIdentifier endLine rest with
    | error => rfl
    | ok name =>
      show reading (expectSymbol endLine .leftParen name.rest >>= _)
        = (reading (expectSymbol endLine .leftParen name.rest)).bind _
      cases expectSymbol endLine .leftParen name.rest with
      | error => rfl
      | ok start =>
        show reading (parseParams endLine start.rest >>= _)
          = (reading (parseParams endLine start.rest)).bind _
        cases parseParams endLine start.rest with
        | error => rfl
        | ok params =>
          show reading (expectSymbol endLine .leftBrace params.rest >>= _)
            = (reading (expectSymbol endLine .leftBrace params.rest)).bind _
          cases expectSymbol endLine .leftBrace params.rest with
          | error => rfl
          | ok brace =>
            show reading (parseBlock endLine brace.rest >>= _)
              = (reading (parseBlock endLine brace.rest)).map _
            cases parseBlock endLine brace.rest <;> rfl
  · rename_i line rest
    simp only [hright]
    cases parseBlock endLine rest <;> rfl
  · rw [hright]
    exact hdeclaration _ _ _
  · rw [hright]
    exact hdeclaration _ _ _
  · rw [hright]
    exact hdeclaration _ _ _
  · rename_i line rest
    simp only [hright]
    cases parseTest endLine rest with
    | error => rfl
    | ok test =>
      show reading (parse endLine test.rest >>= _) = (reading (parse endLine test.rest)).bind _
      cases parse endLine test.rest with
      | error => rfl
      | ok consequent =>
        obtain ⟨consequent, rest', hrest⟩ := consequent
        cases rest' with
        | nil => rfl
        | cons next others =>
          obtain ⟨token, line⟩ := next
          cases token with
          | keyword word =>
            cases word with
            | elseWord =>
              show reading (parse endLine others >>= _) = (reading (parse endLine others)).map _
              cases parse endLine others <;> rfl
            | _ => rfl
          | _ => rfl
  · rename_i line rest
    simp only [hright]
    cases parseTest endLine rest with
    | error => rfl
    | ok test =>
      show reading (parse endLine test.rest >>= _) = (reading (parse endLine test.rest)).map _
      cases parse endLine test.rest <;> rfl
  · rename_i line rest
    simp only [hright]
    cases parseResult endLine rest <;> rfl
  · rw [hright]
    rfl
  · rename_i hfunction hblock hlet hvar hconst hif hwhile hreturn hreserved
    subst hright
    split
    · exact absurd rfl (hfunction _ _)
    · exact absurd rfl (hblock _ _)
    · exact absurd rfl (hlet _ _)
    · exact absurd rfl (hvar _ _)
    · exact absurd rfl (hconst _ _)
    · exact absurd rfl (hif _ _)
    · exact absurd rfl (hwhile _ _)
    · exact absurd rfl (hreturn _ _)
    · exact absurd rfl (hreserved _ _ _)
    · cases Expr.parse endLine tokens <;> rfl

theorem reading_parseBlock (endLine : Nat) (tokens : List PlacedToken) :
    reading (parseBlock endLine tokens) =
      match tokens with
      | [] => .error (.malformed endLine .unterminatedBlock)
      | ⟨.symbol .rightBrace, _⟩ :: rest => .ok ([], rest)
      | ⟨.symbol .semicolon, _⟩ :: rest => reading (parseBlock endLine rest)
      | _ =>
        (reading (parse endLine tokens)).bind fun first =>
          (reading (parseBlock endLine first.2)).map fun others =>
            (first.1 :: others.1, others.2) := by
  refine eq_of_eq_right fun right hright => ?_
  rw [parseBlock.eq_def]
  split
  · rw [hright]
    rfl
  · rw [hright]
    rfl
  · rename_i rest
    simp only [hright]
    cases parseBlock endLine rest <;> rfl
  · rename_i hnil hbrace hsemicolon
    subst hright
    split
    · exact absurd rfl hnil
    · exact absurd rfl (hbrace _ _)
    · exact absurd rfl (hsemicolon _ _)
    · cases parse endLine tokens with
      | error => rfl
      | ok first =>
        show reading (parseBlock endLine first.rest >>= _)
          = (reading (parseBlock endLine first.rest)).map _
        cases parseBlock endLine first.rest <;> rfl

theorem parseAll_eq (endLine : Nat) (tokens : List PlacedToken) :
    parseAll endLine tokens =
      match tokens with
      | [] => .ok []
      | ⟨.symbol .semicolon, _⟩ :: rest => parseAll endLine rest
      | _ =>
        (reading (parse endLine tokens)).bind fun first =>
          (parseAll endLine first.2).map fun others => first.1 :: others := by
  refine eq_of_eq_right fun right hright => ?_
  rw [parseAll.eq_def]
  split
  · rw [hright]
  · rw [hright]
  · rename_i hnil hsemicolon
    subst hright
    split
    · exact absurd rfl hnil
    · exact absurd rfl (hsemicolon _ _)
    · cases parse endLine tokens with
      | error => rfl
      | ok first =>
        show (parseAll endLine first.rest >>= _) = (parseAll endLine first.rest).map _
        cases parseAll endLine first.rest <;> rfl

end TraceGraph.Stmt
