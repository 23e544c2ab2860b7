import TraceGraph.Proofs.Expr.Printed
import TraceGraph.Stmt.Printer

/-!
# The tokens of a printed program

`Stmt.tokens` and `Program.tokens` list the tokens of statements and programs as
they are printed.  Indentation and line breaks leave no trace in them.

* `Stmt.lexes_renderAt`: at every depth a printed statement is read as its
  tokens, whatever follows it.
* `Program.tokenize_render`: a printed program is read as its tokens.
-/

namespace TraceGraph

/-! ## Names and numbers in statements -/

/-- Whether all names and all numbers in a declarator have the given
properties. -/
def Declarator.Leaves (okName : String → Prop) (okNumber : Float → Prop) (d : Declarator) : Prop :=
  okName d.name ∧ ∀ init ∈ d.init, init.Leaves okName okNumber

mutual

/-- Whether all names and all numbers in a statement have the given
properties. -/
def Stmt.Leaves (okName : String → Prop) (okNumber : Float → Prop) : Stmt → Prop
  | .function _ name params _ body =>
    okName name ∧ (∀ param ∈ params, okName param) ∧ Stmt.LeavesAll okName okNumber body
  | .block _ body => Stmt.LeavesAll okName okNumber body
  | .expression _ expr => expr.Leaves okName okNumber
  | .declare _ _ declarators => ∀ d ∈ declarators, d.Leaves okName okNumber
  | .ifThen _ test consequent =>
    test.Leaves okName okNumber ∧ consequent.Leaves okName okNumber
  | .ifElse _ test consequent alternate =>
    test.Leaves okName okNumber ∧ consequent.Leaves okName okNumber
      ∧ alternate.Leaves okName okNumber
  | .loop _ test body => test.Leaves okName okNumber ∧ body.Leaves okName okNumber
  | .exit _ result => ∀ expr ∈ result, expr.Leaves okName okNumber

/-- Whether all names and all numbers in a list of statements have the given
properties. -/
def Stmt.LeavesAll (okName : String → Prop) (okNumber : Float → Prop) : List Stmt → Prop
  | [] => True
  | s :: rest => s.Leaves okName okNumber ∧ Stmt.LeavesAll okName okNumber rest

end

/-! ## Tokens of statements -/

/-- The keyword of the declaration. -/
def DeclKind.keyword : DeclKind → Keyword
  | .letDecl => .letWord
  | .varDecl => .varWord
  | .constDecl => .constWord

theorem DeclKind.spelling_keyword (kind : DeclKind) : kind.keyword.spelling = kind.spelling := by
  cases kind <;> rfl

/-- Pieces with commas between them. -/
def commaTokens : List (List Token) → List Token
  | [] => []
  | [piece] => piece
  | piece :: next :: pieces => piece ++ .symbol .comma :: commaTokens (next :: pieces)

/-- The tokens of a declarator as it is printed. -/
def Declarator.tokens (d : Declarator) : List Token :=
  match d.init with
  | some init => .identifier d.name :: .symbol .assign :: init.tokens
  | none => [.identifier d.name]

/-- The tokens of a condition in parentheses. -/
def testTokens (test : Expr) : List Token :=
  .symbol .leftParen :: (test.tokens ++ [.symbol .rightParen])

mutual

/-- The tokens of a statement as it is printed. -/
def Stmt.tokens : Stmt → List Token
  | .function _ name params _ body =>
    .keyword .functionWord :: .identifier name :: .symbol .leftParen ::
      (commaTokens (params.map fun param => [.identifier param])
        ++ .symbol .rightParen :: .symbol .leftBrace :: (Stmt.tokensAll body
          ++ [.symbol .rightBrace]))
  | .block _ body => .symbol .leftBrace :: (Stmt.tokensAll body ++ [.symbol .rightBrace])
  | .expression _ expr => expr.tokens ++ [.symbol .semicolon]
  | .declare _ kind declarators =>
    .keyword kind.keyword :: (commaTokens (declarators.map Declarator.tokens)
      ++ [.symbol .semicolon])
  | .ifThen _ test consequent => .keyword .ifWord :: (testTokens test ++ consequent.tokens)
  | .ifElse _ test consequent alternate =>
    .keyword .ifWord :: (testTokens test ++ (consequent.tokens
      ++ .keyword .elseWord :: alternate.tokens))
  | .loop _ test body => .keyword .whileWord :: (testTokens test ++ body.tokens)
  | .exit _ (some result) => .keyword .returnWord :: (result.tokens ++ [.symbol .semicolon])
  | .exit _ none => [.keyword .returnWord, .symbol .semicolon]

/-- The tokens of statements one after the other. -/
def Stmt.tokensAll : List Stmt → List Token
  | [] => []
  | s :: rest => s.tokens ++ Stmt.tokensAll rest

end

/-- The tokens of a program as it is printed. -/
def Program.tokens (program : Program) : List Token :=
  Stmt.tokensAll program.body

/-! ## Pieces between commas -/

/-- If each piece is read as its tokens, the pieces with commas between them are
read as theirs. -/
theorem spells_commas {α : Type} {text : α → String} {tokens : α → List Token} {items : List α}
    (hitems : ∀ item ∈ items, Spells (text item) (tokens item)) :
    Spells (String.intercalate ", " (items.map text)) (commaTokens (items.map tokens)) := by
  induction items with
  | nil =>
    intro rest more _ h
    simpa [commaTokens] using h
  | cons item items ih =>
    intro rest more hrest h
    have hitem : Spells (text item) (tokens item) := hitems item List.mem_cons_self
    have ih := ih (fun other hother => hitems other (List.mem_cons_of_mem _ hother)) hrest h
    cases items with
    | nil => simpa [commaTokens] using hitem hrest h
    | cons next items =>
      have hcomma := lexes_bracket ',' .comma (by decide) (lexes_space (c := ' ') (by decide) ih)
      have hall := hitem (begins_cons.2 (by decide)) hcomma
      simpa [commaTokens] using hall

private theorem spells_declarator {d : Declarator} {okNumber : Float → Prop}
    (hleaves : d.Leaves IsName okNumber) : Spells (Stmt.renderDeclarator d) d.tokens := by
  intro rest more hrest h
  obtain ⟨name, init, line⟩ := d
  cases init with
  | none => exact spells_name hleaves.1 hrest h
  | some init =>
    have hvalue := Expr.spells_render (hleaves.2 init rfl) hrest h
    have hassign := lexes_symbol .assign (begins_cons.2 (Symbol.extendsBy_space _))
      (lexes_space (c := ' ') (by decide) hvalue)
    have hname := spells_name hleaves.1 (begins_cons.2 (by decide))
      (lexes_space (c := ' ') (by decide) hassign)
    simpa [Stmt.renderDeclarator, Declarator.tokens, Symbol.spelling] using hname

/-! ## Statements -/

private theorem lexes_indent (depth : Nat) {rest : List Char} {tokens : List Token}
    (h : Lexes rest tokens) : Lexes ((Stmt.indent depth).toList ++ rest) tokens := by
  rw [Stmt.indent, String.toList_ofList]
  exact lexes_spaces h

private theorem lexes_test {test : Expr} {okNumber : Float → Prop}
    (hleaves : test.Leaves IsName okNumber) (word : Keyword) {rest : List Char}
    {tokens : List Token} (h : Lexes rest tokens) :
    Lexes (word.spelling.toList ++ ' ' :: '(' :: (test.render.toList ++ ')' :: rest))
      (.keyword word :: (testTokens test ++ tokens)) := by
  have hclose := lexes_bracket ')' .rightParen (by decide) h
  have htest := Expr.spells_render hleaves (begins_cons.2 (by decide)) hclose
  have hopen := lexes_bracket '(' .leftParen (by decide) htest
  have hword := lexes_keyword word (begins_cons.2 (by decide))
    (lexes_space (c := ' ') (by decide) hopen)
  simpa [testTokens] using hword

private theorem lexes_inBraces {body : List Stmt} {lines : String}
    (hlines : ∀ {rest more}, Lexes rest more →
      Lexes (lines.toList ++ rest) (Stmt.tokensAll body ++ more))
    (depth : Nat) {rest : List Char} {more : List Token} (h : Lexes rest more) :
    Lexes ((Stmt.inBraces depth body lines).toList ++ rest)
      (.symbol .leftBrace :: (Stmt.tokensAll body ++ .symbol .rightBrace :: more)) := by
  have hclose := lexes_bracket '\x7d' .rightBrace (by decide) h
  rw [Stmt.inBraces]
  split
  · rename_i hbody
    rw [List.isEmpty_iff.1 hbody]
    exact lexes_bracket '\x7b' .leftBrace (by decide) hclose
  · have hinner := hlines (lexes_indent depth hclose)
    have hline := lexes_space (c := '\n') (by decide) hinner
    have hopen := lexes_bracket '\x7b' .leftBrace (by decide) hline
    simpa using hopen

private theorem lexes_placeBody (body : Stmt) {text : Nat → String} {tokens : List Token}
    (htext : ∀ depth {rest more}, Lexes rest more →
      Lexes ((text depth).toList ++ rest) (tokens ++ more))
    (depth : Nat) {rest : List Char} {more : List Token} (h : Lexes rest more) :
    Lexes ((Stmt.placeBody depth body text).toList ++ rest) (tokens ++ more) := by
  rw [Stmt.placeBody]
  split
  · have hspace := lexes_space (c := ' ') (by decide) (htext depth h)
    simpa using hspace
  · have hline := lexes_space (c := '\n') (by decide)
      (lexes_indent (depth + 1) (htext (depth + 1) h))
    simpa using hline

private theorem lexes_placeAlternate (alternate : Stmt) {text : Nat → String}
    {tokens : List Token} (htext : ∀ depth {rest more}, Lexes rest more →
      Lexes ((text depth).toList ++ rest) (tokens ++ more))
    (depth : Nat) {rest : List Char} {more : List Token} (h : Lexes rest more) :
    Begins (Lexer.isWordPart · = false)
        ((Stmt.placeAlternate depth alternate text).toList ++ rest) ∧
      Lexes ((Stmt.placeAlternate depth alternate text).toList ++ rest) (tokens ++ more) := by
  rw [Stmt.placeAlternate]
  split
  · have hspace := lexes_space (c := ' ') (by decide) (htext depth h)
    refine ⟨?_, by simpa using hspace⟩
    rw [String.toList_append]
    exact begins_cons.2 (by decide)
  · refine ⟨?_, lexes_placeBody _ htext depth h⟩
    rw [Stmt.placeBody]
    split
    · rw [String.toList_append]
      exact begins_cons.2 (by decide)
    · rw [String.toList_append, String.toList_append]
      exact begins_cons.2 (by decide)

private theorem lexes_renderElse (consequent : Stmt) (depth : Nat) {rest : List Char}
    {tokens : List Token} (hrest : Begins (Lexer.isWordPart · = false) rest)
    (h : Lexes rest tokens) :
    Lexes ((Stmt.renderElse depth consequent).toList ++ rest)
      (.keyword .elseWord :: tokens) := by
  have helse := lexes_keyword .elseWord hrest h
  rw [Stmt.renderElse]
  split
  · exact lexes_space (c := ' ') (by decide) helse
  · have hline := lexes_space (c := '\n') (by decide) (lexes_indent depth helse)
    simpa [Keyword.spelling] using hline

section

variable {okNumber : Float → Prop}

mutual

/-- A printed statement is read as its tokens, whatever follows it. -/
theorem Stmt.lexes_renderAt : (s : Stmt) → s.Leaves IsName okNumber → ∀ depth
    {rest : List Char} {more : List Token}, Lexes rest more →
    Lexes ((s.renderAt depth).toList ++ rest) (s.tokens ++ more)
  | .function _ name params _ body, hleaves, depth, rest, more, h => by
    have hbody := lexes_inBraces (Stmt.lexes_renderLines body hleaves.2.2 (depth + 1)) depth h
    have hclose := lexes_bracket ')' .rightParen (by decide)
      (lexes_space (c := ' ') (by decide) hbody)
    have hnames : Spells (String.intercalate ", " (params.map id)) _ :=
      spells_commas fun param hparam => spells_name (hleaves.2.1 param hparam)
    have hparams := hnames (begins_cons.2 (by decide)) hclose
    have hopen := lexes_bracket '(' .leftParen (by decide) hparams
    have hname := lexes_name hleaves.1 (begins_cons.2 (by decide)) hopen
    have hword := lexes_keyword .functionWord (begins_cons.2 (by decide))
      (lexes_space (c := ' ') (by decide) hname)
    simpa [Stmt.renderAt, Stmt.tokens, Keyword.spelling] using hword
  | .block _ body, hleaves, depth, rest, more, h => by
    have hbody := lexes_inBraces (Stmt.lexes_renderLines body hleaves (depth + 1)) depth h
    simpa [Stmt.renderAt, Stmt.tokens] using hbody
  | .expression _ expr, hleaves, depth, rest, more, h => by
    have hclose := lexes_bracket ';' .semicolon (by decide) h
    have hexpr := Expr.spells_render hleaves (begins_cons.2 (by decide)) hclose
    simpa [Stmt.renderAt, Stmt.tokens] using hexpr
  | .declare _ kind declarators, hleaves, depth, rest, more, h => by
    have hclose := lexes_bracket ';' .semicolon (by decide) h
    have hdeclarators := spells_commas (fun d hd => spells_declarator (hleaves d hd))
      (begins_cons.2 (by decide)) hclose
    have hword := lexes_keyword kind.keyword (begins_cons.2 (by decide))
      (lexes_space (c := ' ') (by decide) hdeclarators)
    simpa [Stmt.renderAt, Stmt.tokens, kind.spelling_keyword] using hword
  | .ifThen _ test consequent, hleaves, depth, rest, more, h => by
    have hbody := lexes_placeBody consequent (Stmt.lexes_renderAt consequent hleaves.2) depth h
    have htest := lexes_test hleaves.1 .ifWord hbody
    simpa [Stmt.renderAt, Stmt.tokens, Keyword.spelling] using htest
  | .ifElse _ test consequent alternate, hleaves, depth, rest, more, h => by
    obtain ⟨hstart, halternate⟩ := lexes_placeAlternate alternate
      (Stmt.lexes_renderAt alternate hleaves.2.2) depth h
    have helse := lexes_renderElse consequent depth hstart halternate
    have hbody := lexes_placeBody consequent
      (Stmt.lexes_renderAt consequent hleaves.2.1) depth helse
    have htest := lexes_test hleaves.1 .ifWord hbody
    simpa [Stmt.renderAt, Stmt.tokens, Keyword.spelling] using htest
  | .loop _ test body, hleaves, depth, rest, more, h => by
    have hbody := lexes_placeBody body (Stmt.lexes_renderAt body hleaves.2) depth h
    have htest := lexes_test hleaves.1 .whileWord hbody
    simpa [Stmt.renderAt, Stmt.tokens, Keyword.spelling] using htest
  | .exit _ (some result), hleaves, depth, rest, more, h => by
    have hclose := lexes_bracket ';' .semicolon (by decide) h
    have hresult := Expr.spells_render (hleaves result rfl) (begins_cons.2 (by decide)) hclose
    have hword := lexes_keyword .returnWord (begins_cons.2 (by decide))
      (lexes_space (c := ' ') (by decide) hresult)
    simpa [Stmt.renderAt, Stmt.tokens, Keyword.spelling] using hword
  | .exit _ none, hleaves, depth, rest, more, h => by
    have hclose := lexes_bracket ';' .semicolon (by decide) h
    have hword := lexes_keyword .returnWord (begins_cons.2 (by decide)) hclose
    simpa [Stmt.renderAt, Stmt.tokens, Keyword.spelling] using hword

/-- Printed lines of statements are read as the tokens of the statements. -/
theorem Stmt.lexes_renderLines : (body : List Stmt) → Stmt.LeavesAll IsName okNumber body →
    ∀ depth {rest : List Char} {more : List Token}, Lexes rest more →
    Lexes ((Stmt.renderLines body depth).toList ++ rest) (Stmt.tokensAll body ++ more)
  | [], _, depth, rest, more, h => by
    simpa [Stmt.renderLines, Stmt.tokensAll] using h
  | s :: body, hleaves, depth, rest, more, h => by
    have hbody := Stmt.lexes_renderLines body hleaves.2 depth h
    have hs := Stmt.lexes_renderAt s hleaves.1 depth (lexes_space (c := '\n') (by decide) hbody)
    have hline := lexes_indent depth hs
    simpa [Stmt.renderLines, Stmt.tokensAll] using hline

end

end

/-! ## Programs -/

private theorem lexes_statements {okNumber : Float → Prop} {body : List Stmt}
    (hleaves : Stmt.LeavesAll IsName okNumber body) :
    Lexes (String.intercalate "\n" (body.map Stmt.render)).toList (Stmt.tokensAll body) := by
  induction body with
  | nil => exact lexes_nil
  | cons s body ih =>
    cases body with
    | nil =>
      have hs := Stmt.lexes_renderAt s hleaves.1 0 lexes_nil
      simpa [Stmt.render, Stmt.tokensAll] using hs
    | cons next body =>
      have hs := Stmt.lexes_renderAt s hleaves.1 0
        (lexes_space (c := '\n') (by decide) (ih hleaves.2))
      simpa [Stmt.render, Stmt.tokensAll] using hs

/-- A printed program is read as its tokens. -/
theorem Program.tokenize_render {p : Program} {okNumber : Float → Prop}
    (hleaves : Stmt.LeavesAll IsName okNumber p.body) :
    ∃ placed, tokenize p.render = .ok placed ∧ placed.map PlacedToken.token = p.tokens :=
  lexes_statements hleaves 1

end TraceGraph
