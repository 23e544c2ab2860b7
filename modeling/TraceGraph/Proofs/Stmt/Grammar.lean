import TraceGraph.Proofs.Expr.Grammar
import TraceGraph.Proofs.Stmt.Printed
import TraceGraph.Proofs.Stmt.Reading

/-!
# The grammar of statements and programs

`Stmt.Reads strict tokens s` says that the tokens, with their lines, are a
statement with the tree `s`.  In the strict grammar a semicolon ends every
declaration, return and expression, otherwise it may be left out.  An `else`
belongs to the nearest conditional that can take it, so the first branch of a
conditional with an alternative must not end in a conditional without one.

* `Stmt.readsAll_of_parseAll`: if the parser accepts a list of tokens, the tokens
  are the statements that it returns.
* `Stmt.parseAll_of_readsAll`: the parser accepts all statements of the strict
  grammar.
-/

namespace TraceGraph

/-! ## Derivations -/

/-- The tokens are items with commas between them, at least one. -/
inductive ReadsCommas {α : Type} (item : List PlacedToken → α → Prop) :
    List PlacedToken → List α → Prop
  | last {tokens : List PlacedToken} {value : α} (hvalue : item tokens value) :
      ReadsCommas item tokens [value]
  | next {line : Nat} {tokens others : List PlacedToken} {value : α} {values : List α}
      (hvalue : item tokens value) (hvalues : ReadsCommas item others values) :
      ReadsCommas item (tokens ++ ⟨.symbol .comma, line⟩ :: others) (value :: values)

/-- The tokens are a name. -/
inductive ReadsName : List PlacedToken → String → Prop
  | intro {line : Nat} {name : String} : ReadsName [⟨.identifier name, line⟩] name

/-- The tokens are the parameters of a function. -/
inductive ReadsParams : List PlacedToken → List String → Prop
  | none : ReadsParams [] []
  | some {tokens : List PlacedToken} {names : List String}
      (hnames : ReadsCommas ReadsName tokens names) : ReadsParams tokens names

/-- The tokens are a name with its initial value, if there is one. -/
inductive Declarator.Reads : List PlacedToken → Declarator → Prop
  | bare {line : Nat} {name : String} :
      Declarator.Reads [⟨.identifier name, line⟩] ⟨name, none, line⟩
  | init {line stop : Nat} {name : String} {tokens : List PlacedToken} {value : Expr}
      (hvalue : Expr.Reads 0 tokens value) :
      Declarator.Reads (⟨.identifier name, line⟩ :: ⟨.symbol .assign, stop⟩ :: tokens)
        ⟨name, some value, line⟩

/-- The tokens end a statement: a semicolon, or nothing unless the grammar is
strict. -/
inductive Closes (strict : Bool) : List PlacedToken → Prop
  | semicolon {line : Nat} : Closes strict [⟨.symbol .semicolon, line⟩]
  | nothing (hstrict : strict = false) : Closes strict []

/-- The tokens are a condition in parentheses. -/
inductive ReadsTest : List PlacedToken → Expr → Prop
  | intro {start stop : Nat} {tokens : List PlacedToken} {test : Expr}
      (htest : Expr.Reads 0 tokens test) :
      ReadsTest (⟨.symbol .leftParen, start⟩ :: (tokens ++ [⟨.symbol .rightParen, stop⟩])) test

namespace Stmt

/-- Whether a following `else` would belong to a conditional at the end of the
statement. -/
def dangling : Stmt → Bool
  | .ifThen .. => true
  | .ifElse _ _ _ alternate => alternate.dangling
  | .loop _ _ body => body.dangling
  | _ => false

mutual

/-- The tokens are a statement with the given tree. -/
inductive Reads (strict : Bool) : List PlacedToken → Stmt → Prop
  | function {line nameLine start stop bodyLine last : Nat} {name : String}
      {tokens others : List PlacedToken} {params : List String} {body : List Stmt}
      (hparams : ReadsParams tokens params) (hbody : ReadsAll strict others body) :
      Reads strict (⟨.keyword .functionWord, line⟩ :: ⟨.identifier name, nameLine⟩ ::
        ⟨.symbol .leftParen, start⟩ :: (tokens ++ ⟨.symbol .rightParen, stop⟩ ::
        ⟨.symbol .leftBrace, bodyLine⟩ :: (others ++ [⟨.symbol .rightBrace, last⟩])))
        (.function line name params bodyLine body)
  | block {line last : Nat} {tokens : List PlacedToken} {body : List Stmt}
      (hbody : ReadsAll strict tokens body) :
      Reads strict (⟨.symbol .leftBrace, line⟩ :: (tokens ++ [⟨.symbol .rightBrace, last⟩]))
        (.block line body)
  | expression {token : Token} {line : Nat} {tokens stop : List PlacedToken} {expr : Expr}
      (hexpr : Expr.Reads 0 (⟨token, line⟩ :: tokens) expr) (hstop : Closes strict stop) :
      Reads strict (⟨token, line⟩ :: (tokens ++ stop)) (.expression line expr)
  | declare {line : Nat} {kind : DeclKind} {tokens stop : List PlacedToken}
      {declarators : List Declarator}
      (hdeclarators : ReadsCommas Declarator.Reads tokens declarators)
      (hstop : Closes strict stop) :
      Reads strict (⟨.keyword kind.keyword, line⟩ :: (tokens ++ stop))
        (.declare line kind declarators)
  | ifThen {line : Nat} {tokens others : List PlacedToken} {test : Expr} {consequent : Stmt}
      (htest : ReadsTest tokens test) (hconsequent : Reads strict others consequent) :
      Reads strict (⟨.keyword .ifWord, line⟩ :: (tokens ++ others)) (.ifThen line test consequent)
  | ifElse {line elseLine : Nat} {tokens others rest : List PlacedToken} {test : Expr}
      {consequent alternate : Stmt}
      (htest : ReadsTest tokens test) (hconsequent : Reads strict others consequent)
      (hdangling : consequent.dangling = false) (halternate : Reads strict rest alternate) :
      Reads strict (⟨.keyword .ifWord, line⟩ :: (tokens ++ (others
        ++ ⟨.keyword .elseWord, elseLine⟩ :: rest))) (.ifElse line test consequent alternate)
  | loop {line : Nat} {tokens others : List PlacedToken} {test : Expr} {body : Stmt}
      (htest : ReadsTest tokens test) (hbody : Reads strict others body) :
      Reads strict (⟨.keyword .whileWord, line⟩ :: (tokens ++ others)) (.loop line test body)
  | exit {line : Nat} {stop : List PlacedToken} (hstop : Closes strict stop) :
      Reads strict (⟨.keyword .returnWord, line⟩ :: stop) (.exit line none)
  | exitWith {line : Nat} {tokens stop : List PlacedToken} {result : Expr}
      (hresult : Expr.Reads 0 tokens result) (hstop : Closes strict stop) :
      Reads strict (⟨.keyword .returnWord, line⟩ :: (tokens ++ stop)) (.exit line (some result))

/-- The tokens are statements, with any number of extra semicolons between
them. -/
inductive ReadsAll (strict : Bool) : List PlacedToken → List Stmt → Prop
  | nil : ReadsAll strict [] []
  | semicolon {line : Nat} {tokens : List PlacedToken} {body : List Stmt}
      (hbody : ReadsAll strict tokens body) :
      ReadsAll strict (⟨.symbol .semicolon, line⟩ :: tokens) body
  | cons {tokens others : List PlacedToken} {s : Stmt} {body : List Stmt}
      (hs : Reads strict tokens s) (hbody : ReadsAll strict others body) :
      ReadsAll strict (tokens ++ others) (s :: body)

end

/-! ## What the parser takes is a statement -/

private theorem reads_parseNames (endLine : Nat) (tokens : List PlacedToken) {names : List String}
    {rest : List PlacedToken} (h : reading (parseNames endLine tokens) = .ok (names, rest)) :
    ∃ front, tokens = front ++ rest ∧ ReadsCommas ReadsName front names := by
  rw [reading_parseNames] at h
  obtain ⟨⟨name, others⟩, hname, hnext⟩ := bind_eq_ok_iff.1 h
  obtain ⟨line, rfl⟩ := reading_expectIdentifier.1 hname
  split at hnext
  · rename_i comma others hothers
    obtain rfl := hothers
    obtain ⟨⟨names, rest⟩, hnames, heq⟩ := map_eq_ok_iff.1 hnext
    cases heq
    obtain ⟨front, rfl, hreads⟩ := reads_parseNames endLine others hnames
    exact ⟨⟨.identifier name, line⟩ :: ⟨.symbol .comma, comma⟩ :: front, rfl, .next .intro hreads⟩
  · cases hnext
    exact ⟨[⟨.identifier name, line⟩], rfl, .last .intro⟩
termination_by tokens.length

private theorem reads_parseParams {endLine : Nat} {tokens rest : List PlacedToken}
    {params : List String} (h : reading (parseParams endLine tokens) = .ok (params, rest)) :
    ∃ front line, tokens = front ++ ⟨.symbol .rightParen, line⟩ :: rest ∧
      ReadsParams front params := by
  rw [reading_parseParams] at h
  split at h
  · rename_i line others
    cases h
    exact ⟨[], line, rfl, .none⟩
  · obtain ⟨⟨names, others⟩, hnames, h⟩ := bind_eq_ok_iff.1 h
    obtain ⟨⟨_, rest⟩, hclose, heq⟩ := map_eq_ok_iff.1 h
    cases heq
    obtain ⟨front, rfl, hreads⟩ := reads_parseNames endLine tokens hnames
    obtain ⟨line, rfl⟩ := reading_expectSymbol.1 hclose
    exact ⟨front, line, rfl, .some hreads⟩

private theorem reads_parseDeclarator {endLine : Nat} {tokens rest : List PlacedToken}
    {d : Declarator} (h : reading (parseDeclarator endLine tokens) = .ok (d, rest)) :
    ∃ front, tokens = front ++ rest ∧ Declarator.Reads front d := by
  rw [reading_parseDeclarator] at h
  obtain ⟨⟨name, others⟩, hname, hnext⟩ := bind_eq_ok_iff.1 h
  obtain ⟨line, rfl⟩ := reading_expectIdentifier.1 hname
  split at hnext
  · rename_i stop others hothers
    obtain rfl := hothers
    obtain ⟨⟨value, rest⟩, hvalue, heq⟩ := map_eq_ok_iff.1 hnext
    cases heq
    obtain ⟨front, rfl, hreads⟩ := Expr.reads_of_parse endLine others hvalue
    exact ⟨⟨.identifier name, line⟩ :: ⟨.symbol .assign, stop⟩ :: front, rfl, .init hreads⟩
  · cases hnext
    exact ⟨[⟨.identifier name, line⟩], rfl, .bare⟩

private theorem reads_parseDeclarators (endLine : Nat) (tokens : List PlacedToken)
    {declarators : List Declarator} {rest : List PlacedToken}
    (h : reading (parseDeclarators endLine tokens) = .ok (declarators, rest)) :
    ∃ front, tokens = front ++ rest ∧ ReadsCommas Declarator.Reads front declarators := by
  rw [reading_parseDeclarators] at h
  obtain ⟨⟨first, others⟩, hfirst, hnext⟩ := bind_eq_ok_iff.1 h
  have hshort := reading_length_lt hfirst
  obtain ⟨front, rfl, hreads⟩ := reads_parseDeclarator hfirst
  split at hnext
  · rename_i comma others hothers
    obtain rfl := hothers
    obtain ⟨⟨declarators, rest⟩, hdeclarators, heq⟩ := map_eq_ok_iff.1 hnext
    cases heq
    obtain ⟨more, rfl, hmore⟩ := reads_parseDeclarators endLine others hdeclarators
    exact ⟨front ++ ⟨.symbol .comma, comma⟩ :: more, by simp, .next hreads hmore⟩
  · cases hnext
    exact ⟨front, rfl, .last hreads⟩
termination_by tokens.length

private theorem reads_parseTest {endLine : Nat} {tokens rest : List PlacedToken} {test : Expr}
    (h : reading (parseTest endLine tokens) = .ok (test, rest)) :
    ∃ front, tokens = front ++ rest ∧ ReadsTest front test := by
  rw [reading_parseTest] at h
  obtain ⟨⟨_, others⟩, hopen, h⟩ := bind_eq_ok_iff.1 h
  obtain ⟨⟨test, inside⟩, htest, h⟩ := bind_eq_ok_iff.1 h
  obtain ⟨⟨_, rest⟩, hclose, heq⟩ := map_eq_ok_iff.1 h
  cases heq
  obtain ⟨start, rfl⟩ := reading_expectSymbol.1 hopen
  obtain ⟨front, rfl, hreads⟩ := Expr.reads_of_parse endLine others htest
  obtain ⟨stop, rfl⟩ := reading_expectSymbol.1 hclose
  exact ⟨⟨.symbol .leftParen, start⟩ :: (front ++ [⟨.symbol .rightParen, stop⟩]), by simp,
    .intro hreads⟩

private theorem closes_skipSemicolon (tokens : List PlacedToken) :
    ∃ stop, tokens = stop ++ skipSemicolon tokens ∧ Closes false stop := by
  unfold skipSemicolon
  split
  · exact ⟨[_], rfl, .semicolon⟩
  · exact ⟨[], rfl, .nothing rfl⟩

private theorem reads_parseDeclaration {endLine line : Nat} {kind : DeclKind}
    {tokens rest : List PlacedToken} {s : Stmt}
    (h : reading (parseDeclaration endLine line kind tokens) = .ok (s, rest)) :
    ∃ front, tokens = front ++ rest ∧
      Reads false (⟨.keyword kind.keyword, line⟩ :: front) s ∧ s.dangling = false := by
  rw [reading_parseDeclaration] at h
  obtain ⟨⟨declarators, others⟩, hdeclarators, heq⟩ := map_eq_ok_iff.1 h
  cases heq
  obtain ⟨front, rfl, hreads⟩ := reads_parseDeclarators endLine tokens hdeclarators
  obtain ⟨stop, hothers, hstop⟩ := closes_skipSemicolon others
  refine ⟨front ++ stop, ?_, .declare hreads hstop, rfl⟩
  rw [List.append_assoc, ← hothers]

private theorem reads_expression {endLine : Nat} {tokens others : List PlacedToken} {expr : Expr}
    (h : reading (Expr.parse endLine tokens) = .ok (expr, others)) :
    ∃ front, tokens = front ++ skipSemicolon others ∧
      Reads false front (.expression (lineAt endLine tokens) expr) := by
  obtain ⟨front, rfl, hreads⟩ := Expr.reads_of_parse endLine tokens h
  obtain ⟨stop, hothers, hstop⟩ := closes_skipSemicolon others
  obtain ⟨token, line, front, rfl, -⟩ := hreads.opens
  refine ⟨⟨token, line⟩ :: (front ++ stop), ?_, .expression hreads hstop⟩
  rw [List.cons_append, List.cons_append, List.append_assoc, ← hothers]

private theorem reads_parseResult {endLine : Nat} (line : Nat) {tokens others : List PlacedToken}
    {result : Option Expr} (h : reading (parseResult endLine tokens) = .ok (result, others)) :
    ∃ front, tokens = front ++ skipSemicolon others ∧
      Reads false (⟨.keyword .returnWord, line⟩ :: front) (.exit line result) := by
  rw [reading_parseResult] at h
  split at h
  · cases h
    obtain ⟨stop, hothers, hstop⟩ := closes_skipSemicolon tokens
    exact ⟨stop, hothers, .exit hstop⟩
  · obtain ⟨⟨value, rest⟩, hvalue, heq⟩ := map_eq_ok_iff.1 h
    cases heq
    obtain ⟨front, rfl, hreads⟩ := Expr.reads_of_parse endLine tokens hvalue
    obtain ⟨stop, hothers, hstop⟩ := closes_skipSemicolon rest
    refine ⟨front ++ stop, ?_, .exitWith hreads hstop⟩
    rw [List.append_assoc, ← hothers]

mutual

/-- What the parser takes off the front is a statement with the tree that it
returns.  It leaves no `else` that the statement could take. -/
theorem reads_of_parse (endLine : Nat) (tokens : List PlacedToken) {s : Stmt}
    {rest : List PlacedToken} (h : reading (parse endLine tokens) = .ok (s, rest)) :
    ∃ front, tokens = front ++ rest ∧ Reads false front s ∧
      (s.dangling = true → nextToken? rest ≠ some (.keyword .elseWord)) := by
  have hdeclaration : ∀ {line : Nat} {kind : DeclKind} {others : List PlacedToken},
      reading (parseDeclaration endLine line kind others) = .ok (s, rest) →
      ∃ front, ⟨.keyword kind.keyword, line⟩ :: others = front ++ rest ∧ Reads false front s ∧
        (s.dangling = true → nextToken? rest ≠ some (.keyword .elseWord)) := by
    intro line kind others h
    obtain ⟨front, rfl, hreads, hdangling⟩ := reads_parseDeclaration h
    exact ⟨_ :: front, rfl, hreads, fun h => absurd h (by simp [hdangling])⟩
  rw [reading_parse] at h
  split at h
  · rename_i line others
    obtain ⟨⟨name, others₁⟩, hname, h₁⟩ := bind_eq_ok_iff.1 h
    obtain ⟨⟨_, others₂⟩, hopen, h₂⟩ := bind_eq_ok_iff.1 h₁
    obtain ⟨⟨params, others₃⟩, hparams, h₃⟩ := bind_eq_ok_iff.1 h₂
    obtain ⟨⟨_, others₄⟩, hbrace, h₄⟩ := bind_eq_ok_iff.1 h₃
    obtain ⟨⟨body, rest⟩, hbody, heq⟩ := map_eq_ok_iff.1 h₄
    cases heq
    have hshort : others₄.length < others.length + 1 := by
      have h₁ : others₁.length < others.length := reading_length_lt hname
      have h₂ : others₂.length < others₁.length := reading_length_lt hopen
      have h₃ : others₃.length < others₂.length := reading_length_lt hparams
      have h₄ : others₄.length < others₃.length := reading_length_lt hbrace
      omega
    obtain ⟨nameLine, rfl⟩ := reading_expectIdentifier.1 hname
    obtain ⟨start, rfl⟩ := reading_expectSymbol.1 hopen
    obtain ⟨front, stop, rfl, hfront⟩ := reads_parseParams hparams
    obtain ⟨bodyLine, rfl⟩ := reading_expectSymbol.1 hbrace
    obtain ⟨inside, last, rfl, hinside⟩ := reads_parseBlock endLine others₄ hbody
    exact ⟨⟨.keyword .functionWord, line⟩ :: ⟨.identifier name, nameLine⟩ ::
      ⟨.symbol .leftParen, start⟩ :: (front ++ ⟨.symbol .rightParen, stop⟩ ::
        ⟨.symbol .leftBrace, bodyLine⟩ :: (inside ++ [⟨.symbol .rightBrace, last⟩])), by simp,
      .function hfront hinside, fun h => by cases h⟩
  · rename_i line others
    obtain ⟨⟨body, rest⟩, hbody, heq⟩ := map_eq_ok_iff.1 h
    cases heq
    obtain ⟨inside, last, rfl, hinside⟩ := reads_parseBlock endLine others hbody
    exact ⟨⟨.symbol .leftBrace, line⟩ :: (inside ++ [⟨.symbol .rightBrace, last⟩]), by simp,
      .block hinside, fun h => by cases h⟩
  · exact hdeclaration h
  · exact hdeclaration h
  · exact hdeclaration h
  · rename_i line others
    obtain ⟨⟨test, others₁⟩, htest, h₁⟩ := bind_eq_ok_iff.1 h
    obtain ⟨⟨consequent, others₂⟩, hconsequent, h₂⟩ := bind_eq_ok_iff.1 h₁
    have hshort₁ := reading_length_lt htest
    have hshort₂ := reading_length_lt hconsequent
    obtain ⟨front, rfl, hfront⟩ := reads_parseTest htest
    obtain ⟨branch, rfl, hbranch, hnext⟩ := reads_of_parse endLine others₁ hconsequent
    split at h₂
    · rename_i elseLine others₃ hothers
      obtain rfl := hothers
      obtain ⟨⟨alternate, rest⟩, halternate, heq⟩ := map_eq_ok_iff.1 h₂
      cases heq
      obtain ⟨other, rfl, hother, hend⟩ := reads_of_parse endLine others₃ halternate
      have hdangling : consequent.dangling = false :=
        Bool.eq_false_iff.2 fun hdangling => hnext hdangling rfl
      exact ⟨_ :: (front ++ (branch ++ ⟨.keyword .elseWord, elseLine⟩ :: other)), by simp,
        .ifElse hfront hbranch hdangling hother, hend⟩
    · rename_i hother
      cases h₂
      refine ⟨_ :: (front ++ branch), by simp, .ifThen hfront hbranch, fun _ helse => ?_⟩
      cases others₂ with
      | nil => cases helse
      | cons next rest =>
        obtain ⟨token, elseLine⟩ := next
        cases helse
        exact hother elseLine rest rfl
  · rename_i line others
    obtain ⟨⟨test, others₁⟩, htest, h₁⟩ := bind_eq_ok_iff.1 h
    obtain ⟨⟨body, rest⟩, hbody, heq⟩ := map_eq_ok_iff.1 h₁
    cases heq
    have hshort := reading_length_lt htest
    obtain ⟨front, rfl, hfront⟩ := reads_parseTest htest
    obtain ⟨inside, rfl, hinside, hnext⟩ := reads_of_parse endLine others₁ hbody
    exact ⟨_ :: (front ++ inside), by simp, .loop hfront hinside, hnext⟩
  · rename_i line others
    obtain ⟨⟨result, others₁⟩, hresult, heq⟩ := map_eq_ok_iff.1 h
    cases heq
    obtain ⟨front, heq, hfront⟩ := reads_parseResult line hresult
    exact ⟨_ :: front, by rw [heq, List.cons_append], hfront, fun h => by cases h⟩
  · cases h
  · obtain ⟨⟨expr, others⟩, hexpr, heq⟩ := map_eq_ok_iff.1 h
    cases heq
    obtain ⟨front, heq, hfront⟩ := reads_expression hexpr
    exact ⟨front, heq, hfront, fun h => by cases h⟩
termination_by (tokens.length, 0)

private theorem reads_parseBlock (endLine : Nat) (tokens : List PlacedToken) {body : List Stmt}
    {rest : List PlacedToken} (h : reading (parseBlock endLine tokens) = .ok (body, rest)) :
    ∃ front line, tokens = front ++ ⟨.symbol .rightBrace, line⟩ :: rest ∧
      ReadsAll false front body := by
  have hcons : (reading (parse endLine tokens)).bind (fun first =>
      (reading (parseBlock endLine first.2)).map fun others => (first.1 :: others.1, others.2))
        = .ok (body, rest) →
      ∃ front line, tokens = front ++ ⟨.symbol .rightBrace, line⟩ :: rest ∧
        ReadsAll false front body := by
    intro h
    obtain ⟨⟨first, others⟩, hfirst, h₁⟩ := bind_eq_ok_iff.1 h
    obtain ⟨⟨body, rest⟩, hbody, heq⟩ := map_eq_ok_iff.1 h₁
    cases heq
    have hshort := reading_length_lt hfirst
    obtain ⟨front, heq, hfront, -⟩ := reads_of_parse endLine tokens hfirst
    obtain ⟨inside, line, rfl, hinside⟩ := reads_parseBlock endLine others hbody
    exact ⟨front ++ inside, line, by simpa using heq, .cons hfront hinside⟩
  rw [reading_parseBlock] at h
  split at h
  · cases h
  · rename_i line others
    cases h
    exact ⟨[], line, rfl, .nil⟩
  · rename_i line others
    obtain ⟨front, last, rfl, hfront⟩ := reads_parseBlock endLine others h
    exact ⟨⟨.symbol .semicolon, line⟩ :: front, last, rfl, .semicolon hfront⟩
  · exact hcons h
termination_by (tokens.length, 1)

end

/-- If the parser accepts a list of tokens, the tokens are the statements that it
returns. -/
theorem readsAll_of_parseAll (endLine : Nat) (tokens : List PlacedToken) {body : List Stmt}
    (h : parseAll endLine tokens = .ok body) : ReadsAll false tokens body := by
  have hcons : (reading (parse endLine tokens)).bind (fun first =>
      (parseAll endLine first.2).map fun others => first.1 :: others) = .ok body →
      ReadsAll false tokens body := by
    intro h
    obtain ⟨⟨first, others⟩, hfirst, h₁⟩ := bind_eq_ok_iff.1 h
    obtain ⟨body, hbody, rfl⟩ := map_eq_ok_iff.1 h₁
    have hshort := reading_length_lt hfirst
    obtain ⟨front, rfl, hfront, -⟩ := reads_of_parse endLine tokens hfirst
    exact .cons hfront (readsAll_of_parseAll endLine others hbody)
  rw [parseAll_eq] at h
  split at h
  · cases h
    exact .nil
  · rename_i others
    exact .semicolon (readsAll_of_parseAll endLine others h)
  · exact hcons h
termination_by tokens.length

/-! ## The parser takes every statement of the strict grammar -/

private theorem parseNames_of_reads (endLine : Nat) {tokens : List PlacedToken}
    {names : List String} (h : ReadsCommas ReadsName tokens names) (line : Nat)
    (rest : List PlacedToken) :
    reading (parseNames endLine (tokens ++ ⟨.symbol .rightParen, line⟩ :: rest))
      = .ok (names, ⟨.symbol .rightParen, line⟩ :: rest) := by
  induction h with
  | last hvalue =>
    obtain ⟨⟩ := hvalue
    rw [reading_parseNames]
    rfl
  | @next comma _ others _ _ hvalue _ ih =>
    obtain ⟨⟩ := hvalue
    rw [reading_parseNames]
    show (reading (parseNames endLine (others ++ ⟨.symbol .rightParen, line⟩ :: rest))).map _ = _
    rw [ih]
    rfl

private theorem parseParams_of_reads (endLine : Nat) {tokens : List PlacedToken}
    {params : List String} (h : ReadsParams tokens params) (line : Nat)
    (rest : List PlacedToken) :
    reading (parseParams endLine (tokens ++ ⟨.symbol .rightParen, line⟩ :: rest))
      = .ok (params, rest) := by
  cases h with
  | none => rfl
  | some hnames =>
    have hparse := parseNames_of_reads endLine hnames line rest
    rw [reading_parseParams]
    split
    · rename_i heq
      cases hnames with
      | last hvalue =>
        obtain ⟨⟩ := hvalue
        cases heq
      | next hvalue =>
        obtain ⟨⟩ := hvalue
        cases heq
    · rw [hparse]
      rfl

private theorem parseDeclarator_of_reads (endLine : Nat) {tokens : List PlacedToken}
    {d : Declarator} (h : Declarator.Reads tokens d) {mark : Symbol}
    (hmark : mark ∈ [.comma, .semicolon]) (line : Nat) (rest : List PlacedToken) :
    reading (parseDeclarator endLine (tokens ++ ⟨.symbol mark, line⟩ :: rest))
      = .ok (d, ⟨.symbol mark, line⟩ :: rest) := by
  rw [reading_parseDeclarator]
  cases h with
  | bare =>
    simp only [List.mem_cons, List.not_mem_nil, or_false] at hmark
    rcases hmark with rfl | rfl <;> rfl
  | @init _ stop name tokens value hvalue =>
    have hparse := Expr.parse_of_reads endLine hvalue
      (Expr.follows_closing (List.mem_cons_of_mem _ hmark) line rest)
    show (reading (Expr.parse endLine (tokens ++ ⟨.symbol mark, line⟩ :: rest))).map _ = _
    rw [hparse]
    rfl

private theorem parseDeclarators_of_reads (endLine : Nat) {tokens : List PlacedToken}
    {declarators : List Declarator} (h : ReadsCommas Declarator.Reads tokens declarators)
    (line : Nat) (rest : List PlacedToken) :
    reading (parseDeclarators endLine (tokens ++ ⟨.symbol .semicolon, line⟩ :: rest))
      = .ok (declarators, ⟨.symbol .semicolon, line⟩ :: rest) := by
  induction h with
  | last hvalue =>
    rw [reading_parseDeclarators, parseDeclarator_of_reads endLine hvalue (by decide)]
    rfl
  | @next comma tokens others _ _ hvalue _ ih =>
    rw [List.append_assoc, List.cons_append, reading_parseDeclarators,
      parseDeclarator_of_reads endLine hvalue (by decide)]
    show (reading (parseDeclarators endLine
      (others ++ ⟨.symbol .semicolon, line⟩ :: rest))).map _ = _
    rw [ih]
    rfl

private theorem parseTest_of_reads (endLine : Nat) {tokens : List PlacedToken} {test : Expr}
    (h : ReadsTest tokens test) (rest : List PlacedToken) :
    reading (parseTest endLine (tokens ++ rest)) = .ok (test, rest) := by
  obtain @⟨start, stop, tokens, _, htest⟩ := h
  have hclose : Expr.Follows 0 (⟨.symbol .rightParen, stop⟩ :: rest) :=
    Expr.follows_closing (by decide) stop rest
  have hparse := Expr.parse_of_reads endLine htest hclose
  rw [List.cons_append, List.append_assoc, List.singleton_append, reading_parseTest]
  show (reading (Expr.parse endLine (tokens ++ ⟨.symbol .rightParen, stop⟩ :: rest))).bind _ = _
  rw [hparse]
  rfl

/-- A statement that begins like an expression is one. -/
private theorem reading_parse_expression (endLine : Nat) {token : Token} {line : Nat}
    {others : List PlacedToken} (htoken : Expr.opensWith token = true) :
    reading (parse endLine (⟨token, line⟩ :: others)) =
      (reading (Expr.parse endLine (⟨token, line⟩ :: others))).map fun expr =>
        (.expression line expr.1, skipSemicolon expr.2) := by
  rw [reading_parse]
  cases token with
  | keyword word => cases word <;> first | rfl | cases htoken
  | symbol mark => cases mark <;> first | rfl | cases htoken
  | reserved word => cases htoken
  | _ => rfl

/-- No statement begins with a closing brace, a semicolon or an `else`. -/
private theorem Reads.opens {strict : Bool} {tokens : List PlacedToken} {s : Stmt}
    (h : Reads strict tokens s) :
    ∃ token line others, tokens = ⟨token, line⟩ :: others ∧
      token ∉ [.symbol .rightBrace, .symbol .semicolon, .keyword .elseWord] := by
  cases h with
  | expression hexpr =>
    obtain ⟨token, line, others, heq, htoken⟩ := hexpr.opens
    cases heq
    refine ⟨_, _, _, rfl, fun hmem => ?_⟩
    simp only [List.mem_cons, List.not_mem_nil, or_false] at hmem
    rcases hmem with rfl | rfl | rfl <;> cases htoken
  | @declare _ kind => exact ⟨_, _, _, rfl, by cases kind <;> decide⟩
  | _ => exact ⟨_, _, _, rfl, by decide⟩

private theorem ReadsAll.not_else {strict : Bool} {tokens : List PlacedToken}
    {body : List Stmt} (h : ReadsAll strict tokens body) (rest : List PlacedToken)
    (hrest : nextToken? rest ≠ some (.keyword .elseWord)) :
    nextToken? (tokens ++ rest) ≠ some (.keyword .elseWord) := by
  cases h with
  | nil => exact hrest
  | semicolon => rintro ⟨⟩
  | cons hs =>
    obtain ⟨token, line, others, rfl, htoken⟩ := hs.opens
    rintro ⟨⟩
    exact absurd htoken (by decide)

private theorem parse_of_closed (endLine : Nat) {tokens stop : List PlacedToken} {expr : Expr}
    (hexpr : Expr.Reads 0 tokens expr) (hstop : Closes true stop) (rest : List PlacedToken) :
    ∃ line, reading (Expr.parse endLine (tokens ++ (stop ++ rest)))
      = .ok (expr, ⟨.symbol .semicolon, line⟩ :: rest) := by
  cases hstop with
  | @semicolon line =>
    exact ⟨line, Expr.parse_of_reads endLine hexpr (Expr.follows_closing (by decide) line rest)⟩
  | nothing hstrict => cases hstrict

mutual

/-- The parser takes a statement of the strict grammar off the front, if no `else`
follows that the statement could take. -/
theorem parse_of_reads (endLine : Nat) : ∀ {tokens : List PlacedToken} {s : Stmt},
    Reads true tokens s → ∀ rest : List PlacedToken,
    (s.dangling = true → nextToken? rest ≠ some (.keyword .elseWord)) →
    reading (parse endLine (tokens ++ rest)) = .ok (s, rest)
  | _, _, @Reads.function _ line nameLine start stop bodyLine last name tokens others params body
      hparams hbody, rest, _ => by
    have hblock := parseBlock_of_readsAll endLine hbody last rest
    have hnames := parseParams_of_reads endLine hparams stop
      (⟨.symbol .leftBrace, bodyLine⟩ :: (others ++ ⟨.symbol .rightBrace, last⟩ :: rest))
    rw [List.cons_append, List.cons_append, List.cons_append, List.append_assoc, List.cons_append,
      List.cons_append, List.append_assoc, List.singleton_append, reading_parse]
    show (reading (parseParams endLine (tokens ++ _))).bind _ = _
    rw [hnames]
    show (reading (parseBlock endLine (others ++ _))).map _ = _
    rw [hblock]
    rfl
  | _, _, @Reads.block _ line last tokens body hbody, rest, _ => by
    have hblock := parseBlock_of_readsAll endLine hbody last rest
    rw [List.cons_append, List.append_assoc, List.singleton_append, reading_parse]
    dsimp only
    rw [hblock]
    rfl
  | _, _, @Reads.expression _ token line tokens stop expr hexpr hstop, rest, _ => by
    obtain ⟨stopLine, hparse⟩ := parse_of_closed endLine hexpr hstop rest
    obtain ⟨_, _, _, heq, htoken⟩ := hexpr.opens
    cases heq
    rw [List.cons_append, List.append_assoc, reading_parse_expression endLine htoken]
    rw [List.cons_append] at hparse
    rw [hparse]
    rfl
  | _, _, @Reads.declare _ line kind tokens stop declarators hdeclarators hstop, rest, _ => by
    obtain ⟨stopLine, hparse⟩ :
        ∃ line, reading (parseDeclarators endLine (tokens ++ (stop ++ rest)))
          = .ok (declarators, ⟨.symbol .semicolon, line⟩ :: rest) := by
      cases hstop with
      | @semicolon stopLine =>
        exact ⟨stopLine, parseDeclarators_of_reads endLine hdeclarators stopLine rest⟩
      | nothing hstrict => cases hstrict
    have hdeclaration : reading (parseDeclaration endLine line kind (tokens ++ (stop ++ rest)))
        = .ok (.declare line kind declarators, rest) := by
      rw [reading_parseDeclaration, hparse]
      rfl
    rw [List.cons_append, List.append_assoc, reading_parse]
    cases kind <;> exact hdeclaration
  | _, _, @Reads.ifThen _ line tokens others test consequent htest hconsequent, rest, helse => by
    have hbranch := parse_of_reads endLine hconsequent rest fun _ => helse rfl
    rw [List.cons_append, List.append_assoc, reading_parse]
    dsimp only
    rw [parseTest_of_reads endLine htest]
    show (reading (parse endLine (others ++ rest))).bind _ = _
    rw [hbranch]
    show (match rest with | ⟨.keyword .elseWord, _⟩ :: others => _ | _ => _) = _
    split
    · exact absurd rfl (helse rfl)
    · rfl
  | _, _, @Reads.ifElse _ line elseLine tokens others more test consequent alternate htest
      hconsequent hdangling halternate, rest, helse => by
    have hbranch := parse_of_reads endLine hconsequent
      (⟨.keyword .elseWord, elseLine⟩ :: (more ++ rest)) fun h => absurd h (by simp [hdangling])
    have hother := parse_of_reads endLine halternate rest helse
    rw [List.cons_append, List.append_assoc, List.append_assoc, List.cons_append, reading_parse]
    dsimp only
    rw [parseTest_of_reads endLine htest]
    show (reading (parse endLine (others ++ _))).bind _ = _
    rw [hbranch]
    show (reading (parse endLine (more ++ rest))).map _ = _
    rw [hother]
    rfl
  | _, _, @Reads.loop _ line tokens others test body htest hbody, rest, helse => by
    have hinside := parse_of_reads endLine hbody rest helse
    rw [List.cons_append, List.append_assoc, reading_parse]
    dsimp only
    rw [parseTest_of_reads endLine htest]
    show (reading (parse endLine (others ++ rest))).map _ = _
    rw [hinside]
    rfl
  | _, _, @Reads.exit _ line stop hstop, rest, _ => by
    cases hstop with
    | semicolon =>
      rw [reading_parse]
      rfl
    | nothing hstrict => cases hstrict
  | _, _, @Reads.exitWith _ line tokens stop result hresult hstop, rest, _ => by
    obtain ⟨stopLine, hparse⟩ := parse_of_closed endLine hresult hstop rest
    obtain ⟨token, first, others, rfl, htoken⟩ := hresult.opens
    rw [List.cons_append, List.append_assoc, reading_parse]
    dsimp only
    rw [reading_parseResult, if_neg, hparse]
    · rfl
    · rintro (⟨⟨⟩⟩ | ⟨⟨⟩⟩) <;> cases htoken

/-- The parser takes the statements of a block up to the closing brace. -/
private theorem parseBlock_of_readsAll (endLine : Nat) : ∀ {tokens : List PlacedToken}
    {body : List Stmt}, ReadsAll true tokens body → ∀ (line : Nat) (rest : List PlacedToken),
    reading (parseBlock endLine (tokens ++ ⟨.symbol .rightBrace, line⟩ :: rest)) = .ok (body, rest)
  | _, _, .nil, line, rest => by
    rw [List.nil_append, reading_parseBlock]
  | _, _, .semicolon hbody, line, rest => by
    rw [List.cons_append, reading_parseBlock]
    exact parseBlock_of_readsAll endLine hbody line rest
  | _, _, @ReadsAll.cons _ tokens others s body hs hbody, line, rest => by
    have hinside := parseBlock_of_readsAll endLine hbody line rest
    have hfirst := parse_of_reads endLine hs (others ++ ⟨.symbol .rightBrace, line⟩ :: rest)
      fun _ => hbody.not_else _ (by rintro ⟨⟩)
    obtain ⟨token, first, more, rfl, htoken⟩ := hs.opens
    rw [List.append_assoc, List.cons_append, reading_parseBlock]
    rw [List.cons_append] at hfirst
    split
    · rename_i heq
      cases heq
    · rename_i heq
      cases heq
      exact absurd htoken (by decide)
    · rename_i heq
      cases heq
      exact absurd htoken (by decide)
    · rw [hfirst]
      show (reading (parseBlock endLine (others ++ _))).map _ = _
      rw [hinside]
      rfl

end

/-- The parser accepts all statements of the strict grammar. -/
theorem parseAll_of_readsAll (endLine : Nat) {tokens : List PlacedToken} {body : List Stmt}
    (h : ReadsAll true tokens body) : parseAll endLine tokens = .ok body := by
  -- every statement takes at least one token
  induction hlength : tokens.length using Nat.strong_induction_on generalizing tokens body with
  | h n ih =>
    subst hlength
    cases h with
    | nil => rw [parseAll_eq]
    | semicolon hbody =>
      rw [parseAll_eq]
      exact ih _ (Nat.lt_succ_self _) hbody rfl
    | @cons tokens others s body hs hbody =>
      have hnext := hbody.not_else [] (by rintro ⟨⟩)
      rw [List.append_nil] at hnext
      have hfirst := parse_of_reads endLine hs others fun _ => hnext
      obtain ⟨token, line, more, rfl, htoken⟩ := hs.opens
      have hothers : parseAll endLine others = .ok body := by
        refine ih _ ?_ hbody rfl
        simp only [List.length_append, List.length_cons]
        omega
      rw [List.cons_append] at hfirst ⊢
      rw [parseAll_eq]
      split
      · rename_i heq
        cases heq
      · rename_i heq
        cases heq
        exact absurd htoken (by decide)
      · rw [hfirst]
        show (parseAll endLine others).map _ = _
        rw [hothers]
        rfl

end Stmt

end TraceGraph
