import TraceGraph.Proofs.Stmt.RoundTrip
import TraceGraph.Proofs.Token.Munch
import TraceGraph.Stmt.Lines

/-!
# Lines from the text to the tree

The line of a token counts the line feeds before its first character, so lines do not
go back along the tokens.  A tree takes its lines from its tokens, from left to right,
and so they do not go back in the tree either.

* `Lexer.Piece.sorted_place`: the lines of the tokens of a text.
* `Along`: lines are taken from tokens from left to right.
* `Expr.preorder` and `Stmt.preorder`: the lines in a tree, a node before its parts.
* `Expr.Reads.along` and `Stmt.Reads.along`: a tree takes its lines from its tokens.
* `Stmt.ReadsAll.within`: every statement at any depth has its own tokens.
* `source_lines`: all this for any text.
-/

namespace TraceGraph

/-- The lines of the tokens do not go back. -/
def SortedTokens (tokens : List PlacedToken) : Prop :=
  (tokens.map PlacedToken.line).Pairwise (· ≤ ·)

theorem SortedTokens.part {tokens front : List PlacedToken} (h : SortedTokens tokens)
    (hfront : front <:+: tokens) : SortedTokens front :=
  h.sublist (hfront.sublist.map _)

namespace Lexer.Piece

private theorem le_line_place {before : List Char} {pieces : List Piece} {t : PlacedToken}
    (ht : t ∈ place before pieces) : 1 + before.count '\n' ≤ t.line := by
  induction pieces generalizing before with
  | nil => cases ht
  | cons piece pieces ih =>
    have hlater : ∀ text, t ∈ place (before ++ text) pieces →
        1 + before.count '\n' ≤ t.line := by
      intro text ht
      have hle := ih ht
      rw [List.count_append] at hle
      omega
    cases piece with
    | trivia text => exact hlater text ht
    | lexeme text token =>
      rcases List.mem_cons.1 ht with rfl | ht
      · exact Nat.le_refl _
      · exact hlater text ht

theorem sorted_place (before : List Char) (pieces : List Piece) :
    SortedTokens (place before pieces) := by
  induction pieces generalizing before with
  | nil => exact .nil
  | cons piece pieces ih =>
    cases piece with
    | trivia text => exact ih _
    | lexeme text token =>
      refine List.pairwise_cons.2 ⟨fun line hline => ?_, ih _⟩
      obtain ⟨t, ht, rfl⟩ := List.mem_map.1 hline
      have hle := le_line_place ht
      rw [List.count_append] at hle
      show 1 + before.count '\n' ≤ t.line
      omega

end Lexer.Piece

/-! ## Lines along tokens -/

/-- The lines are taken from the tokens from left to right, from some tokens more than
once and from others not at all. -/
inductive Along : List PlacedToken → List Nat → Prop
  | nil : Along [] []
  | skip {tokens : List PlacedToken} {lines : List Nat} (t : PlacedToken)
      (h : Along tokens lines) : Along (t :: tokens) lines
  | here {t : PlacedToken} {tokens : List PlacedToken} {lines : List Nat}
      (h : Along (t :: tokens) lines) : Along (t :: tokens) (t.line :: lines)

namespace Along

variable {tokens others : List PlacedToken} {lines more : List Nat}

theorem none (tokens : List PlacedToken) : Along tokens [] := by
  induction tokens with
  | nil => exact .nil
  | cons t tokens ih => exact .skip t ih

theorem cons (t : PlacedToken) (h : Along tokens lines) : Along (t :: tokens) (t.line :: lines) :=
  .here (.skip t h)

theorem append (h : Along tokens lines) (hmore : Along others more) :
    Along (tokens ++ others) (lines ++ more) := by
  induction h with
  | nil => exact hmore
  | skip t _ ih => exact .skip t ih
  | here _ ih => exact .here ih

theorem extend (h : Along tokens lines) (others : List PlacedToken) :
    Along (tokens ++ others) lines := by
  simpa using h.append (.none others)

/-- The first line may be taken once more. -/
theorem twice {line : Nat} (h : Along tokens (line :: lines)) :
    Along tokens (line :: line :: lines) := by
  generalize hall : line :: lines = all at h
  induction h with
  | nil => cases hall
  | skip t _ ih => exact .skip t (ih hall)
  | here h =>
    cases hall
    exact .here (.here h)

theorem mem_lines (h : Along tokens lines) {line : Nat} (hline : line ∈ lines) :
    line ∈ tokens.map PlacedToken.line := by
  induction h with
  | nil => cases hline
  | skip t _ ih => exact List.mem_cons_of_mem _ (ih hline)
  | here _ ih =>
    rcases List.mem_cons.1 hline with rfl | hline
    · exact List.mem_cons_self
    · exact ih hline

/-- Lines that are taken from left to right do not go back if those of the tokens do
not. -/
theorem pairwise (h : Along tokens lines) (hsorted : SortedTokens tokens) :
    lines.Pairwise (· ≤ ·) := by
  induction h with
  | nil => exact .nil
  | skip t _ ih => exact ih (List.pairwise_cons.1 hsorted).2
  | here h ih =>
    refine List.pairwise_cons.2 ⟨fun line hline => ?_, ih hsorted⟩
    rcases List.mem_cons.1 (h.mem_lines hline) with rfl | hlater
    · exact Nat.le_refl _
    · exact (List.pairwise_cons.1 hsorted).1 line hlater

end Along

/-! ## Lines of a tree -/

/-- The lines of the expression and of its parts, a node before its operands. -/
def Expr.preorder : Expr → List Nat
  | .literal line _ => [line]
  | .identifier line _ => [line]
  | .unary line _ operand => line :: operand.preorder
  | .binary line _ left right => line :: (left.preorder ++ right.preorder)
  | .assign line _ _ value => line :: value.preorder
  | .update line _ _ _ => [line]

/-- The lines of the declarator and of its initial value. -/
def Declarator.preorder (d : Declarator) : List Nat :=
  d.line :: (d.init.map Expr.preorder).getD []

namespace Stmt

mutual

/-- The lines of the statement and of everything in it, in source order and a node
before its parts.  The body of a function counts with the line of its brace. -/
def preorder : Stmt → List Nat
  | .function line _ _ bodyLine body => line :: bodyLine :: preorderAll body
  | .block line body => line :: preorderAll body
  | .expression line expr => line :: expr.preorder
  | .declare line _ declarators => line :: declarators.flatMap Declarator.preorder
  | .ifThen line test consequent => line :: (test.preorder ++ consequent.preorder)
  | .ifElse line test consequent alternate =>
    line :: (test.preorder ++ (consequent.preorder ++ alternate.preorder))
  | .loop line test body => line :: (test.preorder ++ body.preorder)
  | .exit line result => line :: (result.map Expr.preorder).getD []

/-- The lines of statements and of everything in them. -/
def preorderAll : List Stmt → List Nat
  | [] => []
  | s :: rest => s.preorder ++ preorderAll rest

end

mutual

/-- The statement and every statement in it, blocks included. -/
def within : Stmt → List Stmt
  | .function line name params bodyLine body =>
    .function line name params bodyLine body :: withinAll body
  | .block line body => .block line body :: withinAll body
  | .expression line expr => [.expression line expr]
  | .declare line kind declarators => [.declare line kind declarators]
  | .ifThen line test consequent => .ifThen line test consequent :: consequent.within
  | .ifElse line test consequent alternate =>
    .ifElse line test consequent alternate :: (consequent.within ++ alternate.within)
  | .loop line test body => .loop line test body :: body.within
  | .exit line result => [.exit line result]

/-- The statements of a list and every statement in them. -/
def withinAll : List Stmt → List Stmt
  | [] => []
  | s :: rest => s.within ++ withinAll rest

end

mutual

theorem lines_sublist_preorder : (s : Stmt) → List.Sublist s.lines s.preorder
  | .function _ _ _ bodyLine body =>
    .cons_cons _ (.cons bodyLine (linesOf_sublist_preorderAll body))
  | .block line body => .cons line (linesOf_sublist_preorderAll body)
  | .expression .. | .declare .. | .exit .. => .cons_cons _ (List.nil_sublist _)
  | .ifThen _ _ consequent =>
    .cons_cons _ (consequent.lines_sublist_preorder.trans (List.sublist_append_right _ _))
  | .ifElse _ _ consequent alternate =>
    .cons_cons _ ((consequent.lines_sublist_preorder.append
      alternate.lines_sublist_preorder).trans (List.sublist_append_right _ _))
  | .loop _ _ body =>
    .cons_cons _ (body.lines_sublist_preorder.trans (List.sublist_append_right _ _))

theorem linesOf_sublist_preorderAll :
    (body : List Stmt) → List.Sublist (linesOf body) (preorderAll body)
  | [] => .slnil
  | s :: rest => s.lines_sublist_preorder.append (linesOf_sublist_preorderAll rest)

end

end Stmt

/-! ## A tree takes its lines from its tokens -/

private theorem Expr.exists_preorder (e : Expr) : ∃ rest, e.preorder = e.line :: rest := by
  cases e <;> exact ⟨_, rfl⟩

theorem Expr.Reads.along {n : Nat} {tokens : List PlacedToken} {e : Expr}
    (h : Expr.Reads n tokens e) : Along tokens e.preorder := by
  induction h with
  | literal => exact .cons _ .nil
  | identifier => exact .cons _ .nil
  | parens _ _ ih => exact .skip _ (ih.extend _)
  | stepAfter _ _ _ ih => exact ih.extend _
  | stepBefore => exact .cons _ (.none _)
  | unary _ _ _ ih => exact .cons _ ih
  | @binary _ line _ _ mark _ left _ _ _ _ _ ihl ihr =>
    -- an operation starts where its left operand does
    obtain ⟨rest, hleft⟩ := left.exists_preorder
    have hoperands := ihl.append (.skip ⟨.symbol mark, line⟩ ihr)
    rw [hleft, List.cons_append] at hoperands
    rw [Expr.preorder, hleft, List.cons_append]
    exact hoperands.twice
  | assign _ _ ih => exact .cons _ (.skip _ ih)

private theorem Declarator.Reads.along {tokens : List PlacedToken} {d : Declarator}
    (h : Declarator.Reads tokens d) : Along tokens d.preorder := by
  cases h with
  | bare => exact .cons _ .nil
  | init hvalue => exact .cons _ (.skip _ hvalue.along)

private theorem ReadsCommas.along {tokens : List PlacedToken} {declarators : List Declarator}
    (h : ReadsCommas Declarator.Reads tokens declarators) :
    Along tokens (declarators.flatMap Declarator.preorder) := by
  induction h with
  | last hvalue => simpa using hvalue.along
  | next hvalue _ ih => exact hvalue.along.append (.skip _ ih)

private theorem ReadsTest.along {tokens : List PlacedToken} {test : Expr}
    (h : ReadsTest tokens test) : Along tokens test.preorder := by
  cases h with
  | intro htest => exact .skip _ (htest.along.extend _)

namespace Stmt

mutual

theorem Reads.along {strict : Bool} : {tokens : List PlacedToken} → {s : Stmt} →
    Reads strict tokens s → Along tokens s.preorder
  | _, _, .function _ hbody =>
    .cons _ (.skip _ (.skip _ ((Along.none _).append (.skip _ (.cons _ (hbody.along.extend _))))))
  | _, _, .block hbody => .cons _ (hbody.along.extend _)
  | _, _, .expression hexpr _ => .here (hexpr.along.extend _)
  | _, _, .declare hdeclarators _ => .cons _ (hdeclarators.along.extend _)
  | _, _, .ifThen htest hconsequent => .cons _ (htest.along.append hconsequent.along)
  | _, _, .ifElse htest hconsequent _ halternate =>
    .cons _ (htest.along.append (hconsequent.along.append (.skip _ halternate.along)))
  | _, _, .loop htest hbody => .cons _ (htest.along.append hbody.along)
  | _, _, .exit _ => .cons _ (.none _)
  | _, _, .exitWith hresult _ => .cons _ (hresult.along.extend _)

theorem ReadsAll.along {strict : Bool} : {tokens : List PlacedToken} → {body : List Stmt} →
    ReadsAll strict tokens body → Along tokens (preorderAll body)
  | _, _, .nil => .nil
  | _, _, .semicolon hbody => .skip _ hbody.along
  | _, _, .cons hs hbody => hs.along.append hbody.along

end

/-! ## Every statement has its own tokens -/

/-- A statement starts with its first token. -/
theorem Reads.head_line {strict : Bool} {tokens : List PlacedToken} {s : Stmt}
    (h : Reads strict tokens s) : tokens.head?.map PlacedToken.line = some s.line := by
  cases h <;> rfl

/-- Some of the tokens are the statement, without a gap. -/
def ReadsIn (strict : Bool) (tokens : List PlacedToken) (s : Stmt) : Prop :=
  ∃ front, front <:+: tokens ∧ Reads strict front s

theorem ReadsIn.mono {strict : Bool} {tokens others : List PlacedToken} {s : Stmt}
    (h : ReadsIn strict tokens s) (htokens : tokens <:+: others) : ReadsIn strict others s := by
  obtain ⟨front, hfront, hs⟩ := h
  exact ⟨front, hfront.trans htokens, hs⟩

theorem Reads.readsIn {strict : Bool} {tokens : List PlacedToken} {s : Stmt}
    (h : Reads strict tokens s) : ReadsIn strict tokens s :=
  ⟨tokens, List.infix_rfl, h⟩

mutual

theorem Reads.within {strict : Bool} : {tokens : List PlacedToken} → {s : Stmt} →
    Reads strict tokens s → ∀ t ∈ s.within, ReadsIn strict tokens t
  | _, _, @Reads.function _ line nameLine start stop bodyLine last name tokens others _ _ hparams
      hbody, t, ht => by
    rcases List.mem_cons.1 ht with rfl | ht
    · exact (Reads.function hparams hbody).readsIn
    · refine (hbody.within t ht).mono ⟨⟨.keyword .functionWord, line⟩ ::
        ⟨.identifier name, nameLine⟩ :: ⟨.symbol .leftParen, start⟩ :: (tokens ++
          [⟨.symbol .rightParen, stop⟩, ⟨.symbol .leftBrace, bodyLine⟩]),
        [⟨.symbol .rightBrace, last⟩], ?_⟩
      simp
  | _, _, .block hbody, t, ht => by
    rcases List.mem_cons.1 ht with rfl | ht
    · exact (Reads.block hbody).readsIn
    · exact (hbody.within t ht).mono (List.infix_append' [_] _ _)
  | _, _, .expression hexpr hstop, t, ht => by
    rw [List.mem_singleton.1 ht]
    exact (Reads.expression hexpr hstop).readsIn
  | _, _, .declare hdeclarators hstop, t, ht => by
    rw [List.mem_singleton.1 ht]
    exact (Reads.declare hdeclarators hstop).readsIn
  | _, _, .ifThen htest hconsequent, t, ht => by
    rcases List.mem_cons.1 ht with rfl | ht
    · exact (Reads.ifThen htest hconsequent).readsIn
    · exact (hconsequent.within t ht).mono (List.suffix_append (_ :: _) _).isInfix
  | _, _, .ifElse htest hconsequent hdangling halternate, t, ht => by
    rcases List.mem_cons.1 ht with rfl | ht
    · exact (Reads.ifElse htest hconsequent hdangling halternate).readsIn
    rcases List.mem_append.1 ht with ht | ht
    · exact (hconsequent.within t ht).mono (List.infix_append' (_ :: _) _ _)
    · refine (halternate.within t ht).mono (List.IsInfix.trans ?_
        (List.suffix_append (_ :: _) _).isInfix)
      exact (List.suffix_append_of_suffix (List.suffix_cons _ _)).isInfix
  | _, _, .loop htest hbody, t, ht => by
    rcases List.mem_cons.1 ht with rfl | ht
    · exact (Reads.loop htest hbody).readsIn
    · exact (hbody.within t ht).mono (List.suffix_append (_ :: _) _).isInfix
  | _, _, .exit hstop, t, ht => by
    rw [List.mem_singleton.1 ht]
    exact (Reads.exit hstop).readsIn
  | _, _, .exitWith hresult hstop, t, ht => by
    rw [List.mem_singleton.1 ht]
    exact (Reads.exitWith hresult hstop).readsIn

theorem ReadsAll.within {strict : Bool} : {tokens : List PlacedToken} → {body : List Stmt} →
    ReadsAll strict tokens body → ∀ t ∈ withinAll body, ReadsIn strict tokens t
  | _, _, .nil, t, ht => by cases ht
  | _, _, .semicolon hbody, t, ht => (hbody.within t ht).mono (List.suffix_cons _ _).isInfix
  | _, _, .cons hs hbody, t, ht => by
    rcases List.mem_append.1 ht with ht | ht
    · exact (hs.within t ht).mono (List.prefix_append _ _).isInfix
    · exact (hbody.within t ht).mono (List.suffix_append _ _).isInfix

end

end Stmt

/-! ## Lines of a source text -/

open Lexer

/-- Lines are physical lines.  The line of a token and that of a fault count the line
feeds before them in the text.  A statement, at any depth, has the line of the first of
its tokens, and from a node to the next one in source order lines do not go back. -/
theorem source_lines (source : String) :
    (∀ placed, tokenize source = .ok placed →
        ∃ pieces, Munches source.toList pieces [] ∧ source.toList = pieces.flatMap Piece.text ∧
          placed = Piece.place [] pieces) ∧
      (∀ fault, tokenize source = .error fault →
        ∃ before rest cause, source.toList = before ++ rest ∧ Stuck rest ∧
          (∃ pieces, Munches source.toList pieces rest) ∧
          fault = .malformed (1 + before.count '\n') cause) ∧
      ∀ p, Program.parse source = .ok p →
        ∃ placed, tokenize source = .ok placed ∧ Stmt.ReadsAll false placed p.body ∧
          (∀ s ∈ Stmt.withinAll p.body, ∃ front, front <:+: placed ∧ Stmt.Reads false front s ∧
            front.head?.map PlacedToken.line = some s.line) ∧
          (Stmt.preorderAll p.body).Pairwise (· ≤ ·) ∧
          ∀ s ∈ Stmt.withinAll p.body, s.lines.Pairwise (· ≤ ·) := by
  refine ⟨fun placed hplaced => ?_, fun fault hfault => ?_, fun p hp => ?_⟩
  · obtain ⟨pieces, hpieces, rfl⟩ := tokenize_eq_ok_iff.1 hplaced
    exact ⟨pieces, hpieces, by simpa using hpieces.text_eq, rfl⟩
  · obtain ⟨pieces, rest, hpieces, hstuck, rfl⟩ := tokenize_eq_error_iff.1 hfault
    exact ⟨_, rest, _, hpieces.text_eq, hstuck, ⟨pieces, hpieces⟩, rfl⟩
  · obtain ⟨placed, hplaced, hreads⟩ := Program.parse_eq_ok hp
    have hsorted : SortedTokens placed := by
      obtain ⟨pieces, -, rfl⟩ := tokenize_eq_ok_iff.1 hplaced
      exact Piece.sorted_place [] pieces
    refine ⟨placed, hplaced, hreads, fun s hs => ?_, hreads.along.pairwise hsorted, fun s hs => ?_⟩
    · obtain ⟨front, hfront, hread⟩ := hreads.within s hs
      exact ⟨front, hfront, hread, hread.head_line⟩
    · obtain ⟨front, hfront, hread⟩ := hreads.within s hs
      exact (hread.along.pairwise (hsorted.part hfront)).sublist s.lines_sublist_preorder

/-- A test over two lines with a comment between them, and a branch below. -/
private def testOverLines : String :=
  "if (a // sum\n  + b)\n\n  c = a"

private theorem tokenize_testOverLines :
    tokenize testOverLines = .ok [⟨.keyword .ifWord, 1⟩, ⟨.symbol .leftParen, 1⟩,
      ⟨.identifier "a", 1⟩, ⟨.symbol .plus, 2⟩, ⟨.identifier "b", 2⟩, ⟨.symbol .rightParen, 2⟩,
      ⟨.identifier "c", 4⟩, ⟨.symbol .assign, 4⟩, ⟨.identifier "a", 4⟩] :=
  tokenize_eq_ok (by decide +kernel)

theorem source_lines_test :
    Program.parse testOverLines = .ok ⟨[.ifThen 1
        (.binary 1 .add (.identifier 1 "a") (.identifier 2 "b"))
        (.expression 4 (.assign 4 .assign "c" (.identifier 4 "a")))]⟩ ∧
      [1, 1, 1, 2, 4, 4, 4].Pairwise (· ≤ ·) ∧
      ∃ placed, tokenize testOverLines = .ok placed ∧
        ∃ front, front <:+: placed ∧ front.head?.map PlacedToken.line = some 4 := by
  have hparse : Program.parse testOverLines = .ok ⟨[.ifThen 1
      (.binary 1 .add (.identifier 1 "a") (.identifier 2 "b"))
      (.expression 4 (.assign 4 .assign "c" (.identifier 4 "a")))]⟩ := by
    rw [Program.parse, tokenize_testOverLines]
    cbv
  obtain ⟨-, -, hlines⟩ := source_lines testOverLines
  obtain ⟨placed, hplaced, -, hfirst, hpreorder, -⟩ := hlines _ hparse
  obtain ⟨front, hfront, -, hline⟩ := hfirst
    (.expression 4 (.assign 4 .assign "c" (.identifier 4 "a"))) (.tail _ (.head _))
  exact ⟨hparse, hpreorder, placed, hplaced, front, hfront, hline⟩

end TraceGraph
