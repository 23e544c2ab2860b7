import TraceGraph.Proofs.Expr.RoundTrip
import TraceGraph.Stmt.Parser

/-!
# Every expression is printed faithfully

Folding makes expressions that no source text is read as: negative numbers, NaN and
infinities as literals, and operations nested in any way.  Their text still shows
what they are.  It is read back whole, as the expression in which each number is
spelled out.

* `Expr.tokenize_render`: the text of an expression is read as its tokens.
* `Expr.parse_tokenize_render`: these tokens are read back as one expression.
-/

namespace TraceGraph.Expr

/-- The text of an expression on its own is read as its tokens. -/
theorem tokenize_render {e : Expr} {okNumber : Float → Prop} (hleaves : e.Leaves IsName okNumber) :
    ∃ placed, tokenize e.render = .ok placed ∧ placed.map PlacedToken.token = e.tokens := by
  have hlexes : Lexes (e.render.toList ++ []) (e.tokens ++ []) :=
    spells_render hleaves (fun c hc => by cases hc) lexes_nil
  rw [List.append_nil, List.append_nil] at hlexes
  exact hlexes 1

/-- Nothing follows at the end of the input. -/
theorem follows_nil (n : Nat) : Follows n [] where
  ops _ _ hnext := by cases hnext
  not_call hnext := by cases hnext
  not_step _ hnext := by cases hnext
  not_assign _ hnext := by cases hnext

/-- An expression whose names are names of the language, with any literals, is printed
as a text that the parser takes as a whole.  What it reads is the expression with each
number spelled out: a sign in front of a number is the operator, and a double without
digits is its name. -/
theorem parse_tokenize_render {e : Expr} (hnames : e.Leaves IsName fun _ => True) :
    ∃ placed read, tokenize e.render = .ok placed ∧
      reading (parse (lastLine placed) placed) = .ok (read, []) ∧
      read.eraseLines = e.spelledOut.eraseLines := by
  obtain ⟨placed, htokens, hplaced⟩ := tokenize_render hnames
  obtain ⟨read, hreads, heq⟩ := reads_tokens hplaced
  have hparse := parse_of_reads (lastLine placed) (hreads.mono (Nat.zero_le _)) (follows_nil 0)
  rw [List.append_nil] at hparse
  exact ⟨placed, read, htokens, hparse, heq⟩

/-- Signs before signed numbers, negative operands on both sides, and numbers that
have no digits. -/
private def mixesSigns : Expr :=
  .binary 1 .sub (.unary 2 .neg (.literal 2 (.number (-0.0))))
    (.binary 3 .sub (.literal 3 (.number (-1.5)))
      (.assign 4 .addAssign "x" (.binary 5 .mul (.literal 5 (.number (-Number.infinity)))
        (.binary 6 .add (.literal 6 (.number Number.nan)) (.literal 6 (.text "it's\n"))))))

theorem parse_tokenize_render_mixesSigns :
    mixesSigns.Leaves IsName (fun _ => True) ∧
      mixesSigns.render = "- -0 - (-1.5 - (x += -Infinity * (NaN + 'it\\'s\\n')))" ∧
      ∃ placed read,
        tokenize "- -0 - (-1.5 - (x += -Infinity * (NaN + 'it\\'s\\n')))" = .ok placed ∧
        reading (parse (lastLine placed) placed) = .ok (read, []) ∧
        read.eraseLines = mixesSigns.spelledOut.eraseLines := by
  have hnames : mixesSigns.Leaves IsName fun _ => True :=
    ⟨trivial, trivial, ⟨isWord_of_check (by decide), by decide⟩, trivial, trivial, trivial⟩
  have hrender : mixesSigns.render
      = "- -0 - (-1.5 - (x += -Infinity * (NaN + 'it\\'s\\n')))" := by decide +kernel
  have hread := parse_tokenize_render hnames
  rw [hrender] at hread
  exact ⟨hnames, hrender, hread⟩

end TraceGraph.Expr
