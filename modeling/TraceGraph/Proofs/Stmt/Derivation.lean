import TraceGraph.Proofs.Stmt.RoundTrip

/-!
# The parser recognises the grammar

Derivations carry the lines of their tokens, and a tree has the lines that its
tokens stand on.  The grammar itself does not look at lines: moved to other lines,
tokens derive the same tree up to lines.  So the grammar can be read as one of
tokens alone, which is `Program.Derives`.

* `Expr.Reads.moved` and `Stmt.ReadsAll.moved`: derivations on other lines.
* `Program.ofTokens_derives`: what the parser accepts is derived as the program that
  it returns, and it accepts every program of the strict grammar.
-/

namespace TraceGraph

/-! ## Tokens on other lines -/

/-- The same tokens, on whatever lines. -/
def SameTokens (placed tokens : List PlacedToken) : Prop :=
  placed.map PlacedToken.token = tokens.map PlacedToken.token

namespace SameTokens

variable {placed tokens others : List PlacedToken} {token : Token} {line : Nat}

theorem eq_nil (h : SameTokens placed []) : placed = [] :=
  List.map_eq_nil_iff.1 h

theorem eq_cons (h : SameTokens placed (⟨token, line⟩ :: tokens)) :
    ∃ line' rest, placed = ⟨token, line'⟩ :: rest ∧ SameTokens rest tokens := by
  obtain ⟨⟨_, line'⟩, rest, rfl, rfl, hrest⟩ := List.map_eq_cons_iff.1 h
  exact ⟨line', rest, rfl, hrest⟩

theorem eq_singleton (h : SameTokens placed [⟨token, line⟩]) :
    ∃ line', placed = [⟨token, line'⟩] := by
  obtain ⟨line', rest, rfl, hrest⟩ := h.eq_cons
  rw [hrest.eq_nil]
  exact ⟨line', rfl⟩

theorem eq_append (h : SameTokens placed (tokens ++ others)) :
    ∃ front back, placed = front ++ back ∧ SameTokens front tokens ∧ SameTokens back others := by
  rw [SameTokens, List.map_append] at h
  obtain ⟨front, back, rfl, hfront, hback⟩ := List.map_eq_append_iff.1 h
  exact ⟨front, back, rfl, hfront, hback⟩

end SameTokens

/-! ## Expressions -/

namespace Expr

theorem eq_identifier_of_eraseLines {e : Expr} {line : Nat} {name : String}
    (h : e.eraseLines = (Expr.identifier line name).eraseLines) :
    ∃ line', e = .identifier line' name := by
  cases e with
  | identifier line' other =>
    cases h
    exact ⟨line', rfl⟩
  | _ => cases h

/-- Tokens of an expression that are moved to other lines are the same expression,
up to lines. -/
theorem Reads.moved {n : Nat} {tokens placed : List PlacedToken} {e : Expr}
    (h : Reads n tokens e) (hplaced : SameTokens placed tokens) : ReadsAs n placed e := by
  induction h generalizing placed with
  | literal hn hvalue =>
    obtain ⟨line, rfl⟩ := hplaced.eq_singleton
    exact ⟨_, .literal hn hvalue, rfl⟩
  | identifier hn =>
    obtain ⟨line, rfl⟩ := hplaced.eq_singleton
    exact ⟨_, .identifier hn, rfl⟩
  | parens hn _ ih =>
    obtain ⟨start, rest, rfl, hrest⟩ := hplaced.eq_cons
    obtain ⟨inner, close, rfl, hinner, hclose⟩ := hrest.eq_append
    obtain ⟨stop, rfl⟩ := hclose.eq_singleton
    obtain ⟨e', hreads, heq⟩ := ih hinner
    exact ⟨e', .parens hn hreads, heq⟩
  | stepAfter hn _ hop ih =>
    obtain ⟨front, back, rfl, hfront, hback⟩ := hplaced.eq_append
    obtain ⟨stop, rfl⟩ := hback.eq_singleton
    obtain ⟨e', hreads, heq⟩ := ih hfront
    obtain ⟨line, rfl⟩ := eq_identifier_of_eraseLines heq
    exact ⟨_, .stepAfter hn hreads hop, rfl⟩
  | stepBefore hn hop =>
    obtain ⟨line, rest, rfl, hrest⟩ := hplaced.eq_cons
    obtain ⟨stop, rfl⟩ := hrest.eq_singleton
    exact ⟨_, .stepBefore hn hop, rfl⟩
  | unary hn hop _ ih =>
    obtain ⟨line, rest, rfl, hrest⟩ := hplaced.eq_cons
    obtain ⟨e', hreads, heq⟩ := ih hrest
    refine ⟨_, .unary hn hop hreads, ?_⟩
    simp only [eraseLines, mapLines] at heq ⊢
    rw [heq]
  | binary hn hop _ _ ihl ihr =>
    obtain ⟨front, rest, rfl, hfront, hrest⟩ := hplaced.eq_append
    obtain ⟨line, back, rfl, hback⟩ := hrest.eq_cons
    obtain ⟨left', hleft, heql⟩ := ihl hfront
    obtain ⟨right', hright, heqr⟩ := ihr hback
    refine ⟨_, .binary hn hop hleft hright, ?_⟩
    simp only [eraseLines, mapLines] at heql heqr ⊢
    rw [heql, heqr]
  | assign hop _ ih =>
    obtain ⟨line, rest, rfl, hrest⟩ := hplaced.eq_cons
    obtain ⟨stop, others, rfl, hothers⟩ := hrest.eq_cons
    obtain ⟨e', hreads, heq⟩ := ih hothers
    refine ⟨_, .assign hop hreads, ?_⟩
    simp only [eraseLines, mapLines] at heq ⊢
    rw [heq]

end Expr

/-! ## Parts of statements -/

theorem ReadsCommas.moved {α β : Type} {item : List PlacedToken → α → Prop} {f : α → β}
    (hitem : ∀ {tokens placed : List PlacedToken} {value : α}, item tokens value →
      SameTokens placed tokens → ∃ value', item placed value' ∧ f value' = f value)
    {tokens placed : List PlacedToken} {values : List α} (h : ReadsCommas item tokens values)
    (hplaced : SameTokens placed tokens) :
    ∃ values', ReadsCommas item placed values' ∧ values'.map f = values.map f := by
  induction h generalizing placed with
  | last hvalue =>
    obtain ⟨value', hreads, heq⟩ := hitem hvalue hplaced
    exact ⟨[value'], .last hreads, by simp [heq]⟩
  | next hvalue _ ih =>
    obtain ⟨front, rest, rfl, hfront, hrest⟩ := hplaced.eq_append
    obtain ⟨line, others, rfl, hothers⟩ := hrest.eq_cons
    obtain ⟨value', hreads, heq⟩ := hitem hvalue hfront
    obtain ⟨values', hmore, heqs⟩ := ih hothers
    exact ⟨value' :: values', .next hreads hmore, by simp [heq, heqs]⟩

private theorem ReadsName.moved {tokens placed : List PlacedToken} {name : String}
    (h : ReadsName tokens name) (hplaced : SameTokens placed tokens) :
    ∃ name', ReadsName placed name' ∧ id name' = id name := by
  obtain ⟨⟩ := h
  obtain ⟨line, rfl⟩ := hplaced.eq_singleton
  exact ⟨name, .intro, rfl⟩

private theorem ReadsParams.moved {tokens placed : List PlacedToken} {params : List String}
    (h : ReadsParams tokens params) (hplaced : SameTokens placed tokens) :
    ReadsParams placed params := by
  cases h with
  | none =>
    rw [hplaced.eq_nil]
    exact .none
  | some hnames =>
    obtain ⟨names, hreads, heq⟩ := hnames.moved ReadsName.moved hplaced
    rw [List.map_id, List.map_id] at heq
    rw [← heq]
    exact .some hreads

private theorem Declarator.Reads.moved {tokens placed : List PlacedToken} {d : Declarator}
    (h : Declarator.Reads tokens d) (hplaced : SameTokens placed tokens) :
    ∃ d', Declarator.Reads placed d' ∧
      d'.map (fun _ => 0) Expr.eraseLines = d.map (fun _ => 0) Expr.eraseLines := by
  cases h with
  | bare =>
    obtain ⟨line, rfl⟩ := hplaced.eq_singleton
    exact ⟨_, .bare, rfl⟩
  | init hvalue =>
    obtain ⟨line, rest, rfl, hrest⟩ := hplaced.eq_cons
    obtain ⟨stop, others, rfl, hothers⟩ := hrest.eq_cons
    obtain ⟨value', hreads, heq⟩ := hvalue.moved hothers
    exact ⟨_, .init hreads, by simp [Declarator.map, heq]⟩

private theorem Closes.moved {strict : Bool} {tokens placed : List PlacedToken}
    (h : Closes strict tokens) (hplaced : SameTokens placed tokens) : Closes strict placed := by
  cases h with
  | semicolon =>
    obtain ⟨line, rfl⟩ := hplaced.eq_singleton
    exact .semicolon
  | nothing hstrict =>
    rw [hplaced.eq_nil]
    exact .nothing hstrict

private theorem ReadsTest.moved {tokens placed : List PlacedToken} {test : Expr}
    (h : ReadsTest tokens test) (hplaced : SameTokens placed tokens) :
    ∃ test', ReadsTest placed test' ∧ test'.eraseLines = test.eraseLines := by
  obtain ⟨htest⟩ := h
  obtain ⟨start, rest, rfl, hrest⟩ := hplaced.eq_cons
  obtain ⟨inner, close, rfl, hinner, hclose⟩ := hrest.eq_append
  obtain ⟨stop, rfl⟩ := hclose.eq_singleton
  obtain ⟨test', hreads, heq⟩ := htest.moved hinner
  exact ⟨test', .intro hreads, heq⟩

/-! ## Statements -/

namespace Stmt

mutual

/-- Tokens of a statement that are moved to other lines are the same statement, up
to lines. -/
theorem Reads.moved {strict : Bool} : ∀ {tokens placed : List PlacedToken} {s : Stmt},
    Reads strict tokens s → SameTokens placed tokens →
    ∃ s', Reads strict placed s' ∧ s'.eraseLines = s.eraseLines
  | _, _, _, .function hparams hbody, hplaced => by
    obtain ⟨line, rest₁, rfl, h₁⟩ := hplaced.eq_cons
    obtain ⟨nameLine, rest₂, rfl, h₂⟩ := h₁.eq_cons
    obtain ⟨start, rest₃, rfl, h₃⟩ := h₂.eq_cons
    obtain ⟨names, rest₄, rfl, hnames, h₄⟩ := h₃.eq_append
    obtain ⟨stop, rest₅, rfl, h₅⟩ := h₄.eq_cons
    obtain ⟨bodyLine, rest₆, rfl, h₆⟩ := h₅.eq_cons
    obtain ⟨inside, close, rfl, hinside, hclose⟩ := h₆.eq_append
    obtain ⟨last, rfl⟩ := hclose.eq_singleton
    obtain ⟨body', hreads, heq⟩ := ReadsAll.moved hbody hinside
    exact ⟨_, .function (hparams.moved hnames) hreads, by simp only [eraseLines, Stmt.map, heq]⟩
  | _, _, _, .block hbody, hplaced => by
    obtain ⟨line, rest, rfl, hrest⟩ := hplaced.eq_cons
    obtain ⟨inside, close, rfl, hinside, hclose⟩ := hrest.eq_append
    obtain ⟨last, rfl⟩ := hclose.eq_singleton
    obtain ⟨body', hreads, heq⟩ := ReadsAll.moved hbody hinside
    exact ⟨_, .block hreads, by simp only [eraseLines, Stmt.map, heq]⟩
  | _, _, _, .expression hexpr hstop, hplaced => by
    rw [← List.cons_append] at hplaced
    obtain ⟨front, back, rfl, hfront, hback⟩ := hplaced.eq_append
    obtain ⟨expr', hreads, heq⟩ := hexpr.moved hfront
    obtain ⟨line, rest, rfl, -⟩ := hfront.eq_cons
    exact ⟨_, .expression hreads (hstop.moved hback), by simp only [eraseLines, Stmt.map, heq]⟩
  | _, _, _, .declare hdeclarators hstop, hplaced => by
    obtain ⟨line, rest, rfl, hrest⟩ := hplaced.eq_cons
    obtain ⟨front, back, rfl, hfront, hback⟩ := hrest.eq_append
    obtain ⟨declarators', hreads, heq⟩ := hdeclarators.moved Declarator.Reads.moved hfront
    exact ⟨_, .declare hreads (hstop.moved hback), by simp only [eraseLines, Stmt.map, heq]⟩
  | _, _, _, .ifThen htest hconsequent, hplaced => by
    obtain ⟨line, rest, rfl, hrest⟩ := hplaced.eq_cons
    obtain ⟨front, branch, rfl, hfront, hbranch⟩ := hrest.eq_append
    obtain ⟨test', htest', heqt⟩ := htest.moved hfront
    obtain ⟨consequent', hreads, heq⟩ := Reads.moved hconsequent hbranch
    refine ⟨_, .ifThen htest' hreads, ?_⟩
    simp only [eraseLines, Stmt.map] at heq ⊢
    rw [heqt, heq]
  | _, _, _, .ifElse htest hconsequent hdangling halternate, hplaced => by
    obtain ⟨line, rest, rfl, hrest⟩ := hplaced.eq_cons
    obtain ⟨front, rest₁, rfl, hfront, h₁⟩ := hrest.eq_append
    obtain ⟨branch, rest₂, rfl, hbranch, h₂⟩ := h₁.eq_append
    obtain ⟨elseLine, other, rfl, hother⟩ := h₂.eq_cons
    obtain ⟨test', htest', heqt⟩ := htest.moved hfront
    obtain ⟨consequent', hreads, heq⟩ := Reads.moved hconsequent hbranch
    obtain ⟨alternate', hreads', heq'⟩ := Reads.moved halternate hother
    have hdangling' : consequent'.dangling = false := by
      have := congrArg dangling heq
      rwa [eraseLines, eraseLines, dangling_map, dangling_map, hdangling] at this
    refine ⟨_, .ifElse htest' hreads hdangling' hreads', ?_⟩
    simp only [eraseLines, Stmt.map] at heq heq' ⊢
    rw [heqt, heq, heq']
  | _, _, _, .loop htest hbody, hplaced => by
    obtain ⟨line, rest, rfl, hrest⟩ := hplaced.eq_cons
    obtain ⟨front, inside, rfl, hfront, hinside⟩ := hrest.eq_append
    obtain ⟨test', htest', heqt⟩ := htest.moved hfront
    obtain ⟨body', hreads, heq⟩ := Reads.moved hbody hinside
    refine ⟨_, .loop htest' hreads, ?_⟩
    simp only [eraseLines, Stmt.map] at heq ⊢
    rw [heqt, heq]
  | _, _, _, .exit hstop, hplaced => by
    obtain ⟨line, rest, rfl, hrest⟩ := hplaced.eq_cons
    exact ⟨_, .exit (hstop.moved hrest), rfl⟩
  | _, _, _, .exitWith hresult hstop, hplaced => by
    obtain ⟨line, rest, rfl, hrest⟩ := hplaced.eq_cons
    obtain ⟨front, back, rfl, hfront, hback⟩ := hrest.eq_append
    obtain ⟨result', hreads, heq⟩ := hresult.moved hfront
    exact ⟨_, .exitWith hreads (hstop.moved hback), by simp [eraseLines, Stmt.map, heq]⟩

theorem ReadsAll.moved {strict : Bool} : ∀ {tokens placed : List PlacedToken}
    {body : List Stmt}, ReadsAll strict tokens body → SameTokens placed tokens →
    ∃ body', ReadsAll strict placed body' ∧
      mapAll (fun _ => 0) Expr.eraseLines body' = mapAll (fun _ => 0) Expr.eraseLines body
  | _, _, _, .nil, hplaced => by
    rw [hplaced.eq_nil]
    exact ⟨[], .nil, rfl⟩
  | _, _, _, .semicolon hbody, hplaced => by
    obtain ⟨line, rest, rfl, hrest⟩ := hplaced.eq_cons
    obtain ⟨body', hreads, heq⟩ := ReadsAll.moved hbody hrest
    exact ⟨body', .semicolon hreads, heq⟩
  | _, _, _, .cons hs hbody, hplaced => by
    obtain ⟨front, others, rfl, hfront, hothers⟩ := hplaced.eq_append
    obtain ⟨s', hreads, heq⟩ := Reads.moved hs hfront
    obtain ⟨body', hmore, heqs⟩ := ReadsAll.moved hbody hothers
    refine ⟨s' :: body', .cons hreads hmore, ?_⟩
    simp only [eraseLines] at heq
    simp only [mapAll, heq, heqs]

end

end Stmt

/-! ## Programs -/

/-- The tokens derive the program, lines left aside: placed on some lines, they are
the statements of a program that is equal to it up to lines. -/
def Program.Derives (strict : Bool) (tokens : List Token) (p : Program) : Prop :=
  ∃ placed q, placed.map PlacedToken.token = tokens ∧
    Stmt.ReadsAll strict placed (Program.body q) ∧ q.eraseLines = p.eraseLines

/-- What the parser accepts is derived, with all of its tokens and their lines, as
the program that the parser returns.  Where a semicolon ends every declaration,
return and expression, the parser accepts whatever is derived, and returns the
program up to lines. -/
theorem Program.ofTokens_derives (tokens : List PlacedToken) (p : Program) :
    (Program.ofTokens tokens = .ok p → Stmt.ReadsAll false tokens p.body) ∧
      (Program.Derives true (tokens.map PlacedToken.token) p →
        ∃ q, Program.ofTokens tokens = .ok q ∧ q.eraseLines = p.eraseLines) := by
  refine ⟨fun h => ?_, fun ⟨placed, q, hplaced, hreads, heq⟩ => ?_⟩
  · obtain ⟨body, hbody, hprogram⟩ := bind_eq_ok_iff.1 h
    cases hprogram
    exact Stmt.readsAll_of_parseAll _ tokens hbody
  · obtain ⟨body, hbody, hsame⟩ := Stmt.ReadsAll.moved hreads hplaced.symm
    refine ⟨⟨body⟩, bind_eq_ok_iff.2 ⟨body, Stmt.parseAll_of_readsAll _ hbody, rfl⟩, ?_⟩
    rw [← heq, Program.eraseLines, Program.eraseLines, hsame]

/-- The tokens of `if (a) if (b) x++; else y = -z;` on two lines. -/
private def nearestIf : List PlacedToken :=
  [⟨.keyword .ifWord, 1⟩, ⟨.symbol .leftParen, 1⟩, ⟨.identifier "a", 1⟩, ⟨.symbol .rightParen, 1⟩,
   ⟨.keyword .ifWord, 1⟩, ⟨.symbol .leftParen, 1⟩, ⟨.identifier "b", 1⟩, ⟨.symbol .rightParen, 1⟩,
   ⟨.identifier "x", 1⟩, ⟨.symbol .plusPlus, 1⟩, ⟨.symbol .semicolon, 1⟩,
   ⟨.keyword .elseWord, 2⟩, ⟨.identifier "y", 2⟩, ⟨.symbol .assign, 2⟩, ⟨.symbol .minus, 2⟩,
   ⟨.identifier "z", 2⟩, ⟨.symbol .semicolon, 2⟩]

/-- Two conditionals, the second of which has an alternative. -/
private def nearestIfTree (first second : Nat) : Program :=
  ⟨[.ifThen first (.identifier first "a") (.ifElse first (.identifier first "b")
      (.expression first (.update first .increment false "x"))
      (.expression second
        (.assign second .assign "y" (.unary second .neg (.identifier second "z")))))]⟩

theorem Program.ofTokens_derives_nearestIf :
    Stmt.ReadsAll false nearestIf (nearestIfTree 1 2).body ∧
      Program.Derives true (nearestIf.map PlacedToken.token) (nearestIfTree 7 7) ∧
      ∃ q, Program.ofTokens nearestIf = .ok q ∧ q.eraseLines = (nearestIfTree 7 7).eraseLines := by
  have hparse : Program.ofTokens nearestIf = .ok (nearestIfTree 1 2) := by cbv
  have htest : ∀ name, ReadsTest [⟨.symbol .leftParen, 1⟩, ⟨.identifier name, 1⟩,
      ⟨.symbol .rightParen, 1⟩] (.identifier 1 name) := fun name =>
    @ReadsTest.intro 1 1 [⟨.identifier name, 1⟩] _ (.identifier (by decide))
  have hfirst := @Stmt.Reads.expression true (.identifier "x") 1 [⟨.symbol .plusPlus, 1⟩]
    [⟨.symbol .semicolon, 1⟩] _
    (@Expr.Reads.stepAfter 0 1 1 [⟨.identifier "x", 1⟩] "x" .plusPlus .increment (by decide)
      (.identifier (by decide)) rfl) .semicolon
  have hsecond := @Stmt.Reads.expression true (.identifier "y") 2
    [⟨.symbol .assign, 2⟩, ⟨.symbol .minus, 2⟩, ⟨.identifier "z", 2⟩] [⟨.symbol .semicolon, 2⟩] _
    (.assign rfl (.unary (by decide) rfl (.identifier (by decide)))) .semicolon
  have hinner := @Stmt.Reads.ifElse true 1 2 _ _ _ _ _ _ (htest "b") hfirst rfl hsecond
  have hwhole : Stmt.ReadsAll true nearestIf (nearestIfTree 1 2).body :=
    @Stmt.ReadsAll.cons true _ [] _ [] (@Stmt.Reads.ifThen true 1 _ _ _ _ (htest "a") hinner) .nil
  have hderives : Program.Derives true (nearestIf.map PlacedToken.token) (nearestIfTree 7 7) :=
    ⟨nearestIf, nearestIfTree 1 2, rfl, hwhole, rfl⟩
  have hsound := (Program.ofTokens_derives nearestIf (nearestIfTree 1 2)).1 hparse
  have hcomplete := (Program.ofTokens_derives nearestIf (nearestIfTree 7 7)).2 hderives
  exact ⟨hsound, hderives, hcomplete⟩

end TraceGraph
