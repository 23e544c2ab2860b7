import TraceGraph.Proofs.Analysis.Options
import TraceGraph.Proofs.Graph.Moving
import TraceGraph.Proofs.Stmt.Derivation

/-!
# Sources that are laid out differently

Two source texts with the same tokens on different lines are the same program, and
everything that is said about the one is said about the other on its lines.  Several
lines may have become one, so the lines of the first text cannot be told from those of
the second.

* `SameTokens.eq_moveTokens`: the tokens of the second text are those of the first on
  other lines.
* `Program.graph_mapLines`: the graph of a program on other lines.
* `reformatting_moves_lines`: parsing, analysing and classifying a text that is laid
  out differently.
-/

namespace TraceGraph

variable (f : Nat → Nat)

/-- The same tokens on other lines are these tokens moved. -/
theorem SameTokens.eq_moveTokens {tokens tokens' : List PlacedToken}
    (hsame : SameTokens tokens' tokens)
    (hlines : tokens'.map PlacedToken.line = tokens.map fun t => f t.line) :
    tokens' = moveTokens f tokens := by
  induction tokens generalizing tokens' with
  | nil => exact hsame.eq_nil
  | cons t rest ih =>
    obtain ⟨line, rest', rfl, hrest⟩ := hsame.eq_cons
    obtain ⟨hline, hlines⟩ := List.cons.inj hlines
    rw [ih hrest hlines]
    exact congrArg (fun line => PlacedToken.mk t.token line :: moveTokens f rest) hline

/-! ## Graphs of programs -/

namespace Program

theorem body_substitute_ne_nil {p : Program} (h : p.body ≠ []) : p.substitute.result.body ≠ [] := by
  intro hnil
  have houtline := congrArg Program.body p.outline_substitute
  obtain ⟨body⟩ := p
  cases body with
  | nil => exact h rfl
  | cons s rest =>
    rw [outline, hnil] at houtline
    cases houtline

/-- On other lines a program has the graph with these lines. -/
theorem graph_mapLines {p : Program} (h : p.body ≠ []) (settings : Settings) :
    (p.mapLines f).graph settings none
      = relined f (Graph.mapLines f) (p.graph settings none) := by
  have hbody : ∀ q : Program, q.body ≠ [] →
      ((q.mapLines f).theFunction.bind fun decl => Graph.ofBody decl.body settings.firstId none)
        = relined f (Graph.mapLines f)
            (q.theFunction.bind fun decl => Graph.ofBody decl.body settings.firstId none) := by
    intro q hq
    rw [theFunction_mapLines f hq]
    exact relined_bind fun decl _ => Graph.ofBody_mapLinesAll f decl.body settings.firstId
  cases hlabels : settings.foldLabels with
  | false =>
    simp only [graph, hlabels]
    exact hbody p h
  | true =>
    simp only [graph, hlabels, substitute_mapLines]
    cases hfault : p.substitute.fault with
    | some fault =>
      simp only [Folded.mapLines, hfault, Option.map_some]
      rfl
    | none =>
      simp only [Folded.mapLines, hfault, Option.map_none]
      exact hbody p.substitute.result (body_substitute_ne_nil h)

theorem argumentNotices_mapLines (p : Program) (args : Arguments) :
    (p.mapLines f).argumentNotices args = p.argumentNotices args := by
  rw [argumentNotices, argumentNotices, function?_mapLines]
  cases p.function? <;> rfl

end Program

theorem Graph.notice_mapLines (graph : Graph) : (graph.mapLines f).notice = graph.notice := by
  rw [notice, mapLines, mapNodes, List.length_map]
  rfl

/-! ## Whole analyses -/

/-- The same notices about another result. -/
def Noted.map {α β : Type} (g : α → β) (x : Noted α) : Noted β :=
  ⟨g x.value, x.notices⟩

section

variable {source source' : String} (hparse : Program.parse source'
    = relined f (Program.mapLines f) (Program.parse source))
  (hbody : ∀ p, Program.parse source = .ok p → p.body ≠ [])
include hparse hbody

theorem analyze_mapLines {settings : Settings} (hhighlight : settings.highlight = false)
    (args : Arguments) :
    analyze settings source' args
      = relined f (Noted.map (Graph.mapLines f)) (analyze settings source args) := by
  have hplain : ∀ p : Program, p.analyze settings args = p.graph settings none := by
    intro p
    rw [Program.analyze, Program.path, hhighlight]
    rfl
  unfold analyze
  rw [hparse]
  refine relined_bind fun p hp => ?_
  rw [hplain, hplain, hhighlight, Program.graph_mapLines f (hbody p hp)]
  refine relined_bind fun graph _ => ?_
  show Except.ok (Noted.mk (graph.mapLines f) [(graph.mapLines f).notice]) = _
  rw [Graph.notice_mapLines]
  rfl

theorem classifyLines_mapLines (args : Arguments) :
    classifyLines source' args
      = relined f (Noted.map (Classification.image f)) (classifyLines source args) := by
  unfold classifyLines
  rw [hparse]
  refine relined_bind fun p hp => ?_
  rw [Program.classify_mapLines f (hbody p hp), Program.argumentNotices_mapLines]
  exact relined_bind fun r _ => rfl

end

/-- Laying out a source text differently changes lines and nothing else.  The second
text has the tokens of the first, and `f` says on which line each of them is.  Then the
second text is parsed as the first one on these lines.  If that is a program with a
statement in it, or a fault, then the graph without highlighting has the lines of its
nodes changed, and for all arguments the sets of executed and of skipped lines are the
images of those of the first text.  Faults are the same, on their lines. -/
theorem reformatting_moves_lines {source source' : String} {tokens tokens' : List PlacedToken}
    (htokens : tokenize source = .ok tokens) (htokens' : tokenize source' = .ok tokens')
    (hsame : SameTokens tokens' tokens)
    (hlines : tokens'.map PlacedToken.line = tokens.map fun t => f t.line) :
    Program.parse source' = relined f (Program.mapLines f) (Program.parse source) ∧
      ((∀ p, Program.parse source = .ok p → p.body ≠ []) →
        (∀ settings args, settings.highlight = false →
          analyze settings source' args
            = relined f (Noted.map (Graph.mapLines f)) (analyze settings source args)) ∧
        ∀ args, classifyLines source' args
          = relined f (Noted.map (Classification.image f)) (classifyLines source args)) := by
  have hparse : Program.parse source' = relined f (Program.mapLines f) (Program.parse source) := by
    rw [Program.parse, Program.parse, htokens, htokens', hsame.eq_moveTokens f hlines]
    exact Program.ofTokens_moveTokens f tokens
  exact ⟨hparse, fun hbody =>
    ⟨fun _ args hhighlight => analyze_mapLines f hparse hbody hhighlight args,
      classifyLines_mapLines f hparse hbody⟩⟩

/-- A function that may return early, on lines of its own. -/
private def severalLines : String :=
  "function f(x) \x7b\n  let y = !x\n  if (x)\n    return y\n\x7d"

/-- The same function on one line. -/
private def oneLine : String :=
  "function f(x)\x7blet y=!x if(x)return y\x7d"

/-- The tokens of the function, and the lines of the first text. -/
private def returnsEarly : List (Token × Nat) :=
  [(.keyword .functionWord, 1), (.identifier "f", 1), (.symbol .leftParen, 1),
   (.identifier "x", 1), (.symbol .rightParen, 1), (.symbol .leftBrace, 1),
   (.keyword .letWord, 2), (.identifier "y", 2), (.symbol .assign, 2), (.symbol .bang, 2),
   (.identifier "x", 2), (.keyword .ifWord, 3), (.symbol .leftParen, 3), (.identifier "x", 3),
   (.symbol .rightParen, 3), (.keyword .returnWord, 4), (.identifier "y", 4),
   (.symbol .rightBrace, 5)]

private theorem tokenize_severalLines :
    tokenize severalLines = .ok (returnsEarly.map fun t => ⟨t.1, t.2⟩) :=
  tokenize_eq_ok (by decide +kernel)

private theorem tokenize_oneLine :
    tokenize oneLine = .ok (returnsEarly.map fun t => ⟨t.1, 1⟩) :=
  tokenize_eq_ok (by decide +kernel)

private theorem parse_severalLines :
    Program.parse severalLines = .ok ⟨[.function 1 "f" ["x"] 1
      [.declare 2 .letDecl [⟨"y", some (.unary 2 .not (.identifier 2 "x")), 2⟩],
       .ifThen 3 (.identifier 3 "x") (.exit 4 (some (.identifier 4 "y")))]]⟩ := by
  rw [Program.parse, tokenize_severalLines]
  cbv

theorem reformatting_moves_lines_oneLine :
    (∀ p, Program.parse severalLines = .ok p → p.body ≠ []) ∧
      Program.parse oneLine
        = relined (fun _ => 1) (Program.mapLines fun _ => 1) (Program.parse severalLines) ∧
      analyze {} oneLine (.ofPairs [])
        = relined (fun _ => 1) (Noted.map (Graph.mapLines fun _ => 1))
            (analyze {} severalLines (.ofPairs [])) ∧
      classifyLines oneLine (.ofPairs [("x", .bool true)])
        = relined (fun _ => 1) (Noted.map (Classification.image fun _ => 1))
            (classifyLines severalLines (.ofPairs [("x", .bool true)])) := by
  have hsame : SameTokens (returnsEarly.map fun t => ⟨t.1, 1⟩)
      (returnsEarly.map fun t => ⟨t.1, t.2⟩) := by
    rw [SameTokens, List.map_map, List.map_map]
    rfl
  have hbody : ∀ p, Program.parse severalLines = .ok p → p.body ≠ [] := by
    intro p hp
    rw [parse_severalLines] at hp
    cases hp
    exact List.cons_ne_nil _ _
  obtain ⟨hparse, hmoves⟩ := reformatting_moves_lines (fun _ => 1) tokenize_severalLines
    tokenize_oneLine hsame rfl
  obtain ⟨hanalyze, hclassify⟩ := hmoves hbody
  exact ⟨hbody, hparse, hanalyze {} (.ofPairs []) rfl, hclassify (.ofPairs [("x", .bool true)])⟩

end TraceGraph
