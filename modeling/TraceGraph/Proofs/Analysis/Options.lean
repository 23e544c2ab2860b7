import TraceGraph.Analysis
import TraceGraph.Proofs.Graph.Lockstep

/-!
# The options of an analysis

What an analysis is asked to do changes only what it is meant to change.
Highlighting decides about colors, and folded labels about labels.

* `Program.theFunction_outline`: which function a program is can be read off its
  outline, and so can the fault of a program that is none.
* `Program.eraseLabels_graph`: labels from the folded source change nothing else.
* `options_orthogonal`: both for whole analyses.
-/

namespace TraceGraph

/-- The function with nothing kept of its expressions but their lines. -/
def FunctionDecl.outline (decl : FunctionDecl) : FunctionDecl :=
  { decl with body := Stmt.outlines decl.body }

namespace Program

/-- The program with nothing kept of its expressions but their lines. -/
def outline (p : Program) : Program :=
  ⟨Stmt.outlines p.body⟩

theorem outline_substitute (p : Program) : p.substitute.result.outline = p.outline :=
  congrArg Program.mk (Stmt.outlines_foldAll p.body .empty)

theorem function?_outline (p : Program) :
    p.outline.function? = p.function?.map FunctionDecl.outline := by
  obtain ⟨body⟩ := p
  match body with
  | [] => rfl
  | [s] => cases s <;> rfl
  | s :: next :: rest => cases s <;> rfl

theorem theFunction_outline (p : Program) :
    p.outline.theFunction = p.theFunction.map FunctionDecl.outline := by
  have hline : (p.outline.body.head?.map Stmt.line).getD 1
      = (p.body.head?.map Stmt.line).getD 1 := by
    obtain ⟨body⟩ := p
    cases body with
    | nil => rfl
    | cons s rest => exact Stmt.line_outline s
  rw [theFunction, theFunction, function?_outline, hline]
  cases p.function? <;> rfl

/-- Programs with one outline have graphs that differ in labels only. -/
theorem eraseLabels_ofBody {p q : Program} (houtline : p.outline = q.outline) (firstId : Nat)
    (path : Option Classification) :
    (p.theFunction.bind fun decl => Graph.ofBody decl.body firstId path).map Graph.eraseLabels
      = (q.theFunction.bind fun decl => Graph.ofBody decl.body firstId path).map
          Graph.eraseLabels := by
  have hfunction : p.theFunction.map FunctionDecl.outline
      = q.theFunction.map FunctionDecl.outline := by
    rw [← theFunction_outline, houtline, theFunction_outline]
  cases hp : p.theFunction with
  | error fault =>
    cases hq : q.theFunction with
    | error fault' =>
      rw [hp, hq] at hfunction
      cases hfunction
      rfl
    | ok decl =>
      rw [hp, hq] at hfunction
      cases hfunction
  | ok decl =>
    cases hq : q.theFunction with
    | error fault' =>
      rw [hp, hq] at hfunction
      cases hfunction
    | ok decl' =>
      rw [hp, hq] at hfunction
      have hdecl : decl.outline = decl'.outline := Except.ok.inj hfunction
      exact Graph.eraseLabels_ofBody (congrArg FunctionDecl.body hdecl) firstId path

/-- The graph is that of one function, which the path has no part in choosing. -/
theorem graph_eq (p : Program) (settings : Settings) : ∃ shown : Except Fault FunctionDecl,
    ∀ path, p.graph settings path
      = shown.bind fun decl => Graph.ofBody decl.body settings.firstId path := by
  cases hlabels : settings.foldLabels with
  | false => exact ⟨p.theFunction, fun path => by simp only [graph, hlabels]; rfl⟩
  | true =>
    cases hfault : p.substitute.fault with
    | some fault => exact ⟨.error fault, fun path => by simp only [graph, hlabels, hfault]; rfl⟩
    | none =>
      exact ⟨p.substitute.result.theFunction, fun path => by
        simp only [graph, hlabels, hfault]; rfl⟩

/-- The path to highlight changes nothing but colors. -/
theorem eraseColors_graph (p : Program) (settings : Settings) (path path' : Option Classification) :
    (p.graph settings path).map Graph.eraseColors
      = (p.graph settings path').map Graph.eraseColors := by
  obtain ⟨shown, hshown⟩ := p.graph_eq settings
  rw [hshown, hshown]
  cases shown with
  | error fault => rfl
  | ok decl => exact Graph.eraseColors_ofBody decl.body settings.firstId path path'

/-- Once the program can be folded, labels from its folded source change nothing but
labels. -/
theorem eraseLabels_graph {p : Program} (hsubstitute : p.substitute.fault = none)
    (settings : Settings) (path : Option Classification) :
    (p.graph { settings with foldLabels := true } path).map Graph.eraseLabels
      = (p.graph { settings with foldLabels := false } path).map Graph.eraseLabels := by
  have hfolded : p.graph { settings with foldLabels := true } path
      = p.substitute.result.theFunction.bind fun decl =>
          Graph.ofBody decl.body settings.firstId path := by
    simp only [graph, hsubstitute]
    rfl
  rw [hfolded]
  exact eraseLabels_ofBody (outline_substitute p) settings.firstId path

end Program

/-! ## Whole analyses -/

/-- The graph of an analysis, up to what `forget` forgets. -/
theorem analyze_map (forget : Graph → Graph) (settings : Settings) (source : String)
    (args : Arguments) :
    (analyze settings source args).map (fun noted => forget noted.value)
      = (Program.parse source).bind fun program =>
          (program.path settings args).bind fun path =>
            (program.graph settings path).map forget := by
  rw [analyze]
  cases Program.parse source with
  | error fault => rfl
  | ok program =>
    show ((program.analyze settings args).bind _).map _ = (program.path settings args).bind _
    rw [Program.analyze]
    cases program.path settings args with
    | error fault => rfl
    | ok path =>
      show ((program.graph settings path).bind _).map _ = (program.graph settings path).map forget
      cases program.graph settings path <;> rfl

/-- The options of an analysis do not interfere.  Without highlighting an analysis
goes through whenever it does with it, and the two graphs differ in colors only.
Where the program can be folded, folded labels change neither whether the graph can
be built nor the fault if it cannot, and the two graphs differ in labels only. -/
theorem options_orthogonal (settings : Settings) (source : String) (args : Arguments) :
    (∀ highlighted, analyze { settings with highlight := true } source args = .ok highlighted →
      ∃ plain, analyze { settings with highlight := false } source args = .ok plain ∧
        plain.value.eraseColors = highlighted.value.eraseColors) ∧
    ∀ program, Program.parse source = .ok program → program.substitute.fault = none →
      (∀ path, (program.graph { settings with foldLabels := true } path).map Graph.eraseLabels
          = (program.graph { settings with foldLabels := false } path).map Graph.eraseLabels) ∧
      (analyze { settings with foldLabels := true } source args).map (·.value.eraseLabels)
        = (analyze { settings with foldLabels := false } source args).map
            (·.value.eraseLabels) := by
  refine ⟨fun highlighted h => ?_, fun program hparse hsubstitute => ⟨?_, ?_⟩⟩
  · have hcolored := analyze_map Graph.eraseColors { settings with highlight := true } source args
    have hplain := analyze_map Graph.eraseColors { settings with highlight := false } source args
    rw [h] at hcolored
    obtain ⟨program, hparse, hpath⟩ := bind_eq_ok_iff.1 hcolored.symm
    obtain ⟨path, -, hgraph⟩ := bind_eq_ok_iff.1 hpath
    have hsame := program.eraseColors_graph { settings with highlight := false } path none
    rw [hparse] at hplain
    have hok : (analyze { settings with highlight := false } source args).map
        (fun noted => noted.value.eraseColors) = .ok highlighted.value.eraseColors :=
      hplain.trans (hsame.symm.trans hgraph)
    exact map_eq_ok_iff.1 hok
  · exact Program.eraseLabels_graph hsubstitute settings
  · rw [analyze_map, analyze_map, hparse]
    show (program.path settings args).bind _ = (program.path settings args).bind _
    exact congrArg _ (funext fun path => Program.eraseLabels_graph hsubstitute settings path)

/-- A source text is parsed through its tokens. -/
theorem Program.parse_of_tokenize {source : String} {tokens : List PlacedToken} {p : Program}
    (htokens : (tokenize source).toOption = some tokens) (hp : Program.ofTokens tokens = .ok p) :
    Program.parse source = .ok p := by
  rw [Program.parse]
  cases htokenize : tokenize source with
  | error fault =>
    rw [htokenize] at htokens
    cases htokens
  | ok tokens =>
    rw [htokenize] at htokens
    cases htokens
    exact hp

/-- A function whose result is rewritten when it is folded. -/
private def inlinesName : Program :=
  ⟨[.function 1 "f" ["x"] 1
      [.declare 1 .letDecl [⟨"y", some (.unary 1 .not (.identifier 1 "x")), 1⟩],
       .ifThen 1 (.identifier 1 "x") (.exit 1 (some (.identifier 1 "y")))]]⟩

private theorem parse_inlinesName :
    Program.parse "function f(x){let y=!x;if(x)return y}" = .ok inlinesName := by
  have htokens : (tokenize "function f(x){let y=!x;if(x)return y}").toOption
      = some ([.keyword .functionWord, .identifier "f", .symbol .leftParen, .identifier "x",
          .symbol .rightParen, .symbol .leftBrace, .keyword .letWord, .identifier "y",
          .symbol .assign, .symbol .bang, .identifier "x", .symbol .semicolon, .keyword .ifWord,
          .symbol .leftParen, .identifier "x", .symbol .rightParen, .keyword .returnWord,
          .identifier "y", .symbol .rightBrace].map (PlacedToken.mk · 1)) := by decide +kernel
  exact Program.parse_of_tokenize htokens (by cbv)

theorem options_orthogonal_inlinesName :
    Program.parse "function f(x){let y=!x;if(x)return y}" = .ok inlinesName ∧
      inlinesName.substitute.fault = none ∧
      (∃ highlighted plain,
        analyze { highlight := true } "function f(x){let y=!x;if(x)return y}"
          (.ofPairs [("x", .bool true)]) = .ok highlighted ∧
        analyze { highlight := false } "function f(x){let y=!x;if(x)return y}"
          (.ofPairs [("x", .bool true)]) = .ok plain ∧
        plain.value.eraseColors = highlighted.value.eraseColors) ∧
      ∀ path, (inlinesName.graph { foldLabels := true } path).map Graph.eraseLabels
        = (inlinesName.graph { foldLabels := false } path).map Graph.eraseLabels := by
  have hfault : inlinesName.substitute.fault = none := by decide
  obtain ⟨hcolors, hlabels⟩ := options_orthogonal {} "function f(x){let y=!x;if(x)return y}"
    (.ofPairs [("x", .bool true)])
  refine ⟨parse_inlinesName, hfault, ?_, (hlabels _ parse_inlinesName hfault).1⟩
  have hcolored : ∃ highlighted, analyze { highlight := true }
      "function f(x){let y=!x;if(x)return y}" (.ofPairs [("x", .bool true)])
        = .ok highlighted := by
    rw [analyze, parse_inlinesName]
    exact ⟨_, rfl⟩
  obtain ⟨highlighted, hhighlighted⟩ := hcolored
  obtain ⟨plain, hplain, herased⟩ := hcolors highlighted hhighlighted
  exact ⟨highlighted, plain, hhighlighted, hplain, herased⟩

end TraceGraph
