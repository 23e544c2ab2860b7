import TraceGraph.Proofs.Stmt.Calls

/-!
# The parser makes progress and ends

Some parsers call others before they have taken a token, and their loops go on from
wherever the last call has left off.  So neither the number of tokens nor the level in
the grammar is enough of a measure, and that the tokens get fewer has to be known of the
calls before.

* `Call.Below`: a call stands further on in the tokens than another one, or on the same
  tokens at a tighter level.
* `Call.Promise`: what a call leaves, if it gives something.
* `Call.meets_script`: each script calls only what is below it and keeps its promise, as
  far as the calls before keep theirs.
* `parsing_ends`: so the outcomes keep their promises, every call is below its caller, and
  how deep calls stand inside each other is linear in the number of tokens.
-/

namespace TraceGraph

/-! ## Levels -/

namespace Nonterminal

/-- The level in the grammar.  Tighter levels have lower numbers. -/
def level : Nonterminal → Nat
  | .program | .body => 6
  | .statement => 5
  | .block | .assignment => 4
  | .binary _ => 3
  | .unary => 2
  | .step => 1
  -- these call nothing before they have taken a token
  | .names | .declarators | .climb .. | .primary => 0

theorem level_lt (goal : Nonterminal) : goal.level < 7 := by
  cases goal <;> simp [level]

/-- Whether there is always a token in it.  A program may be empty, and there may be no
operation to go on with. -/
def takesToken : Nonterminal → Bool
  | .program | .climb .. => false
  | _ => true

end Nonterminal

/-! ## Progress -/

theorem skipSemicolon_suffix (tokens : List PlacedToken) : skipSemicolon tokens <:+ tokens := by
  unfold skipSemicolon
  split
  · exact List.suffix_cons _ _
  · exact List.suffix_rfl

theorem Expr.suffix_of_step {operand a : Expr × List PlacedToken} (h : step operand = .ok a) :
    a.2 <:+ operand.2 := by
  unfold step at h
  split at h
  · rename_i hrest
    split at h
    · cases h
      exact List.suffix_rfl
    · split at h
      · cases h
        rw [hrest]
        exact List.suffix_cons _ _
      · cases h
  · cases h
    exact List.suffix_rfl

namespace Call

/-- What is left when at least one token has been taken. -/
structure Past (tokens rest : List PlacedToken) : Prop where
  suffix : rest <:+ tokens
  shorter : rest.length < tokens.length

namespace Past

variable {first : PlacedToken} {tokens middle rest : List PlacedToken}

theorem tail : Past (first :: tokens) tokens :=
  ⟨List.suffix_cons _ _, Nat.lt_succ_self _⟩

theorem trans_suffix (h : Past tokens middle) (hrest : rest <:+ middle) : Past tokens rest :=
  ⟨hrest.trans h.suffix, Nat.lt_of_le_of_lt hrest.length_le h.shorter⟩

theorem skip (h : Past tokens (first :: rest)) : Past tokens rest :=
  h.trans_suffix (List.suffix_cons _ _)

theorem of_suffix (h : middle <:+ tokens) (hrest : Past middle rest) : Past tokens rest :=
  ⟨hrest.suffix.trans h, Nat.lt_of_lt_of_le hrest.shorter h.length_le⟩

end Past

/-- What a call leaves, if it gives something. -/
structure Promise (c : Call) (a : c.Answer) : Prop where
  suffix : a.2 <:+ c.tokens
  shorter : c.goal.takesToken = true → a.2.length < c.tokens.length

/-- One call stands further on than another, or on the same tokens at a tighter level. -/
structure Below (d c : Call) : Prop where
  suffix : d.tokens <:+ c.tokens
  smaller : Prod.Lex (· < ·) (· < ·) (d.tokens.length, d.goal.level)
    (c.tokens.length, c.goal.level)

/-- The place of a call among all calls, as one number. -/
def rank (c : Call) : Nat :=
  7 * c.tokens.length + c.goal.level

theorem Below.rank_lt {d c : Call} (h : Below d c) : d.rank < c.rank := by
  have hlevel : d.goal.level < 7 := d.goal.level_lt
  unfold rank
  rcases Prod.lex_def.1 h.smaller with hlt | ⟨heq, hlt⟩
  · dsimp only at hlt
    omega
  · dsimp only at heq hlt
    omega

theorem rank_lt {c : Call} {fuel : Nat} (h : 7 * (c.tokens.length + 1) ≤ fuel) :
    c.rank < fuel := by
  have hlevel : c.goal.level < 7 := c.goal.level_lt
  unfold rank
  omega

/-! ## Each script keeps its promise -/

/-- A part of the script of `c` that calls only what is below, and with which at least one
token has been taken. -/
abbrev Advances {α : Type} (c : Call) (s : Steps (Taken α)) : Prop :=
  s.Meets Promise (Below · c) fun a => Past c.tokens a.2

section Advances

variable {endLine : Nat} {c : Call} {tokens : List PlacedToken}

/-- A call that stands further on. -/
theorem advances_further {goal : Nonterminal} (h : Past c.tokens tokens) :
    Advances c (ask goal tokens) :=
  ⟨⟨h.suffix, .left _ _ h.shorter⟩, fun _ ha => h.trans_suffix ha.suffix⟩

/-- A call on the same tokens at a tighter level. -/
theorem advances_tighter {goal tighter : Nonterminal} (hlevel : tighter.level < goal.level)
    (htakes : tighter.takesToken = true) : Advances ⟨goal, tokens⟩ (ask tighter tokens) :=
  ⟨⟨List.suffix_rfl, .right _ hlevel⟩, fun _ ha => ⟨ha.suffix, ha.shorter htakes⟩⟩

theorem advances_takeSymbol {want : Symbol} (h : tokens <:+ c.tokens) :
    Advances c (takeSymbol endLine want tokens) := by
  refine Script.meets_done fun a ha => ?_
  obtain ⟨line, rfl⟩ := reading_expectSymbol.1 ha
  exact .of_suffix h .tail

theorem advances_takeName (h : tokens <:+ c.tokens) : Advances c (takeName endLine tokens) := by
  refine Script.meets_done fun a ha => ?_
  obtain ⟨line, rfl⟩ := reading_expectIdentifier.1 ha
  exact .of_suffix h .tail

/-! ### Expressions -/

theorem advances_assignment : Advances ⟨.assignment, tokens⟩ (assignment tokens) := by
  unfold assignment
  split
  · split
    · refine (advances_further Past.tail.skip).bind fun value hvalue => ?_
      exact hvalue
    · exact advances_tighter (by decide) rfl
  · exact advances_tighter (by decide) rfl

theorem advances_binary {least : Nat} :
    Advances ⟨.binary least, tokens⟩ (binary least tokens) := by
  refine (advances_tighter (by simp [Nonterminal.level]) rfl).bind fun left hleft => ?_
  exact advances_further hleft

theorem meets_climb {least : Nat} {left : Expr} :
    (climb least left tokens).Meets Promise (Below · ⟨.climb least left, tokens⟩)
      (Promise ⟨.climb least left, tokens⟩) := by
  have hstop : Promise ⟨.climb least left, tokens⟩ (left, tokens) :=
    ⟨List.suffix_rfl, fun h => absurd h Bool.false_ne_true⟩
  unfold climb
  split
  · split
    · split
      · exact hstop
      · refine (advances_further .tail).bind fun right hright => ?_
        refine (advances_further hright).mono fun whole hwhole => ?_
        exact ⟨hwhole.suffix, fun _ => hwhole.shorter⟩
    · exact hstop
  · exact hstop

theorem advances_unary : Advances ⟨.unary, tokens⟩ (unary endLine tokens) := by
  unfold unary
  split
  · split
    · refine (advances_further .tail).bind fun operand hoperand => ?_
      exact hoperand
    · refine (advances_takeName (List.suffix_cons _ _)).bind fun target htarget => ?_
      exact htarget
    · exact advances_tighter (by decide) rfl
  · exact advances_tighter (by decide) rfl

theorem advances_step : Advances ⟨.step, tokens⟩ (step tokens) := by
  refine (advances_tighter (by decide) rfl).bind fun operand hoperand => ?_
  refine Script.meets_done fun a ha => ?_
  exact hoperand.trans_suffix (Expr.suffix_of_step ha)

theorem advances_primary : Advances ⟨.primary, tokens⟩ (primary endLine tokens) := by
  unfold primary
  split
  · trivial
  · rename_i token line rest
    have htail : Past (⟨token, line⟩ :: rest) rest := .tail
    cases token with
    | number | text => exact htail
    | reserved => trivial
    | keyword word =>
      cases word with
      | trueWord | falseWord => exact htail
      | _ => trivial
    | identifier name =>
      dsimp only
      split
      · trivial
      · exact htail
    | symbol mark =>
      cases mark with
      | leftParen =>
        refine (advances_further htail).bind fun inner hinner => ?_
        refine (advances_takeSymbol hinner.suffix).bind fun close hclose => ?_
        exact hclose
      | _ => trivial

/-! ### Statements -/

theorem advances_names : Advances ⟨.names, tokens⟩ (names endLine tokens) := by
  refine (advances_takeName List.suffix_rfl).bind fun name hname => ?_
  split
  · rename_i hrest
    rw [hrest] at hname
    refine (advances_further hname.skip).bind fun names hnames => ?_
    exact hnames
  · exact hname

theorem advances_params (h : Past c.tokens tokens) : Advances c (params endLine tokens) := by
  unfold params
  split
  · exact h.skip
  · refine (advances_further h).bind fun names hnames => ?_
    refine (advances_takeSymbol hnames.suffix).bind fun close hclose => ?_
    exact hclose

theorem advances_declarator : Advances c (declarator endLine c.tokens) := by
  refine (advances_takeName List.suffix_rfl).bind fun name hname => ?_
  split
  · rename_i hrest
    rw [hrest] at hname
    refine (advances_further hname.skip).bind fun init hinit => ?_
    exact hinit
  · exact hname

theorem advances_declarators :
    Advances ⟨.declarators, tokens⟩ (declarators endLine tokens) := by
  refine advances_declarator.bind fun first hfirst => ?_
  split
  · rename_i hrest
    rw [hrest] at hfirst
    refine (advances_further hfirst.skip).bind fun others hothers => ?_
    exact hothers
  · exact hfirst

theorem advances_test (h : tokens <:+ c.tokens) : Advances c (test endLine tokens) := by
  refine (advances_takeSymbol h).bind fun start hstart => ?_
  refine (advances_further hstart).bind fun test htest => ?_
  refine (advances_takeSymbol htest.suffix).bind fun close hclose => ?_
  exact hclose

theorem advances_result (h : Past c.tokens tokens) : Advances c (result tokens) := by
  unfold result
  split
  · exact h
  · refine (advances_further h).bind fun result hresult => ?_
    exact hresult

theorem advances_declaration {line : Nat} {kind : DeclKind} (h : Past c.tokens tokens) :
    Advances c (declaration line kind tokens) := by
  refine (advances_further h).bind fun declarators hdeclarators => ?_
  exact hdeclarators.trans_suffix (skipSemicolon_suffix _)

theorem advances_statement : Advances ⟨.statement, tokens⟩ (statement endLine tokens) := by
  unfold statement
  split
  · refine (advances_takeName (List.suffix_cons _ _)).bind fun name hname => ?_
    refine (advances_takeSymbol hname.suffix).bind fun start hstart => ?_
    refine (advances_params hstart).bind fun params hparams => ?_
    refine (advances_further hparams).bind fun body hbody => ?_
    exact hbody
  · refine (advances_tighter (by decide) rfl).bind fun body hbody => ?_
    exact hbody
  · exact advances_declaration .tail
  · exact advances_declaration .tail
  · exact advances_declaration .tail
  · refine (advances_test (List.suffix_cons _ _)).bind fun test htest => ?_
    refine (advances_further htest).bind fun consequent hconsequent => ?_
    split
    · rename_i hrest
      rw [hrest] at hconsequent
      refine (advances_further hconsequent.skip).bind fun alternate halternate => ?_
      exact halternate
    · exact hconsequent
  · refine (advances_test (List.suffix_cons _ _)).bind fun test htest => ?_
    refine (advances_further htest).bind fun body hbody => ?_
    exact hbody
  · refine (advances_result .tail).bind fun result hresult => ?_
    exact hresult.trans_suffix (skipSemicolon_suffix _)
  · trivial
  · refine (advances_tighter (by decide) rfl).bind fun expr hexpr => ?_
    exact hexpr.trans_suffix (skipSemicolon_suffix _)

theorem advances_block : Advances ⟨.block, tokens⟩ (block endLine tokens) := by
  refine (advances_takeSymbol List.suffix_rfl).bind fun start hstart => ?_
  exact advances_further hstart

theorem advances_body : Advances ⟨.body, tokens⟩ (body endLine tokens) := by
  unfold body
  split
  · trivial
  · exact Past.tail
  · exact advances_further .tail
  · refine (advances_tighter (by decide) rfl).bind fun first hfirst => ?_
    refine (advances_further hfirst).bind fun others hothers => ?_
    exact hothers

theorem meets_program :
    (program tokens).Meets Promise (Below · ⟨.program, tokens⟩) (Promise ⟨.program, tokens⟩) := by
  have hpast : ∀ a : Taken (List Stmt), Past tokens a.2 → Promise ⟨.program, tokens⟩ a :=
    fun _ h => ⟨h.suffix, fun _ => h.shorter⟩
  unfold program
  split
  · exact ⟨List.suffix_rfl, fun h => absurd h Bool.false_ne_true⟩
  · exact (advances_further .tail).mono hpast
  · refine (advances_tighter (by decide) rfl).bind fun first hfirst => ?_
    refine (advances_further hfirst).bind fun others hothers => ?_
    exact hpast _ hothers

end Advances

variable {endLine : Nat}

/-- Each script calls only what is below it and keeps its promise. -/
theorem meets_script (c : Call) :
    (c.script endLine).Meets Promise (Below · c) (Promise c) := by
  have hadvances : ∀ s : Steps c.Answer, Advances c s → s.Meets Promise (Below · c) (Promise c) :=
    fun s hs => hs.mono fun _ h => ⟨h.suffix, fun _ => h.shorter⟩
  obtain ⟨goal, tokens⟩ := c
  cases goal with
  | program => exact meets_program
  | statement => exact hadvances _ advances_statement
  | block => exact hadvances _ advances_block
  | body => exact hadvances _ advances_body
  | names => exact hadvances _ advances_names
  | declarators => exact hadvances _ advances_declarators
  | assignment => exact hadvances _ advances_assignment
  | binary least => exact hadvances _ advances_binary
  | climb least left => exact meets_climb
  | unary => exact hadvances _ advances_unary
  | step => exact hadvances _ advances_step
  | primary => exact hadvances _ advances_primary

/-! ## Outcomes -/

theorem promise_outcome {c : Call} {a : c.Answer} (h : c.outcome endLine = .ok a) : Promise c a :=
  promise_of_meets (fun _ _ hbelow => hbelow.rank_lt) meets_script run_script c a h

/-- The calls that are made on a call. -/
def calls (endLine : Nat) (c : Call) : List Call :=
  (c.script endLine).calls (outcome endLine)

theorem below_of_mem_calls {c d : Call} (h : d ∈ c.calls endLine) : Below d c :=
  (meets_script c).calls (fun _ _ _ => promise_outcome) d h

theorem attempt_script {c : Call} {fuel : Nat} (h : c.rank < fuel) :
    attempt (script endLine) fuel c = some (c.outcome endLine) :=
  attempt_eq_some run_script (fun _ _ hd => (below_of_mem_calls hd).rank_lt) h

/-- What ends the tokens from a position on begins at a later position. -/
theorem exists_position {tokens rest : List PlacedToken} {current : Nat}
    (hcurrent : current ≤ tokens.length) (h : rest <:+ tokens.drop current) :
    ∃ next, rest = tokens.drop next ∧ current ≤ next ∧ next ≤ tokens.length ∧
      rest.length = tokens.length - next := by
  have hlength : rest.length ≤ tokens.length - current := by
    simpa using h.length_le
  have hrest : rest = tokens.drop (tokens.length - rest.length) :=
    List.suffix_iff_eq_drop.1 (h.trans (List.drop_suffix _ _))
  exact ⟨tokens.length - rest.length, hrest, by omega, by omega, by omega⟩

end Call

/-- The parser makes progress and ends.  Wherever a parser is called on the tokens, its
outcome is what its script makes of the outcomes of the calls it makes; each of these stands
on fewer tokens, or on as many at a tighter level; what it takes ends further on, and no
later than the tokens do; and it comes to its outcome with calls inside each other only seven
deep for each token that is left, and for the end. -/
theorem parsing_ends (tokens : List PlacedToken) :
    (∀ fuel, 7 * (tokens.length + 1) ≤ fuel →
      attempt (Call.script (lastLine tokens)) fuel ⟨.program, tokens⟩
          = some ((Program.ofTokens tokens).map fun p => (p.body, [])) ∧
        attempt (Call.script (lastLine tokens)) fuel ⟨.assignment, tokens⟩
          = some (reading (Expr.parse (lastLine tokens) tokens))) ∧
      ∀ (endLine : Nat) (c : Call) (current : Nat), current ≤ tokens.length →
        c.tokens = tokens.drop current →
        (c.script endLine).run (Call.outcome endLine) = c.outcome endLine ∧
          (∀ d ∈ c.calls endLine, ∃ next, d.tokens = tokens.drop next ∧ next ≤ tokens.length ∧
            Prod.Lex (· < ·) (· < ·) (tokens.length - next, d.goal.level)
              (tokens.length - current, c.goal.level)) ∧
          (∀ a, c.outcome endLine = .ok a →
            ∃ next, a.2 = tokens.drop next ∧ current ≤ next ∧ next ≤ tokens.length ∧
              (c.goal.takesToken = true → current < next)) ∧
          ∀ fuel, 7 * (tokens.length - current + 1) ≤ fuel →
            attempt (Call.script endLine) fuel c = some (c.outcome endLine) := by
  refine ⟨fun fuel hfuel => ?_, fun endLine c current hcurrent hc => ?_⟩
  · have hall : ∀ goal, attempt (Call.script (lastLine tokens)) fuel ⟨goal, tokens⟩
        = some (Call.outcome (lastLine tokens) ⟨goal, tokens⟩) :=
      fun goal => Call.attempt_script (Call.rank_lt hfuel)
    refine ⟨?_, hall .assignment⟩
    rw [hall .program, Call.outcome, Program.ofTokens]
    cases Stmt.parseAll (lastLine tokens) tokens <;> rfl
  · have hlength : c.tokens.length = tokens.length - current := by
      rw [hc, List.length_drop]
    refine ⟨Call.run_script c, fun d hd => ?_, fun a ha => ?_, fun fuel hfuel => ?_⟩
    · have hbelow := Call.below_of_mem_calls hd
      obtain ⟨next, htokens, -, hnext, hrest⟩ :=
        Call.exists_position hcurrent (hc ▸ hbelow.suffix)
      refine ⟨next, htokens, hnext, ?_⟩
      rw [← hrest, ← hlength]
      exact hbelow.smaller
    · have hpromise := Call.promise_outcome ha
      obtain ⟨next, htokens, hle, hnext, hrest⟩ :=
        Call.exists_position hcurrent (hc ▸ hpromise.suffix)
      refine ⟨next, htokens, hle, hnext, fun hgoal => ?_⟩
      have hshorter := hpromise.shorter hgoal
      omega
    · exact Call.attempt_script (Call.rank_lt (hlength ▸ hfuel))

/-- The tokens of `if (a) { x = -y; }` on three lines. -/
private def negatesInBranch : List PlacedToken :=
  [⟨.keyword .ifWord, 1⟩, ⟨.symbol .leftParen, 1⟩, ⟨.identifier "a", 1⟩, ⟨.symbol .rightParen, 1⟩,
   ⟨.symbol .leftBrace, 1⟩, ⟨.identifier "x", 2⟩, ⟨.symbol .assign, 2⟩, ⟨.symbol .minus, 2⟩,
   ⟨.identifier "y", 2⟩, ⟨.symbol .semicolon, 2⟩, ⟨.symbol .rightBrace, 3⟩]

/-- The statement of the branch. -/
private def negation : Stmt :=
  .expression 2 (.assign 2 .assign "x" (.unary 2 .neg (.identifier 2 "y")))

theorem parsing_ends_negatesInBranch :
    (⟨.statement, negatesInBranch.drop 5⟩ : Call) ∈ Call.calls 3 ⟨.body, negatesInBranch.drop 5⟩ ∧
      (∃ next, negatesInBranch.drop 5 = negatesInBranch.drop next ∧ next ≤ 11 ∧
        Prod.Lex (· < ·) (· < ·) (11 - next, 5) (6, 6)) ∧
      Call.outcome 3 ⟨.body, negatesInBranch.drop 5⟩ = .ok ([negation], []) ∧
      (∃ next, [] = negatesInBranch.drop next ∧ 5 < next ∧ next ≤ 11) ∧
      attempt (Call.script 3) 84 ⟨.program, negatesInBranch⟩
        = some ((Program.ofTokens negatesInBranch).map fun p => (p.body, [])) := by
  obtain ⟨hwhole, hparts⟩ := parsing_ends negatesInBranch
  obtain ⟨-, hbelow, htaken, hfuel⟩ :=
    hparts 3 ⟨.body, negatesInBranch.drop 5⟩ 5 (by decide) rfl
  have hcall : (⟨.statement, negatesInBranch.drop 5⟩ : Call)
      ∈ Call.calls 3 ⟨.body, negatesInBranch.drop 5⟩ := by
    show _ ∈ Script.calls (Call.outcome 3) (.call ⟨.statement, negatesInBranch.drop 5⟩ _)
    rw [Script.calls]
    exact List.mem_cons_self
  have houtcome : Call.outcome 3 ⟨.body, negatesInBranch.drop 5⟩ = .ok ([negation], []) :=
    Option.some.inj ((hfuel 49 (by decide)).symm.trans rfl)
  obtain ⟨next, hrest, -, hle, hlt⟩ := htaken _ houtcome
  exact ⟨hcall, hbelow _ hcall, houtcome, ⟨next, hrest, hlt rfl, hle⟩, (hwhole 84 (by decide)).1⟩

end TraceGraph
