import TraceGraph.Expr.Printer
import TraceGraph.Proofs.Expr.Reading

/-!
# The grammar of expressions

`Expr.Reads n tokens e` says that the tokens, with their lines, are an expression
of level `n` with the tree `e`.  Level 0 is assignment, levels 1 to 6 are the
binary operators by their binding strength, and levels 7, 8 and 9 are operators
before an operand, steps after a name, and primary expressions.

* `Expr.reads_of_parse`: what the parser takes off the front is an expression
  with the tree that it returns.
* `Expr.parse_of_reads`: the parser takes any expression off the front, if what
  follows cannot belong to it.
-/

namespace TraceGraph

/-- The value that the token stands for as an expression. -/
def Token.literal? : Token → Option Literal
  | .number x => some (.number x)
  | .text s => some (.text s)
  | .keyword .trueWord => some (.bool true)
  | .keyword .falseWord => some (.bool false)
  | _ => none

namespace Expr

/-- The tokens are an expression of level `n` with the given tree. -/
inductive Reads : Nat → List PlacedToken → Expr → Prop
  | literal {n line : Nat} {token : Token} {value : Literal} (hn : n ≤ primaryPrecedence)
      (hvalue : token.literal? = some value) : Reads n [⟨token, line⟩] (.literal line value)
  | identifier {n line : Nat} {name : String} (hn : n ≤ primaryPrecedence) :
      Reads n [⟨.identifier name, line⟩] (.identifier line name)
  | parens {n start stop : Nat} {tokens : List PlacedToken} {e : Expr}
      (hn : n ≤ primaryPrecedence) (inner : Reads 0 tokens e) :
      Reads n (⟨.symbol .leftParen, start⟩ :: (tokens ++ [⟨.symbol .rightParen, stop⟩])) e
  | stepAfter {n line stop : Nat} {tokens : List PlacedToken} {name : String} {mark : Symbol}
      {op : UpdateOp} (hn : n ≤ updatePrecedence)
      (operand : Reads primaryPrecedence tokens (.identifier line name))
      (hop : mark.updateOp? = some op) :
      Reads n (tokens ++ [⟨.symbol mark, stop⟩]) (.update line op false name)
  | stepBefore {n line stop : Nat} {name : String} {mark : Symbol} {op : UpdateOp}
      (hn : n ≤ unaryPrecedence) (hop : mark.updateOp? = some op) :
      Reads n [⟨.symbol mark, line⟩, ⟨.identifier name, stop⟩] (.update line op true name)
  | unary {n line : Nat} {tokens : List PlacedToken} {mark : Symbol} {op : UnaryOp} {e : Expr}
      (hn : n ≤ unaryPrecedence) (hop : mark.unaryOp? = some op)
      (operand : Reads unaryPrecedence tokens e) :
      Reads n (⟨.symbol mark, line⟩ :: tokens) (.unary line op e)
  | binary {n line : Nat} {front back : List PlacedToken} {mark : Symbol} {op : BinaryOp}
      {left right : Expr} (hn : n ≤ op.precedence) (hop : mark.binaryOp? = some op)
      (hleft : Reads op.precedence front left) (hright : Reads (op.precedence + 1) back right) :
      Reads n (front ++ ⟨.symbol mark, line⟩ :: back) (.binary left.line op left right)
  | assign {line stop : Nat} {tokens : List PlacedToken} {name : String} {mark : Symbol}
      {op : AssignOp} {value : Expr} (hop : mark.assignOp? = some op)
      (hvalue : Reads 0 tokens value) :
      Reads 0 (⟨.identifier name, line⟩ :: ⟨.symbol mark, stop⟩ :: tokens)
        (.assign line op name value)

/-- An expression of one level is one of every looser level. -/
theorem Reads.mono {m n : Nat} {tokens : List PlacedToken} {e : Expr} (h : Reads n tokens e)
    (hm : m ≤ n) : Reads m tokens e := by
  cases h with
  | literal hn hvalue => exact .literal (Nat.le_trans hm hn) hvalue
  | identifier hn => exact .identifier (Nat.le_trans hm hn)
  | parens hn inner => exact .parens (Nat.le_trans hm hn) inner
  | stepAfter hn operand hop => exact .stepAfter (Nat.le_trans hm hn) operand hop
  | stepBefore hn hop => exact .stepBefore (Nat.le_trans hm hn) hop
  | unary hn hop operand => exact .unary (Nat.le_trans hm hn) hop operand
  | binary hn hop hleft hright => exact .binary (Nat.le_trans hm hn) hop hleft hright
  | assign hop hvalue =>
    obtain rfl : m = 0 := Nat.le_zero.1 hm
    exact .assign hop hvalue

/-- Whether an expression can begin with the token. -/
def opensWith : Token → Bool
  | .number _ | .text _ | .identifier _ | .keyword .trueWord | .keyword .falseWord => true
  | .symbol mark => mark = .leftParen || mark.unaryOp?.isSome || mark.updateOp?.isSome
  | _ => false

theorem Reads.opens {n : Nat} {tokens : List PlacedToken} {e : Expr} (h : Reads n tokens e) :
    ∃ token line others, tokens = ⟨token, line⟩ :: others ∧ opensWith token = true := by
  induction h with
  | @literal _ line token value _ hvalue =>
    refine ⟨token, line, [], rfl, ?_⟩
    unfold Token.literal? at hvalue
    split at hvalue <;> cases hvalue <;> rfl
  | identifier => exact ⟨_, _, _, rfl, rfl⟩
  | parens => exact ⟨_, _, _, rfl, rfl⟩
  | stepAfter _ _ _ ih =>
    obtain ⟨token, line, others, rfl, htoken⟩ := ih
    exact ⟨token, line, _, rfl, htoken⟩
  | stepBefore _ hop => exact ⟨_, _, _, rfl, by simp [opensWith, hop]⟩
  | unary _ hop => exact ⟨_, _, _, rfl, by simp [opensWith, hop]⟩
  | binary _ _ _ _ ih =>
    obtain ⟨token, line, others, rfl, htoken⟩ := ih
    exact ⟨token, line, _, rfl, htoken⟩
  | assign => exact ⟨_, _, _, rfl, rfl⟩

/-! ## What the parser takes is an expression -/

/-- No operator between operands follows that binds tighter than `n`. -/
def OpsUpTo (n : Nat) (tokens : List PlacedToken) : Prop :=
  ∀ mark op, nextToken? tokens = some (.symbol mark) → mark.binaryOp? = some op → op.precedence ≤ n

theorem precedence_pos (op : BinaryOp) : 0 < op.precedence := by
  cases op <;> decide

theorem precedence_lt_unary (op : BinaryOp) : op.precedence < unaryPrecedence := by
  cases op <;> decide

private theorem step_reads {operand : Expr × List PlacedToken} {front rest : List PlacedToken}
    {e : Expr} (hstep : step operand = .ok (e, rest))
    (hreads : Reads primaryPrecedence front operand.1) :
    ∃ more, operand.2 = more ++ rest ∧ Reads updatePrecedence (front ++ more) e := by
  obtain ⟨value, tokens⟩ := operand
  unfold step at hstep
  split at hstep
  · rename_i mark line others htokens
    split at hstep
    · cases hstep
      exact ⟨[], rfl, by simpa using hreads.mono (by decide)⟩
    · rename_i op hop
      split at hstep
      · rename_i start name hvalue
        cases hstep
        obtain rfl : value = .identifier start name := hvalue
        exact ⟨[⟨.symbol mark, line⟩], htokens, .stepAfter (Nat.le_refl _) hreads hop⟩
      · cases hstep
  · cases hstep
    exact ⟨[], rfl, by simpa using hreads.mono (by decide)⟩

private theorem OpsUpTo.of_not_symbol {n : Nat} {tokens : List PlacedToken}
    (h : ∀ mark line rest, tokens = ⟨.symbol mark, line⟩ :: rest → False) : OpsUpTo n tokens := by
  intro mark op hnext _
  cases tokens with
  | nil => cases hnext
  | cons first rest =>
    obtain ⟨token, line⟩ := first
    cases hnext
    exact absurd rfl (h mark line rest)

mutual

/-- What the parser takes off the front is an expression with the tree that it
returns. -/
theorem reads_of_parse (endLine : Nat) (tokens : List PlacedToken) {e : Expr}
    {rest : List PlacedToken} (h : reading (parse endLine tokens) = .ok (e, rest)) :
    ∃ front, tokens = front ++ rest ∧ Reads 0 front e := by
  have hbinary : reading (parseBinary endLine 1 tokens) = .ok (e, rest) →
      ∃ front, tokens = front ++ rest ∧ Reads 0 front e := by
    intro h
    obtain ⟨front, heq, hreads, -⟩ := reads_parseBinary endLine 1 tokens (by decide) h
    exact ⟨front, heq, hreads.mono (by decide)⟩
  rw [reading_parse] at h
  split at h
  · rename_i name line mark markLine others
    split at h
    · rename_i op hop
      obtain ⟨⟨value, rest'⟩, hvalue, heq⟩ := map_eq_ok_iff.1 h
      cases heq
      obtain ⟨front, rfl, hreads⟩ := reads_of_parse endLine others hvalue
      exact ⟨⟨.identifier name, line⟩ :: ⟨.symbol mark, markLine⟩ :: front, rfl, .assign hop hreads⟩
    · exact hbinary h
  · exact hbinary h
termination_by (tokens.length, 4)

private theorem reads_parseBinary (endLine least : Nat) (tokens : List PlacedToken)
    (hleast : least ≤ unaryPrecedence) {e : Expr} {rest : List PlacedToken}
    (h : reading (parseBinary endLine least tokens) = .ok (e, rest)) :
    ∃ front, tokens = front ++ rest ∧ Reads least front e ∧
      ∀ n, least ≤ n + 1 → OpsUpTo n rest := by
  rw [reading_parseBinary] at h
  obtain ⟨⟨left, others⟩, hleft, hclimb⟩ := bind_eq_ok_iff.1 h
  have hshort := reading_length_lt hleft
  obtain ⟨front, rfl, hreads⟩ := reads_parseUnary endLine tokens hleft
  have hall : OpsUpTo unaryPrecedence others :=
    fun _ op _ _ => Nat.le_of_lt (precedence_lt_unary op)
  obtain ⟨more, rfl, hwhole, hops⟩ :=
    reads_climb endLine least left others hreads hleast hall hclimb
  exact ⟨front ++ more, by simp, hwhole, hops⟩
termination_by (tokens.length, 3)

/-- The operand that has been read so far is of a level `m` that no operator
after it exceeds, so it can be the left operand of whatever follows. -/
private theorem reads_climb (endLine least : Nat) (left : Expr) (tokens : List PlacedToken)
    {m : Nat} {front : List PlacedToken} (hleft : Reads m front left) (hm : least ≤ m)
    (hops : OpsUpTo m tokens) {e : Expr} {rest : List PlacedToken}
    (h : reading (climb endLine least left tokens) = .ok (e, rest)) :
    ∃ more, tokens = more ++ rest ∧ Reads least (front ++ more) e ∧
      ∀ n, least ≤ n + 1 → OpsUpTo n rest := by
  have hstop : ∀ (others : List PlacedToken), (∀ n, least ≤ n + 1 → OpsUpTo n others) →
      ∃ more, others = more ++ others ∧ Reads least (front ++ more) left ∧
        ∀ n, least ≤ n + 1 → OpsUpTo n others :=
    fun others hothers => ⟨[], rfl, by simpa using hleft.mono hm, hothers⟩
  rw [reading_climb] at h
  split at h
  · rename_i mark line others
    split at h
    · rename_i op hop
      have hop_le : op.precedence ≤ m := hops mark op rfl hop
      split at h
      · rename_i hlow
        cases h
        refine hstop _ fun n hn mark' op' hmark hop' => ?_
        cases hmark
        rw [hop] at hop'
        cases hop'
        omega
      · rename_i hhigh
        obtain ⟨⟨right, others'⟩, hright, hclimb⟩ := bind_eq_ok_iff.1 h
        have hshort := reading_length_lt hright
        obtain ⟨back, rfl, hback, hops'⟩ :=
          reads_parseBinary endLine (op.precedence + 1) others (precedence_lt_unary op) hright
        have hbinary : Reads op.precedence (front ++ ⟨.symbol mark, line⟩ :: back)
            (.binary left.line op left right) :=
          .binary (Nat.le_refl _) hop (hleft.mono hop_le) hback
        obtain ⟨more, rfl, hwhole, hrest⟩ := reads_climb endLine least _ others' hbinary (by omega)
          (hops' _ (Nat.le_refl _)) hclimb
        refine ⟨⟨.symbol mark, line⟩ :: (back ++ more), by simp, ?_, hrest⟩
        simpa using hwhole
    · rename_i hop
      cases h
      refine hstop _ fun n hn mark' op' hmark hop' => ?_
      cases hmark
      rw [hop] at hop'
      cases hop'
  · rename_i hother
    cases h
    exact hstop _ fun n hn => .of_not_symbol hother
termination_by (tokens.length, 0)

private theorem reads_parseUnary (endLine : Nat) (tokens : List PlacedToken) {e : Expr}
    {rest : List PlacedToken} (h : reading (parseUnary endLine tokens) = .ok (e, rest)) :
    ∃ front, tokens = front ++ rest ∧ Reads unaryPrecedence front e := by
  have hprimary : (reading (parsePrimary endLine tokens)).bind step = .ok (e, rest) →
      ∃ front, tokens = front ++ rest ∧ Reads unaryPrecedence front e := by
    intro h
    obtain ⟨operand, hoperand, hstep⟩ := bind_eq_ok_iff.1 h
    obtain ⟨front, hfront, hreads⟩ := reads_parsePrimary endLine tokens hoperand
    obtain ⟨more, hmore, hwhole⟩ := step_reads hstep hreads
    refine ⟨front ++ more, ?_, hwhole.mono (by decide)⟩
    rw [hfront, hmore, List.append_assoc]
  rw [reading_parseUnary] at h
  split at h
  · rename_i mark line others
    split at h
    · rename_i op hop
      obtain ⟨⟨operand, rest'⟩, hoperand, heq⟩ := map_eq_ok_iff.1 h
      cases heq
      obtain ⟨front, rfl, hreads⟩ := reads_parseUnary endLine others hoperand
      exact ⟨⟨.symbol mark, line⟩ :: front, rfl, .unary (Nat.le_refl _) hop hreads⟩
    · rename_i op _ hop
      obtain ⟨⟨name, rest'⟩, hname, heq⟩ := map_eq_ok_iff.1 h
      cases heq
      obtain ⟨stop, rfl⟩ := reading_expectIdentifier.1 hname
      exact ⟨[⟨.symbol mark, line⟩, ⟨.identifier name, stop⟩], rfl, .stepBefore (Nat.le_refl _) hop⟩
    · exact hprimary h
  · exact hprimary h
termination_by (tokens.length, 2)

private theorem reads_parsePrimary (endLine : Nat) (tokens : List PlacedToken)
    {operand : Expr × List PlacedToken}
    (h : reading (parsePrimary endLine tokens) = .ok operand) :
    ∃ front, tokens = front ++ operand.2 ∧ Reads primaryPrecedence front operand.1 := by
  rw [reading_parsePrimary] at h
  split at h
  · cases h
  · rename_i token line others
    split at h
    · cases h
      exact ⟨[_], rfl, .literal (Nat.le_refl _) rfl⟩
    · cases h
      exact ⟨[_], rfl, .literal (Nat.le_refl _) rfl⟩
    · cases h
      exact ⟨[_], rfl, .literal (Nat.le_refl _) rfl⟩
    · cases h
      exact ⟨[_], rfl, .literal (Nat.le_refl _) rfl⟩
    · split at h
      · cases h
      · cases h
        exact ⟨[_], rfl, .identifier (Nat.le_refl _)⟩
    · obtain ⟨⟨inner, rest⟩, hinner, hclose⟩ := bind_eq_ok_iff.1 h
      obtain ⟨⟨_, rest'⟩, hparen, heq⟩ := map_eq_ok_iff.1 hclose
      cases heq
      obtain ⟨front, rfl, hreads⟩ := reads_of_parse endLine others hinner
      obtain ⟨stop, hstop⟩ := reading_expectSymbol.1 hparen
      refine ⟨⟨.symbol .leftParen, line⟩ :: (front ++ [⟨.symbol .rightParen, stop⟩]), ?_,
        .parens (Nat.le_refl _) hreads⟩
      simpa using hstop
    all_goals cases h
termination_by (tokens.length, 1)

end

/-! ## The parser takes every expression -/

/-- What comes next cannot belong to an expression of level `n`: it opens no call,
is neither a step nor an assignment, and binds at most as tightly as the level. -/
structure Follows (n : Nat) (rest : List PlacedToken) : Prop where
  ops : OpsUpTo n rest
  not_call : nextToken? rest ≠ some (.symbol .leftParen)
  not_step : ∀ mark, nextToken? rest = some (.symbol mark) → mark.updateOp? = none
  not_assign : ∀ mark, nextToken? rest = some (.symbol mark) → mark.assignOp? = none

theorem Follows.mono {m n : Nat} {rest : List PlacedToken} (h : Follows m rest) (hn : m ≤ n) :
    Follows n rest where
  ops mark op hmark hop := Nat.le_trans (h.ops mark op hmark hop) hn
  not_call := h.not_call
  not_step := h.not_step
  not_assign := h.not_assign

/-- No expression goes on with these symbols. -/
theorem follows_closing {mark : Symbol} (hmark : mark ∈ [.rightParen, .comma, .semicolon])
    (line : Nat) (rest : List PlacedToken) : Follows 0 (⟨.symbol mark, line⟩ :: rest) := by
  simp only [List.mem_cons, List.not_mem_nil, or_false] at hmark
  rcases hmark with rfl | rfl | rfl <;>
    exact ⟨by rintro _ _ ⟨⟩ ⟨⟩, by rintro ⟨⟩, by rintro _ ⟨⟩; rfl, by rintro _ ⟨⟩; rfl⟩

private theorem follows_operator {n line : Nat} {mark : Symbol} {op : BinaryOp}
    {rest : List PlacedToken} (hop : mark.binaryOp? = some op) (hn : op.precedence ≤ n) :
    Follows n (⟨.symbol mark, line⟩ :: rest) where
  ops mark' op' hmark hop' := by
    cases hmark
    rw [hop] at hop'
    cases hop'
    exact hn
  not_call h := by
    cases h
    cases hop
  not_step mark' h := by
    cases h
    cases mark <;> first | rfl | cases hop
  not_assign mark' h := by
    cases h
    cases mark <;> first | rfl | cases hop

private theorem reading_climb_stop {endLine least : Nat} {e : Expr} {rest : List PlacedToken}
    (h : ∀ mark op, nextToken? rest = some (.symbol mark) → mark.binaryOp? = some op →
      op.precedence < least) :
    reading (climb endLine least e rest) = .ok (e, rest) := by
  rw [reading_climb]
  split
  · rename_i mark line others
    split
    · rename_i op hop
      rw [if_pos (h mark op rfl hop)]
    · rfl
  · rfl

private theorem step_stop {e : Expr} {rest : List PlacedToken}
    (h : ∀ mark, nextToken? rest = some (.symbol mark) → mark.updateOp? = none) :
    step (e, rest) = .ok (e, rest) := by
  unfold step
  split
  · rename_i mark line others hrest
    obtain rfl : rest = ⟨.symbol mark, line⟩ :: others := hrest
    rw [h mark rfl]
  · rfl

/-- A primary expression does not begin with an operator. -/
private theorem Reads.unaryOp?_eq_none {n : Nat} {tokens : List PlacedToken} {e : Expr}
    (h : Reads n tokens e) (hn : n = primaryPrecedence) :
    ∃ token line others, tokens = ⟨token, line⟩ :: others ∧
      ∀ mark, token = .symbol mark → mark.unaryOp? = none ∧ mark.updateOp? = none := by
  subst hn
  cases h with
  | literal hn hvalue =>
    refine ⟨_, _, _, rfl, ?_⟩
    rintro mark rfl
    cases hvalue
  | identifier hn => exact ⟨_, _, _, rfl, by rintro mark ⟨⟩⟩
  | parens hn inner =>
    refine ⟨_, _, _, rfl, ?_⟩
    rintro mark ⟨⟩
    exact ⟨rfl, rfl⟩
  | stepAfter hn => exact absurd hn (by decide)
  | stepBefore hn => exact absurd hn (by decide)
  | unary hn => exact absurd hn (by decide)
  | @binary _ _ _ _ _ op _ _ hn =>
    have := precedence_lt_unary op
    simp only [primaryPrecedence, unaryPrecedence] at hn this
    omega

private theorem reading_parseUnary_primary {endLine : Nat} {tokens : List PlacedToken} {e : Expr}
    (h : Reads primaryPrecedence tokens e) (rest : List PlacedToken) :
    reading (parseUnary endLine (tokens ++ rest))
      = (reading (parsePrimary endLine (tokens ++ rest))).bind step := by
  obtain ⟨token, line, others, rfl, htoken⟩ := h.unaryOp?_eq_none rfl
  rw [List.cons_append, reading_parseUnary]
  split
  · rename_i heq
    cases heq
    obtain ⟨hunary, hupdate⟩ := htoken _ rfl
    rw [hunary, hupdate]
  · rfl

/-- What the parser does with the tokens of an expression of level `n`. -/
structure Parses (endLine n : Nat) (tokens : List PlacedToken) (e : Expr) : Prop where
  binary : ∀ least rest, least ≤ n → Follows n rest →
    reading (parseBinary endLine least (tokens ++ rest)) = reading (climb endLine least e rest)
  unary : unaryPrecedence ≤ n → ∀ rest, Follows n rest →
    reading (parseUnary endLine (tokens ++ rest)) = .ok (e, rest)
  primary : primaryPrecedence ≤ n → ∀ rest, nextToken? rest ≠ some (.symbol .leftParen) →
    reading (parsePrimary endLine (tokens ++ rest)) = .ok (e, rest)

private theorem Parses.mono {endLine m n : Nat} {tokens : List PlacedToken} {e : Expr}
    (h : Parses endLine n tokens e) (hm : m ≤ n) : Parses endLine m tokens e where
  binary least rest hleast hrest := h.binary least rest (Nat.le_trans hleast hm) (hrest.mono hm)
  unary hunary rest hrest := h.unary (Nat.le_trans hunary hm) rest (hrest.mono hm)
  primary hprimary := h.primary (Nat.le_trans hprimary hm)

private theorem Parses.of_unary {endLine n : Nat} {tokens : List PlacedToken} {e : Expr}
    (hn : n < primaryPrecedence)
    (h : ∀ rest, Follows n rest → reading (parseUnary endLine (tokens ++ rest)) = .ok (e, rest)) :
    Parses endLine n tokens e where
  binary least rest _ hrest := by
    rw [reading_parseBinary, h rest hrest]
    rfl
  unary _ := h
  primary hprimary := absurd hn (Nat.not_lt.2 hprimary)

private theorem Parses.of_primary {endLine : Nat} {tokens : List PlacedToken} {e : Expr}
    (hreads : Reads primaryPrecedence tokens e)
    (h : ∀ rest, nextToken? rest ≠ some (.symbol .leftParen) →
      reading (parsePrimary endLine (tokens ++ rest)) = .ok (e, rest)) :
    Parses endLine primaryPrecedence tokens e := by
  have hunary : ∀ rest, Follows primaryPrecedence rest →
      reading (parseUnary endLine (tokens ++ rest)) = .ok (e, rest) := by
    intro rest hrest
    rw [reading_parseUnary_primary hreads, h rest hrest.not_call]
    exact step_stop hrest.not_step
  refine ⟨fun least rest _ hrest => ?_, fun _ => hunary, fun _ => h⟩
  rw [reading_parseBinary, hunary rest hrest]
  rfl

/-- Only an assignment begins with a name and an assignment operator. -/
private theorem Reads.not_assign {n : Nat} {tokens rest : List PlacedToken} {e : Expr}
    (h : Reads n tokens e) (hn : 0 < n)
    (hrest : ∀ mark, nextToken? rest = some (.symbol mark) → mark.assignOp? = none)
    {name : String} {line markLine : Nat} {mark : Symbol} {others : List PlacedToken}
    (heq : tokens ++ rest = ⟨.identifier name, line⟩ :: ⟨.symbol mark, markLine⟩ :: others) :
    mark.assignOp? = none := by
  induction h generalizing rest others with
  | literal _ hvalue =>
    cases heq
    cases hvalue
  | identifier =>
    cases heq
    exact hrest mark rfl
  | parens => cases heq
  | @stepAfter _ _ stop _ _ sign _ _ _ hop ih =>
    rw [List.append_assoc] at heq
    refine ih (by decide) (fun mark' hmark => ?_) heq
    cases hmark
    cases sign <;> first | rfl | cases hop
  | stepBefore => cases heq
  | unary => cases heq
  | @binary _ _ _ _ sign op _ _ _ hop _ _ ih _ =>
    rw [List.append_assoc] at heq
    exact ih (precedence_pos op) (follows_operator hop (Nat.le_refl _)).not_assign heq
  | assign => exact absurd hn (Nat.lt_irrefl 0)

private theorem Parses.whole {endLine n : Nat} {tokens : List PlacedToken} {e : Expr}
    (h : Parses endLine n tokens e) (hreads : Reads n tokens e) (hn : 0 < n)
    {rest : List PlacedToken} (hrest : Follows 0 rest) :
    reading (parse endLine (tokens ++ rest)) = .ok (e, rest) := by
  have hbinary : reading (parseBinary endLine 1 (tokens ++ rest)) = .ok (e, rest) := by
    rw [h.binary 1 rest hn (hrest.mono (Nat.zero_le _))]
    refine reading_climb_stop fun mark op hmark hop => ?_
    exact Nat.lt_succ_of_le (hrest.ops mark op hmark hop)
  rw [reading_parse]
  split
  · rename_i heq
    rw [hreads.not_assign hn hrest.not_assign heq]
    exact hbinary
  · exact hbinary

private theorem parses_of_reads (endLine : Nat) {n : Nat} {tokens : List PlacedToken} {e : Expr}
    (h : Reads n tokens e) :
    (∀ rest, Follows 0 rest → reading (parse endLine (tokens ++ rest)) = .ok (e, rest)) ∧
      (0 < n → Parses endLine n tokens e) := by
  -- for all but assignments it is enough to parse at the tightest level they have
  have hlevel : ∀ {k n : Nat} {tokens : List PlacedToken} {e : Expr}, 0 < k → n ≤ k →
      Reads k tokens e → Parses endLine k tokens e →
      (∀ rest, Follows 0 rest → reading (parse endLine (tokens ++ rest)) = .ok (e, rest)) ∧
        (0 < n → Parses endLine n tokens e) :=
    fun hk hn hreads h => ⟨fun rest hrest => h.whole hreads hk hrest, fun _ => h.mono hn⟩
  induction h with
  | literal hn hvalue =>
    refine hlevel (by decide) hn (.literal (Nat.le_refl _) hvalue)
      (.of_primary (.literal (Nat.le_refl _) hvalue) fun rest _ => ?_)
    rw [List.singleton_append, reading_parsePrimary]
    unfold Token.literal? at hvalue
    split at hvalue <;> cases hvalue <;> rfl
  | identifier hn =>
    refine hlevel (by decide) hn (.identifier (Nat.le_refl _))
      (.of_primary (.identifier (Nat.le_refl _)) fun rest hrest => ?_)
    rw [List.singleton_append, reading_parsePrimary]
    exact if_neg hrest
  | @parens _ start stop tokens e hn inner ih =>
    refine hlevel (by decide) hn (.parens (Nat.le_refl _) inner)
      (.of_primary (.parens (Nat.le_refl _) inner) fun rest _ => ?_)
    rw [List.cons_append, List.append_assoc, List.singleton_append, reading_parsePrimary]
    dsimp only
    rw [ih.1 _ (follows_closing (by decide) stop rest)]
    rfl
  | @stepAfter _ line stop tokens name mark op hn operand hop ih =>
    refine hlevel (by decide) hn (.stepAfter (Nat.le_refl _) operand hop)
      (.of_unary (by decide) fun rest _ => ?_)
    have hnot : nextToken? (⟨.symbol mark, stop⟩ :: rest) ≠ some (.symbol .leftParen) := by
      rintro ⟨⟩
      cases hop
    rw [List.append_assoc, List.singleton_append, reading_parseUnary_primary operand,
      (ih.2 (by decide)).primary (Nat.le_refl _) _ hnot]
    show step (.identifier line name, ⟨.symbol mark, stop⟩ :: rest) = _
    simp only [step, hop]
  | @stepBefore _ line stop name mark op hn hop =>
    refine hlevel (by decide) hn (.stepBefore (Nat.le_refl _) hop)
      (.of_unary (by decide) fun rest _ => ?_)
    have hnot : mark.unaryOp? = none := by cases mark <;> first | rfl | cases hop
    rw [List.cons_append, reading_parseUnary]
    dsimp only
    rw [hnot, hop]
    rfl
  | @unary _ line tokens mark op e hn hop operand ih =>
    refine hlevel (by decide) hn (.unary (Nat.le_refl _) hop operand)
      (.of_unary (by decide) fun rest hrest => ?_)
    rw [List.cons_append, reading_parseUnary]
    dsimp only
    rw [hop, (ih.2 (by decide)).unary (Nat.le_refl _) rest hrest]
    rfl
  | @binary _ line front back mark op left right hn hop hleft hright ihl ihr =>
    refine hlevel (precedence_pos op) hn (.binary (Nat.le_refl _) hop hleft hright)
      ⟨fun least rest hleast hrest => ?_, fun h => ?_, fun h => ?_⟩
    · have hback := (ihr.2 (Nat.succ_pos _)).binary (op.precedence + 1) rest (Nat.le_refl _)
        (hrest.mono (Nat.le_succ _))
      rw [reading_climb_stop fun mark' op' hmark hop' =>
        Nat.lt_succ_of_le (hrest.ops mark' op' hmark hop')] at hback
      rw [List.append_assoc, List.cons_append, (ihl.2 (precedence_pos op)).binary least _ hleast
        (follows_operator hop (Nat.le_refl _)), reading_climb]
      dsimp only
      rw [hop]
      dsimp only
      rw [if_neg (Nat.not_lt.2 hleast), hback]
      rfl
    · exact absurd (precedence_lt_unary op) (Nat.not_lt.2 h)
    · have := precedence_lt_unary op
      simp only [unaryPrecedence, primaryPrecedence] at this h
      omega
  | @assign line stop tokens name mark op value hop hvalue ih =>
    refine ⟨fun rest hrest => ?_, fun h => absurd h (Nat.lt_irrefl 0)⟩
    rw [List.cons_append, List.cons_append, reading_parse]
    dsimp only
    rw [hop, ih.1 rest hrest]
    rfl

/-- The parser takes an expression off the front, if what follows cannot belong to
it. -/
theorem parse_of_reads (endLine : Nat) {tokens rest : List PlacedToken} {e : Expr}
    (h : Reads 0 tokens e) (hrest : Follows 0 rest) :
    reading (parse endLine (tokens ++ rest)) = .ok (e, rest) :=
  (parses_of_reads endLine h).1 rest hrest

end Expr

end TraceGraph
