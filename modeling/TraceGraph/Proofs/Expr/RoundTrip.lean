import TraceGraph.Proofs.Expr.Grammar
import TraceGraph.Proofs.Expr.Printed
import TraceGraph.Proofs.Stmt.Relined

/-!
# Printed expressions are read back

A printed number may be more than one token: a sign is read as an operator, and a
double without digits as a name.  `Expr.spelledOut` puts these trees in the place
of the numbers.

* `Expr.reads_tokens`: the tokens of a printed expression are an expression, and
  its tree is the one that is spelled out, up to lines.
* `Expr.Reads.leaves`: the names and numbers of a tree are among its tokens.
-/

namespace TraceGraph

/-! ## Numbers spelled out -/

/-- A number without a sign, as its text is read. -/
def magnitudeExpr (line : Nat) (x : Float) : Expr :=
  if x.isInf then .identifier line "Infinity" else .literal line (.number x)

/-- A literal, as its text is read. -/
def Literal.spelledOut (line : Nat) : Literal → Expr
  | .number x =>
    if x.isNaN then .identifier line "NaN"
    else if Number.signBit x then .unary line .neg (magnitudeExpr line x.abs)
    else magnitudeExpr line x
  | value => .literal line value

namespace Expr

/-- The expression with each literal replaced by what its text is read as. -/
def spelledOut : Expr → Expr
  | .literal line value => value.spelledOut line
  | .identifier line name => .identifier line name
  | .unary line op operand => .unary line op operand.spelledOut
  | .binary line op left right => .binary line op left.spelledOut right.spelledOut
  | .assign line op target value => .assign line op target value.spelledOut
  | .update line op leading target => .update line op leading target

/-! ## Reading printed tokens -/

/-- The tokens are an expression of level `n` that is equal to `e` up to lines. -/
def ReadsAs (n : Nat) (placed : List PlacedToken) (e : Expr) : Prop :=
  ∃ e', Reads n placed e' ∧ e'.eraseLines = e.eraseLines

theorem placed_eq_singleton {placed : List PlacedToken} {token : Token}
    (hplaced : placed.map PlacedToken.token = [token]) : ∃ line, placed = [⟨token, line⟩] := by
  obtain ⟨⟨_, line⟩, rest, rfl, rfl, hrest⟩ := List.map_eq_cons_iff.1 hplaced
  rw [List.map_eq_nil_iff.1 hrest]
  exact ⟨line, rfl⟩

private theorem readsAs_magnitude {x : Float} {placed : List PlacedToken} (line : Nat)
    (hplaced : placed.map PlacedToken.token = magnitudeTokens x) :
    ReadsAs primaryPrecedence placed (magnitudeExpr line x) := by
  rw [magnitudeTokens] at hplaced
  rw [magnitudeExpr]
  split at hplaced
  · rename_i hinf
    obtain ⟨start, rfl⟩ := placed_eq_singleton hplaced
    rw [if_pos hinf]
    exact ⟨_, .identifier (Nat.le_refl _), rfl⟩
  · rename_i hinf
    obtain ⟨start, rfl⟩ := placed_eq_singleton hplaced
    rw [if_neg hinf]
    exact ⟨_, .literal (Nat.le_refl _) rfl, rfl⟩

private theorem readsAs_literal {value : Literal} {placed : List PlacedToken} (line : Nat)
    (hplaced : placed.map PlacedToken.token = value.tokens) :
    ReadsAs unaryPrecedence placed (value.spelledOut line) := by
  cases value with
  | number x =>
    rw [Literal.tokens] at hplaced
    rw [Literal.spelledOut]
    split at hplaced
    · rename_i hnan
      obtain ⟨start, rfl⟩ := placed_eq_singleton hplaced
      rw [if_pos hnan]
      exact ⟨_, .identifier (by decide), rfl⟩
    rename_i hnan
    rw [if_neg hnan]
    split at hplaced
    · rename_i hsign
      rw [if_pos hsign]
      obtain ⟨⟨_, start⟩, rest, rfl, rfl, hrest⟩ := List.map_eq_cons_iff.1 hplaced
      obtain ⟨e', hreads, heq⟩ := readsAs_magnitude line hrest
      refine ⟨_, .unary (Nat.le_refl _) rfl (hreads.mono (by decide)), ?_⟩
      simp only [eraseLines, mapLines] at heq ⊢
      rw [heq]
    · rename_i hsign
      rw [if_neg hsign]
      obtain ⟨e', hreads, heq⟩ := readsAs_magnitude line hplaced
      exact ⟨e', hreads.mono (by decide), heq⟩
  | bool b =>
    cases b with
    | true =>
      obtain ⟨start, rfl⟩ := placed_eq_singleton hplaced
      exact ⟨_, .literal (by decide) rfl, rfl⟩
    | false =>
      obtain ⟨start, rfl⟩ := placed_eq_singleton hplaced
      exact ⟨_, .literal (by decide) rfl, rfl⟩
  | text s =>
    obtain ⟨start, rfl⟩ := placed_eq_singleton hplaced
    exact ⟨_, .literal (by decide) rfl, rfl⟩

/-- Parentheses make an expression fit any level, and without them its own level
must be tight enough. -/
private theorem readsAs_wrap {m n : Nat} {wrap : Bool} {tokens : List Token} {e : Expr}
    (h : ∀ placed : List PlacedToken, placed.map PlacedToken.token = tokens → ReadsAs m placed e)
    (hn : n ≤ primaryPrecedence) (hwrap : wrap = false → n ≤ m) {placed : List PlacedToken}
    (hplaced : placed.map PlacedToken.token = wrapTokens wrap tokens) : ReadsAs n placed e := by
  cases wrap with
  | false =>
    obtain ⟨e', hreads, heq⟩ := h placed hplaced
    exact ⟨e', hreads.mono (hwrap rfl), heq⟩
  | true =>
    obtain ⟨⟨_, start⟩, rest, rfl, rfl, hrest⟩ := List.map_eq_cons_iff.1 hplaced
    obtain ⟨inner, close, rfl, hinner, hclose⟩ := List.map_eq_append_iff.1 hrest
    obtain ⟨stop, rfl⟩ := placed_eq_singleton hclose
    obtain ⟨e', hreads, heq⟩ := h inner hinner
    exact ⟨e', .parens hn (hreads.mono (Nat.zero_le _)), heq⟩

/-- The tokens of a printed expression are read as the tree that is spelled
out. -/
theorem reads_tokens {e : Expr} {placed : List PlacedToken}
    (hplaced : placed.map PlacedToken.token = e.tokens) :
    ReadsAs (min e.precedence unaryPrecedence) placed e.spelledOut := by
  induction e generalizing placed with
  | literal line value =>
    obtain ⟨e', hreads, heq⟩ := readsAs_literal line hplaced
    exact ⟨e', hreads.mono (Nat.min_le_right _ _), heq⟩
  | identifier line name =>
    obtain ⟨start, rfl⟩ := placed_eq_singleton hplaced
    exact ⟨_, .identifier (Nat.le_trans (Nat.min_le_right _ _) (by decide)), rfl⟩
  | unary line op operand ih =>
    obtain ⟨⟨_, start⟩, rest, rfl, rfl, hrest⟩ := List.map_eq_cons_iff.1 hplaced
    obtain ⟨e', hreads, heq⟩ := readsAs_wrap (n := unaryPrecedence) (fun _ => ih) (by decide)
      (fun hwrap => by simp at hwrap; omega) hrest
    refine ⟨_, .unary (Nat.min_le_right _ _) op.unaryOp?_symbol hreads, ?_⟩
    simp only [spelledOut, eraseLines, mapLines] at heq ⊢
    rw [heq]
  | binary line op left right ihl ihr =>
    have hlow := precedence_lt_unary op
    obtain ⟨front, rest, rfl, hfront, hrest⟩ := List.map_eq_append_iff.1 hplaced
    obtain ⟨⟨_, start⟩, back, rfl, rfl, hback⟩ := List.map_eq_cons_iff.1 hrest
    obtain ⟨left', hleft, heql⟩ := readsAs_wrap (n := op.precedence) (fun _ => ihl)
      (by simp only [unaryPrecedence, primaryPrecedence] at hlow ⊢; omega)
      (fun hwrap => by simp at hwrap; omega) hfront
    obtain ⟨right', hright, heqr⟩ := readsAs_wrap (n := op.precedence + 1) (fun _ => ihr)
      (by simp only [unaryPrecedence, primaryPrecedence] at hlow ⊢; omega)
      (fun hwrap => by simp at hwrap; omega) hback
    refine ⟨_, .binary (Nat.min_le_left _ _) op.binaryOp?_symbol hleft hright, ?_⟩
    simp only [spelledOut, eraseLines, mapLines] at heql heqr ⊢
    rw [heql, heqr]
  | assign line op target value ih =>
    obtain ⟨⟨_, start⟩, rest, rfl, rfl, hrest⟩ := List.map_eq_cons_iff.1 hplaced
    obtain ⟨⟨_, stop⟩, others, rfl, rfl, hothers⟩ := List.map_eq_cons_iff.1 hrest
    obtain ⟨e', hreads, heq⟩ := ih hothers
    refine ⟨_, .assign op.assignOp?_symbol (hreads.mono (Nat.zero_le _)), ?_⟩
    simp only [spelledOut, eraseLines, mapLines] at heq ⊢
    rw [heq]
  | update line op leading target =>
    cases leading with
    | true =>
      obtain ⟨⟨_, start⟩, rest, rfl, rfl, hrest⟩ := List.map_eq_cons_iff.1 hplaced
      obtain ⟨stop, rfl⟩ := placed_eq_singleton hrest
      exact ⟨_, .stepBefore (Nat.min_le_right _ _) op.updateOp?_symbol, rfl⟩
    | false =>
      obtain ⟨⟨_, start⟩, rest, rfl, rfl, hrest⟩ := List.map_eq_cons_iff.1 hplaced
      obtain ⟨stop, rfl⟩ := placed_eq_singleton hrest
      exact ⟨_, .stepAfter (Nat.le_trans (Nat.min_le_right _ _) (by decide))
        (.identifier (Nat.le_refl _)) op.updateOp?_symbol, rfl⟩

/-! ## Names and numbers -/

/-- The names and numbers of a tree are among the tokens that it is read from. -/
theorem Reads.leaves {n : Nat} {tokens : List PlacedToken} {e : Expr} (h : Reads n tokens e)
    {okName : String → Prop} {okNumber : Float → Prop}
    (hleaf : ∀ t ∈ tokens, t.token.Leaf okName okNumber) : e.Leaves okName okNumber := by
  induction h with
  | @literal _ line token value _ hvalue =>
    unfold Token.literal? at hvalue
    split at hvalue <;> cases hvalue
    · exact hleaf _ List.mem_cons_self
    all_goals trivial
  | identifier => exact hleaf _ List.mem_cons_self
  | parens _ _ ih =>
    exact ih fun t ht => hleaf t (List.mem_cons_of_mem _ (List.mem_append_left _ ht))
  | stepAfter _ _ _ ih => exact ih fun t ht => hleaf t (List.mem_append_left _ ht)
  | stepBefore => exact hleaf _ (List.mem_cons_of_mem _ List.mem_cons_self)
  | unary _ _ _ ih => exact ih fun t ht => hleaf t (List.mem_cons_of_mem _ ht)
  | binary _ _ _ _ ihl ihr =>
    constructor
    · exact ihl fun t ht => hleaf t (List.mem_append_left _ ht)
    · exact ihr fun t ht => hleaf t (List.mem_append_right _ (List.mem_cons_of_mem _ ht))
  | assign _ _ ih =>
    refine ⟨hleaf _ List.mem_cons_self, ih fun t ht => hleaf t ?_⟩
    exact List.mem_cons_of_mem _ (List.mem_cons_of_mem _ ht)

end Expr

end TraceGraph
