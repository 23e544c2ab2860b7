import TraceGraph.Proofs.Expr.RoundTrip
import TraceGraph.Proofs.Stmt.Grammar

/-!
# Printed programs are read back

A program that has been read is printed as a text that is read as the same
program, up to lines.  The one exception are numbers too large for a double: they
are read as infinity, which is printed as a name.

* `Stmt.reads_tokens`: the tokens of a printed statement are a statement of the
  strict grammar, with the same tree up to lines.
* `Program.parse_render`: parsing, printing and parsing again.
-/

namespace TraceGraph

/-! ## Infinity as a name -/

/-- The expression with every infinite literal replaced by a name. -/
def Expr.nameInfinity : Expr → Expr
  | .literal line (.number x) =>
    if x = Number.infinity then .identifier line "Infinity" else .literal line (.number x)
  | .literal line value => .literal line value
  | .identifier line name => .identifier line name
  | .unary line op operand => .unary line op operand.nameInfinity
  | .binary line op left right => .binary line op left.nameInfinity right.nameInfinity
  | .assign line op target value => .assign line op target value.nameInfinity
  | .update line op leading target => .update line op leading target

/-- The program with every infinite literal replaced by a name. -/
def Program.nameInfinity (p : Program) : Program :=
  ⟨Stmt.mapAll id Expr.nameInfinity p.body⟩

private theorem eq_infinity_iff {x : Float} (hx : x.toBits.toNat ≤ Number.infinityBits) :
    x = Number.infinity ↔ x.isInf = true := by
  rw [isInf_iff hx]
  constructor
  · rintro rfl
    decide
  · intro h
    exact Number.eq_of_toBits_toNat_eq (h.trans (by decide))

private theorem signBit_of_toBits_le {x : Float} (hx : x.toBits.toNat ≤ Number.infinityBits) :
    x.isNaN = false ∧ Number.signBit x = false := by
  have hinfinity : Number.infinityBits = 2047 * 2 ^ 52 := rfl
  rw [Number.isNaN_eq, Number.signBit_eq, Nat.mod_eq_of_lt (by omega)]
  exact ⟨by simpa using hx, by simp; omega⟩

/-- Numbers without a sign are spelled out by naming infinity. -/
theorem Expr.Leaves.spelledOut_eq {e : Expr} {okName : String → Prop}
    (h : e.Leaves okName fun x => x.toBits.toNat ≤ Number.infinityBits) :
    e.spelledOut = e.nameInfinity := by
  induction e with
  | literal line value =>
    cases value with
    | number x =>
      obtain ⟨hnan, hsign⟩ := signBit_of_toBits_le h
      simp only [spelledOut, nameInfinity, Literal.spelledOut, hnan, hsign, magnitudeExpr,
        eq_infinity_iff h, Bool.false_eq_true, if_false]
    | _ => rfl
  | identifier => rfl
  | unary _ _ _ ih => simp only [spelledOut, nameInfinity, ih h]
  | binary _ _ _ _ ihl ihr => simp only [spelledOut, nameInfinity, ihl h.1, ihr h.2]
  | assign _ _ _ _ ih => simp only [spelledOut, nameInfinity, ih h.2]
  | update => rfl

theorem Expr.Leaves.nameInfinity_eq {e : Expr} {okName : String → Prop}
    (h : e.Leaves okName (· ≠ Number.infinity)) : e.nameInfinity = e := by
  induction e with
  | literal line value =>
    cases value with
    | number x => exact if_neg h
    | _ => rfl
  | identifier => rfl
  | unary _ _ _ ih => simp only [nameInfinity, ih h]
  | binary _ _ _ _ ihl ihr => simp only [nameInfinity, ihl h.1, ihr h.2]
  | assign _ _ _ _ ih => simp only [nameInfinity, ih h.2]
  | update => rfl

/-! ## What printing does not see -/

theorem Expr.precedence_mapLines (f : Nat → Nat) (e : Expr) :
    (e.mapLines f).precedence = e.precedence := by
  cases e with
  | literal _ value => cases value <;> rfl
  | _ => rfl

theorem Expr.render_mapLines (f : Nat → Nat) (e : Expr) : (e.mapLines f).render = e.render := by
  induction e with
  | literal => rfl
  | identifier => rfl
  | unary _ _ _ ih => simp only [mapLines, render, ih, precedence_mapLines]
  | binary _ _ _ _ ihl ihr => simp only [mapLines, render, ihl, ihr, precedence_mapLines]
  | assign _ _ _ _ ih => simp only [mapLines, render, ih]
  | update _ _ leading => cases leading <;> rfl

theorem Expr.precedence_nameInfinity (e : Expr) : e.nameInfinity.precedence = e.precedence := by
  cases e with
  | literal _ value =>
    cases value with
    | number x =>
      rw [nameInfinity]
      split
      · rename_i hx
        rw [hx]
        show primaryPrecedence
          = if Number.infinity < 0.0 then unaryPrecedence else primaryPrecedence
        decide
      · rfl
    | _ => rfl
  | _ => rfl

theorem Expr.render_nameInfinity (e : Expr) : e.nameInfinity.render = e.render := by
  induction e with
  | literal _ value =>
    cases value with
    | number x =>
      rw [nameInfinity]
      split
      · rename_i hx
        rw [hx]
        show "Infinity" = Literal.numberLayout.write Number.infinity
        decide
      · rfl
    | _ => rfl
  | identifier => rfl
  | unary _ _ _ ih => simp only [nameInfinity, render, ih, precedence_nameInfinity]
  | binary _ _ _ _ ihl ihr => simp only [nameInfinity, render, ihl, ihr, precedence_nameInfinity]
  | assign _ _ _ _ ih => simp only [nameInfinity, render, ih]
  | update _ _ leading => cases leading <;> rfl

namespace Stmt

theorem isBlock_map (f : Nat → Nat) (g : Expr → Expr) (s : Stmt) :
    (s.map f g).isBlock = s.isBlock := by
  cases s <;> rfl

theorem isConditional_map (f : Nat → Nat) (g : Expr → Expr) (s : Stmt) :
    (s.map f g).isConditional = s.isConditional := by
  cases s <;> rfl

theorem dangling_map (f : Nat → Nat) (g : Expr → Expr) : (s : Stmt) →
    (s.map f g).dangling = s.dangling
  | .ifElse _ _ _ alternate => dangling_map f g alternate
  | .loop _ _ body => dangling_map f g body
  | .function .. | .block .. | .expression .. | .declare .. | .ifThen .. | .exit .. => rfl

private theorem isEmpty_mapAll (f : Nat → Nat) (g : Expr → Expr) (body : List Stmt) :
    (mapAll f g body).isEmpty = body.isEmpty := by
  cases body <;> rfl

section

variable (f : Nat → Nat) {g : Expr → Expr}

private theorem renderDeclarator_map (hg : ∀ e, (g e).render = e.render) (d : Declarator) :
    renderDeclarator (d.map f g) = renderDeclarator d := by
  obtain ⟨name, init, line⟩ := d
  cases init with
  | none => rfl
  | some init => simp only [renderDeclarator, Declarator.map, Option.map_some, hg]

mutual

/-- Printing sees neither lines nor what expressions are, as long as they are
printed the same. -/
theorem renderAt_map (hg : ∀ e, (g e).render = e.render) : (s : Stmt) → (depth : Nat) →
    (s.map f g).renderAt depth = s.renderAt depth
  | .function _ _ _ _ body, depth => by
    simp only [Stmt.map, renderAt, inBraces, renderLines_mapAll hg body, isEmpty_mapAll]
  | .block _ body, depth => by
    simp only [Stmt.map, renderAt, inBraces, renderLines_mapAll hg body, isEmpty_mapAll]
  | .expression _ _, depth => by
    simp only [Stmt.map, renderAt, hg]
  | .declare _ _ declarators, depth => by
    have hdeclarators : (declarators.map (Declarator.map f g)).map renderDeclarator
        = declarators.map renderDeclarator := by
      rw [List.map_map]
      exact List.map_congr_left fun d _ => renderDeclarator_map f hg d
    simp only [Stmt.map, renderAt, hdeclarators]
  | .ifThen _ _ consequent, depth => by
    simp only [Stmt.map, renderAt, hg, placeBody, isBlock_map, renderAt_map hg consequent]
  | .ifElse _ _ consequent alternate, depth => by
    simp only [Stmt.map, renderAt, hg, placeBody, placeAlternate, renderElse, isBlock_map,
      isConditional_map, renderAt_map hg consequent, renderAt_map hg alternate]
  | .loop _ _ body, depth => by
    simp only [Stmt.map, renderAt, hg, placeBody, isBlock_map, renderAt_map hg body]
  | .exit _ (some _), depth => by
    simp only [Stmt.map, renderAt, Option.map_some, hg]
  | .exit _ none, depth => rfl

private theorem renderLines_mapAll (hg : ∀ e, (g e).render = e.render) : (body : List Stmt) →
    (depth : Nat) → renderLines (mapAll f g body) depth = renderLines body depth
  | [], _ => rfl
  | s :: body, depth => by
    simp only [mapAll, renderLines, renderAt_map hg s, renderLines_mapAll hg body]

end

end

/-! ## Names and numbers -/

section

variable {okName : String → Prop} {okNumber : Float → Prop}

private theorem leaves_declarator {tokens : List PlacedToken} {d : Declarator}
    (h : Declarator.Reads tokens d) (hleaf : ∀ t ∈ tokens, t.token.Leaf okName okNumber) :
    d.Leaves okName okNumber := by
  cases h with
  | bare => exact ⟨hleaf _ List.mem_cons_self, by simp⟩
  | init hvalue =>
    refine ⟨hleaf _ List.mem_cons_self, ?_⟩
    rintro _ ⟨⟩
    exact hvalue.leaves fun t ht => hleaf t (List.mem_cons_of_mem _ (List.mem_cons_of_mem _ ht))

private theorem leaves_commas {α : Type} {item : List PlacedToken → α → Prop} {p : α → Prop}
    (hitem : ∀ {tokens value}, item tokens value →
      (∀ t ∈ tokens, t.token.Leaf okName okNumber) → p value)
    {tokens : List PlacedToken} {values : List α} (h : ReadsCommas item tokens values)
    (hleaf : ∀ t ∈ tokens, t.token.Leaf okName okNumber) : ∀ value ∈ values, p value := by
  induction h with
  | last hvalue =>
    intro value hmem
    rw [List.mem_singleton.1 hmem]
    exact hitem hvalue hleaf
  | next hvalue _ ih =>
    intro value hmem
    rcases List.mem_cons.1 hmem with rfl | hmem
    · exact hitem hvalue fun t ht => hleaf t (List.mem_append_left _ ht)
    · refine ih (fun t ht => hleaf t ?_) value hmem
      exact List.mem_append_right _ (List.mem_cons_of_mem _ ht)

private theorem leaves_params {tokens : List PlacedToken} {params : List String}
    (h : ReadsParams tokens params) (hleaf : ∀ t ∈ tokens, t.token.Leaf okName okNumber) :
    ∀ param ∈ params, okName param := by
  cases h with
  | none => simp
  | some hnames =>
    refine leaves_commas (fun hname hleaf => ?_) hnames hleaf
    obtain ⟨⟩ := hname
    exact hleaf _ List.mem_cons_self

private theorem leaves_test {tokens : List PlacedToken} {test : Expr} (h : ReadsTest tokens test)
    (hleaf : ∀ t ∈ tokens, t.token.Leaf okName okNumber) : test.Leaves okName okNumber := by
  obtain ⟨htest⟩ := h
  exact htest.leaves fun t ht => hleaf t (List.mem_cons_of_mem _ (List.mem_append_left _ ht))

mutual

/-- The names and numbers of a statement are among the tokens that it is read
from. -/
theorem Reads.leaves {strict : Bool} : ∀ {tokens : List PlacedToken} {s : Stmt},
    Reads strict tokens s → (∀ t ∈ tokens, t.token.Leaf okName okNumber) →
    s.Leaves okName okNumber
  | _, _, .function hparams hbody, hleaf => by
    simp only [List.mem_cons, List.mem_append, forall_eq_or_imp] at hleaf
    obtain ⟨-, hname, -, hrest⟩ := hleaf
    refine ⟨hname, leaves_params hparams fun t ht => hrest t (.inl ht), ?_⟩
    exact ReadsAll.leaves hbody fun t ht => hrest t (.inr (.inr (.inr (.inl ht))))
  | _, _, .block hbody, hleaf =>
    ReadsAll.leaves hbody fun t ht =>
      hleaf t (List.mem_cons_of_mem _ (List.mem_append_left _ ht))
  | _, _, .expression hexpr _, hleaf => by
    refine hexpr.leaves fun t ht => hleaf t ?_
    rw [← List.cons_append]
    exact List.mem_append_left _ ht
  | _, _, .declare hdeclarators _, hleaf =>
    leaves_commas (p := Declarator.Leaves okName okNumber)
      (fun hd hleaf => leaves_declarator hd hleaf) hdeclarators fun t ht =>
        hleaf t (List.mem_cons_of_mem _ (List.mem_append_left _ ht))
  | _, _, .ifThen htest hconsequent, hleaf => by
    simp only [List.mem_cons, List.mem_append, forall_eq_or_imp] at hleaf
    exact ⟨leaves_test htest fun t ht => hleaf.2 t (.inl ht),
      Reads.leaves hconsequent fun t ht => hleaf.2 t (.inr ht)⟩
  | _, _, .ifElse htest hconsequent _ halternate, hleaf => by
    simp only [List.mem_cons, List.mem_append, forall_eq_or_imp] at hleaf
    exact ⟨leaves_test htest fun t ht => hleaf.2 t (.inl ht),
      Reads.leaves hconsequent fun t ht => hleaf.2 t (.inr (.inl ht)),
      Reads.leaves halternate fun t ht => hleaf.2 t (.inr (.inr (.inr ht)))⟩
  | _, _, .loop htest hbody, hleaf => by
    simp only [List.mem_cons, List.mem_append, forall_eq_or_imp] at hleaf
    exact ⟨leaves_test htest fun t ht => hleaf.2 t (.inl ht),
      Reads.leaves hbody fun t ht => hleaf.2 t (.inr ht)⟩
  | _, _, .exit _, _ => by
    simp [Stmt.Leaves]
  | _, _, .exitWith hresult _, hleaf => by
    rintro _ ⟨⟩
    exact hresult.leaves fun t ht => hleaf t (List.mem_cons_of_mem _ (List.mem_append_left _ ht))

theorem ReadsAll.leaves {strict : Bool} : ∀ {tokens : List PlacedToken} {body : List Stmt},
    ReadsAll strict tokens body → (∀ t ∈ tokens, t.token.Leaf okName okNumber) →
    LeavesAll okName okNumber body
  | _, _, .nil, _ => trivial
  | _, _, .semicolon hbody, hleaf =>
    ReadsAll.leaves hbody fun t ht => hleaf t (List.mem_cons_of_mem _ ht)
  | _, _, .cons hs hbody, hleaf =>
    ⟨Reads.leaves hs fun t ht => hleaf t (List.mem_append_left _ ht),
      ReadsAll.leaves hbody fun t ht => hleaf t (List.mem_append_right _ ht)⟩

end

mutual

/-- Two changes of expressions that agree on the expressions of a statement change
it alike. -/
theorem Leaves.map_congr (f : Nat → Nat) {g₁ g₂ : Expr → Expr}
    (hg : ∀ e : Expr, e.Leaves okName okNumber → g₁ e = g₂ e) : (s : Stmt) →
    s.Leaves okName okNumber → s.map f g₁ = s.map f g₂
  | .function _ _ _ _ body, h => by
    simp only [Stmt.map, LeavesAll.mapAll_congr f hg body h.2.2]
  | .block _ body, h => by
    simp only [Stmt.map, LeavesAll.mapAll_congr f hg body h]
  | .expression _ expr, h => by
    simp only [Stmt.map, hg expr h]
  | .declare _ _ declarators, h => by
    simp only [Stmt.map]
    congr 1
    refine List.map_congr_left fun d hd => ?_
    simp only [Declarator.map]
    congr 1
    exact Option.map_congr fun e he => hg e ((h d hd).2 e he)
  | .ifThen _ test consequent, h => by
    simp only [Stmt.map, hg test h.1, Leaves.map_congr f hg consequent h.2]
  | .ifElse _ test consequent alternate, h => by
    simp only [Stmt.map, hg test h.1, Leaves.map_congr f hg consequent h.2.1,
      Leaves.map_congr f hg alternate h.2.2]
  | .loop _ test body, h => by
    simp only [Stmt.map, hg test h.1, Leaves.map_congr f hg body h.2]
  | .exit _ result, h => by
    simp only [Stmt.map]
    congr 1
    exact Option.map_congr fun e he => hg e (h e he)

theorem LeavesAll.mapAll_congr (f : Nat → Nat) {g₁ g₂ : Expr → Expr}
    (hg : ∀ e : Expr, e.Leaves okName okNumber → g₁ e = g₂ e) : (body : List Stmt) →
    LeavesAll okName okNumber body → mapAll f g₁ body = mapAll f g₂ body
  | [], _ => rfl
  | s :: body, h => by
    simp only [mapAll, Leaves.map_congr f hg s h.1, LeavesAll.mapAll_congr f hg body h.2]

end

end

/-! ## Reading printed tokens -/

/-- What printing and reading make of an expression, up to lines. -/
private def reread (e : Expr) : Expr :=
  e.spelledOut.eraseLines

private theorem reads_expr {e : Expr} {placed : List PlacedToken}
    (hplaced : placed.map PlacedToken.token = e.tokens) :
    ∃ e', Expr.Reads 0 placed e' ∧ e'.eraseLines = reread e := by
  obtain ⟨e', hreads, heq⟩ := Expr.reads_tokens hplaced
  exact ⟨e', hreads.mono (Nat.zero_le _), heq⟩

private theorem reads_commas {α : Type} {item : List PlacedToken → α → Prop}
    {tokens : α → List Token} {f g : α → α} {values : List α}
    (hitem : ∀ {value : α} {placed : List PlacedToken},
      placed.map PlacedToken.token = tokens value → ∃ value', item placed value' ∧ f value' = g value)
    (hne : values ≠ []) {placed : List PlacedToken}
    (hplaced : placed.map PlacedToken.token = commaTokens (values.map tokens)) :
    ∃ values', ReadsCommas item placed values' ∧ values'.map f = values.map g := by
  induction values generalizing placed with
  | nil => exact absurd rfl hne
  | cons value values ih =>
    cases values with
    | nil =>
      obtain ⟨value', hreads, heq⟩ := hitem hplaced
      exact ⟨[value'], .last hreads, by simp [heq]⟩
    | cons next values =>
      obtain ⟨front, rest, rfl, hfront, hrest⟩ := List.map_eq_append_iff.1 hplaced
      obtain ⟨⟨_, line⟩, others, rfl, rfl, hothers⟩ := List.map_eq_cons_iff.1 hrest
      obtain ⟨value', hreads, heq⟩ := hitem hfront
      obtain ⟨values', hmore, heqs⟩ := ih (by simp) hothers
      refine ⟨value' :: values', .next hreads hmore, ?_⟩
      rw [List.map_cons, List.map_cons, heq, heqs]

private theorem reads_declarator {d : Declarator} {placed : List PlacedToken}
    (hplaced : placed.map PlacedToken.token = d.tokens) :
    ∃ d', Declarator.Reads placed d' ∧
      d'.map (fun _ => 0) Expr.eraseLines = d.map (fun _ => 0) reread := by
  obtain ⟨name, init, line⟩ := d
  cases init with
  | none =>
    obtain ⟨start, rfl⟩ := Expr.placed_eq_singleton hplaced
    exact ⟨_, .bare, rfl⟩
  | some init =>
    obtain ⟨⟨_, start⟩, rest, rfl, rfl, hrest⟩ := List.map_eq_cons_iff.1 hplaced
    obtain ⟨⟨_, stop⟩, others, rfl, rfl, hothers⟩ := List.map_eq_cons_iff.1 hrest
    obtain ⟨init', hreads, heq⟩ := reads_expr hothers
    exact ⟨_, .init hreads, by simp [Declarator.map, heq]⟩

private theorem reads_test {test : Expr} {placed : List PlacedToken}
    (hplaced : placed.map PlacedToken.token = testTokens test) :
    ∃ test', ReadsTest placed test' ∧ test'.eraseLines = reread test := by
  obtain ⟨⟨_, start⟩, rest, rfl, rfl, hrest⟩ := List.map_eq_cons_iff.1 hplaced
  obtain ⟨inner, close, rfl, hinner, hclose⟩ := List.map_eq_append_iff.1 hrest
  obtain ⟨stop, rfl⟩ := Expr.placed_eq_singleton hclose
  obtain ⟨test', hreads, heq⟩ := reads_expr hinner
  exact ⟨test', .intro hreads, heq⟩

private theorem readsCommas_ne_nil {α : Type} {item : List PlacedToken → α → Prop}
    {tokens : List PlacedToken} {values : List α} (h : ReadsCommas item tokens values) :
    values ≠ [] := by
  cases h <;> simp

private theorem reads_params {params : List String} {placed : List PlacedToken}
    (hplaced : placed.map PlacedToken.token
      = commaTokens (params.map fun param => [.identifier param])) :
    ReadsParams placed params := by
  by_cases hne : params = []
  · subst hne
    rw [List.map_eq_nil_iff.1 hplaced]
    exact .none
  · have hname : ∀ {name : String} {placed : List PlacedToken},
        placed.map PlacedToken.token = [.identifier name] →
        ∃ name', ReadsName placed name' ∧ id name' = id name := by
      intro name placed hplaced
      obtain ⟨line, rfl⟩ := Expr.placed_eq_singleton hplaced
      exact ⟨name, .intro, rfl⟩
    obtain ⟨names, hreads, heq⟩ := reads_commas hname hne hplaced
    rw [List.map_id, List.map_id] at heq
    rw [← heq]
    exact .some hreads

mutual

/-- The tokens of a statement that has been read and printed are a statement of the
strict grammar, with the same tree up to lines. -/
theorem reads_tokens {strict : Bool} : ∀ {tokens : List PlacedToken} {s : Stmt},
    Reads strict tokens s → ∀ {placed : List PlacedToken},
    placed.map PlacedToken.token = s.tokens →
    ∃ s', Reads true placed s' ∧ s'.eraseLines = s.map (fun _ => 0) reread
  | _, _, .function hparams hbody, placed, hplaced => by
    obtain ⟨⟨_, line⟩, rest₁, rfl, rfl, h₁⟩ := List.map_eq_cons_iff.1 hplaced
    obtain ⟨⟨_, nameLine⟩, rest₂, rfl, rfl, h₂⟩ := List.map_eq_cons_iff.1 h₁
    obtain ⟨⟨_, start⟩, rest₃, rfl, rfl, h₃⟩ := List.map_eq_cons_iff.1 h₂
    obtain ⟨names, rest₄, rfl, hnames, h₄⟩ := List.map_eq_append_iff.1 h₃
    obtain ⟨⟨_, stop⟩, rest₅, rfl, rfl, h₅⟩ := List.map_eq_cons_iff.1 h₄
    obtain ⟨⟨_, bodyLine⟩, rest₆, rfl, rfl, h₆⟩ := List.map_eq_cons_iff.1 h₅
    obtain ⟨inside, close, rfl, hinside, hclose⟩ := List.map_eq_append_iff.1 h₆
    obtain ⟨last, rfl⟩ := Expr.placed_eq_singleton hclose
    obtain ⟨body', hreads, heq⟩ := readsAll_tokens hbody hinside
    exact ⟨_, .function (reads_params hnames) hreads, by simp only [eraseLines, Stmt.map, heq]⟩
  | _, _, .block hbody, placed, hplaced => by
    obtain ⟨⟨_, line⟩, rest, rfl, rfl, hrest⟩ := List.map_eq_cons_iff.1 hplaced
    obtain ⟨inside, close, rfl, hinside, hclose⟩ := List.map_eq_append_iff.1 hrest
    obtain ⟨last, rfl⟩ := Expr.placed_eq_singleton hclose
    obtain ⟨body', hreads, heq⟩ := readsAll_tokens hbody hinside
    exact ⟨_, .block hreads, by simp only [eraseLines, Stmt.map, heq]⟩
  | _, _, .expression _ _, placed, hplaced => by
    obtain ⟨front, close, rfl, hfront, hclose⟩ := List.map_eq_append_iff.1 hplaced
    obtain ⟨last, rfl⟩ := Expr.placed_eq_singleton hclose
    obtain ⟨expr', hreads, heq⟩ := reads_expr hfront
    obtain ⟨token, line, others, rfl, -⟩ := hreads.opens
    exact ⟨_, .expression hreads .semicolon, by simp only [eraseLines, Stmt.map, heq]⟩
  | _, _, .declare hdeclarators _, placed, hplaced => by
    obtain ⟨⟨_, line⟩, rest, rfl, rfl, hrest⟩ := List.map_eq_cons_iff.1 hplaced
    obtain ⟨front, close, rfl, hfront, hclose⟩ := List.map_eq_append_iff.1 hrest
    obtain ⟨last, rfl⟩ := Expr.placed_eq_singleton hclose
    obtain ⟨declarators', hreads, heq⟩ :=
      reads_commas reads_declarator (readsCommas_ne_nil hdeclarators) hfront
    exact ⟨_, .declare hreads .semicolon, by simp only [eraseLines, Stmt.map, heq]⟩
  | _, _, .ifThen _ hconsequent, placed, hplaced => by
    obtain ⟨⟨_, line⟩, rest, rfl, rfl, hrest⟩ := List.map_eq_cons_iff.1 hplaced
    obtain ⟨front, branch, rfl, hfront, hbranch⟩ := List.map_eq_append_iff.1 hrest
    obtain ⟨test', htest, heqt⟩ := reads_test hfront
    obtain ⟨consequent', hreads, heq⟩ := reads_tokens hconsequent hbranch
    refine ⟨_, .ifThen htest hreads, ?_⟩
    simp only [eraseLines, Stmt.map] at heq ⊢
    rw [heqt, heq]
  | _, _, .ifElse _ hconsequent hdangling halternate, placed, hplaced => by
    obtain ⟨⟨_, line⟩, rest, rfl, rfl, hrest⟩ := List.map_eq_cons_iff.1 hplaced
    obtain ⟨front, rest₁, rfl, hfront, h₁⟩ := List.map_eq_append_iff.1 hrest
    obtain ⟨branch, rest₂, rfl, hbranch, h₂⟩ := List.map_eq_append_iff.1 h₁
    obtain ⟨⟨_, elseLine⟩, other, rfl, rfl, hother⟩ := List.map_eq_cons_iff.1 h₂
    obtain ⟨test', htest, heqt⟩ := reads_test hfront
    obtain ⟨consequent', hreads, heq⟩ := reads_tokens hconsequent hbranch
    obtain ⟨alternate', hreads', heq'⟩ := reads_tokens halternate hother
    have hdangling' : consequent'.dangling = false := by
      have := congrArg dangling heq
      rwa [eraseLines, dangling_map, dangling_map, hdangling] at this
    refine ⟨_, .ifElse htest hreads hdangling' hreads', ?_⟩
    simp only [eraseLines, Stmt.map] at heq heq' ⊢
    rw [heqt, heq, heq']
  | _, _, .loop _ hbody, placed, hplaced => by
    obtain ⟨⟨_, line⟩, rest, rfl, rfl, hrest⟩ := List.map_eq_cons_iff.1 hplaced
    obtain ⟨front, inside, rfl, hfront, hinside⟩ := List.map_eq_append_iff.1 hrest
    obtain ⟨test', htest, heqt⟩ := reads_test hfront
    obtain ⟨body', hreads, heq⟩ := reads_tokens hbody hinside
    refine ⟨_, .loop htest hreads, ?_⟩
    simp only [eraseLines, Stmt.map] at heq ⊢
    rw [heqt, heq]
  | _, _, .exit _, placed, hplaced => by
    obtain ⟨⟨_, line⟩, rest, rfl, rfl, hrest⟩ := List.map_eq_cons_iff.1 hplaced
    obtain ⟨last, rfl⟩ := Expr.placed_eq_singleton hrest
    exact ⟨_, .exit .semicolon, rfl⟩
  | _, _, .exitWith _ _, placed, hplaced => by
    obtain ⟨⟨_, line⟩, rest, rfl, rfl, hrest⟩ := List.map_eq_cons_iff.1 hplaced
    obtain ⟨front, close, rfl, hfront, hclose⟩ := List.map_eq_append_iff.1 hrest
    obtain ⟨last, rfl⟩ := Expr.placed_eq_singleton hclose
    obtain ⟨result', hreads, heq⟩ := reads_expr hfront
    exact ⟨_, .exitWith hreads .semicolon, by simp [eraseLines, Stmt.map, heq]⟩

private theorem readsAll_tokens {strict : Bool} : ∀ {tokens : List PlacedToken}
    {body : List Stmt}, ReadsAll strict tokens body → ∀ {placed : List PlacedToken},
    placed.map PlacedToken.token = tokensAll body →
    ∃ body', ReadsAll true placed body' ∧
      mapAll (fun _ => 0) Expr.eraseLines body' = mapAll (fun _ => 0) reread body
  | _, _, .nil, placed, hplaced => by
    rw [List.map_eq_nil_iff.1 hplaced]
    exact ⟨[], .nil, rfl⟩
  | _, _, .semicolon hbody, placed, hplaced => readsAll_tokens hbody hplaced
  | _, _, .cons hs hbody, placed, hplaced => by
    obtain ⟨front, others, rfl, hfront, hothers⟩ := List.map_eq_append_iff.1 hplaced
    obtain ⟨s', hreads, heq⟩ := reads_tokens hs hfront
    obtain ⟨body', hmore, heqs⟩ := readsAll_tokens hbody hothers
    refine ⟨s' :: body', .cons hreads hmore, ?_⟩
    simp only [eraseLines] at heq
    simp only [mapAll, heq, heqs]

end

end Stmt

/-! ## Programs -/

private theorem Program.render_map (f : Nat → Nat) {g : Expr → Expr}
    (hg : ∀ e, (g e).render = e.render) (body : List Stmt) :
    Program.render ⟨Stmt.mapAll f g body⟩ = Program.render ⟨body⟩ := by
  have hlines : (Stmt.mapAll f g body).map Stmt.render = body.map Stmt.render := by
    induction body with
    | nil => rfl
    | cons s body ih =>
      rw [Stmt.mapAll, List.map_cons, List.map_cons, ih, Stmt.render, Stmt.renderAt_map f hg,
        Stmt.render]
  rw [Program.render, Program.render, hlines]

theorem Program.render_eraseLines (p : Program) : p.eraseLines.render = p.render :=
  Program.render_map _ (Expr.render_mapLines _) p.body

theorem Program.render_nameInfinity (p : Program) : p.nameInfinity.render = p.render :=
  Program.render_map _ Expr.render_nameInfinity p.body

theorem Program.parse_eq_ok {source : String} {p : Program}
    (h : Program.parse source = .ok p) :
    ∃ placed, tokenize source = .ok placed ∧ Stmt.ReadsAll false placed p.body := by
  obtain ⟨placed, htokens, hof⟩ := bind_eq_ok_iff.1 h
  obtain ⟨body, hbody, heq⟩ := bind_eq_ok_iff.1 hof
  cases heq
  exact ⟨placed, htokens, Stmt.readsAll_of_parseAll _ placed hbody⟩

private theorem Program.parse_of_readsAll {source : String} {placed : List PlacedToken}
    {body : List Stmt} (htokens : tokenize source = .ok placed)
    (h : Stmt.ReadsAll true placed body) : Program.parse source = .ok ⟨body⟩ := by
  refine bind_eq_ok_iff.2 ⟨placed, htokens, bind_eq_ok_iff.2 ⟨body, ?_, rfl⟩⟩
  exact Stmt.parseAll_of_readsAll _ h

/-- A program that has been read is printed as a text that is read again.  Up to
lines the result is the same program, except that numbers too large for a double
come back as the name of infinity.  Printed once more it gives the same text. -/
theorem Program.parse_render {source : String} {p : Program} (h : Program.parse source = .ok p) :
    ∃ q, Program.parse p.render = .ok q ∧ q.eraseLines = p.nameInfinity.eraseLines ∧
      ((∀ placed, tokenize source = .ok placed →
          .number Number.infinity ∉ placed.map PlacedToken.token) → q.eraseLines = p.eraseLines) ∧
      q.render = p.render := by
  obtain ⟨placed, htokens, hreads⟩ := Program.parse_eq_ok h
  have hwell := wellFormed_of_tokenize htokens
  have hleaves := hreads.leaves hwell
  obtain ⟨placed', htokens', hplaced'⟩ := Program.tokenize_render hleaves
  obtain ⟨body, hbody, heq⟩ := Stmt.readsAll_tokens hreads hplaced'
  have hnamed : (Program.mk body).eraseLines = p.nameInfinity.eraseLines := by
    rw [Program.eraseLines, Program.eraseLines, Program.nameInfinity, Stmt.mapAll_mapAll, heq]
    congr 1
    exact hleaves.mapAll_congr _ fun e he => congrArg Expr.eraseLines he.spelledOut_eq
  refine ⟨⟨body⟩, Program.parse_of_readsAll htokens' hbody, hnamed, fun hfinite => ?_, ?_⟩
  · have hleaves' : Stmt.LeavesAll (fun _ => True) (· ≠ Number.infinity) p.body := by
      refine hreads.leaves fun t ht => ?_
      cases htoken : t.token with
      | number x =>
        rintro rfl
        exact hfinite placed htokens (htoken ▸ List.mem_map_of_mem ht)
      | _ => trivial
    rw [hnamed, Program.eraseLines, Program.eraseLines, Program.nameInfinity, Stmt.mapAll_mapAll]
    congr 1
    exact hleaves'.mapAll_congr _ fun e he => congrArg Expr.eraseLines he.nameInfinity_eq
  · calc (Program.mk body).render
        = p.nameInfinity.eraseLines.render := by rw [← hnamed, Program.render_eraseLines]
      _ = p.render := by rw [Program.render_eraseLines, Program.render_nameInfinity]

set_option maxRecDepth 4000 in
/-- Two signs and a missing semicolon. -/
theorem Program.parse_render_signs :
    Program.parse "if(a)- -b" = .ok ⟨[.ifThen 1 (.identifier 1 "a")
        (.expression 1 (.unary 1 .neg (.unary 1 .neg (.identifier 1 "b"))))]⟩ ∧
      ∃ q, Program.parse "if (a)\n    - -b;" = .ok q ∧ q.render = "if (a)\n    - -b;" := by
  have hparse : Program.parse "if(a)- -b" = .ok ⟨[.ifThen 1 (.identifier 1 "a")
      (.expression 1 (.unary 1 .neg (.unary 1 .neg (.identifier 1 "b"))))]⟩ := by cbv
  obtain ⟨q, hq, -, -, hrender⟩ := Program.parse_render hparse
  exact ⟨hparse, q, hq, hrender⟩

end TraceGraph
