import TraceGraph.Expr.Printer
import TraceGraph.Proofs.Token.Lexing

/-!
# The tokens of a printed expression

`Expr.tokens` lists the tokens of an expression as it is printed, without going
through text.  `Expr.spells_render` says that the printed text is read as exactly
these tokens, if every name in the expression is a name of the language.
-/

namespace TraceGraph

/-! ## Names and numbers in expressions -/

/-- Whether all names and all numbers in an expression have the given
properties. -/
def Expr.Leaves (okName : String → Prop) (okNumber : Float → Prop) : Expr → Prop
  | .literal _ (.number x) => okNumber x
  | .literal _ _ => True
  | .identifier _ name => okName name
  | .unary _ _ operand => operand.Leaves okName okNumber
  | .binary _ _ left right => left.Leaves okName okNumber ∧ right.Leaves okName okNumber
  | .assign _ _ target value => okName target ∧ value.Leaves okName okNumber
  | .update _ _ _ target => okName target

/-! ## Symbols of operators -/

/-- The symbol of the operator. -/
def UnaryOp.symbol : UnaryOp → Symbol
  | .neg => .minus
  | .plus => .plus
  | .not => .bang

/-- The symbol of the operator. -/
def BinaryOp.symbol : BinaryOp → Symbol
  | .add => .plus
  | .sub => .minus
  | .mul => .star
  | .div => .slash
  | .rem => .percent
  | .less => .less
  | .lessEqual => .lessEqual
  | .greater => .greater
  | .greaterEqual => .greaterEqual
  | .equal => .equalEqual
  | .notEqual => .bangEqual
  | .strictEqual => .equalEqualEqual
  | .strictNotEqual => .bangEqualEqual
  | .and => .andAnd
  | .or => .orOr

/-- The symbol of the operator. -/
def AssignOp.symbol : AssignOp → Symbol
  | .assign => .assign
  | .addAssign => .plusAssign
  | .subAssign => .minusAssign
  | .mulAssign => .starAssign
  | .divAssign => .slashAssign
  | .remAssign => .percentAssign

/-- The symbol of the operator. -/
def UpdateOp.symbol : UpdateOp → Symbol
  | .increment => .plusPlus
  | .decrement => .minusMinus

theorem UnaryOp.spelling_symbol (op : UnaryOp) : op.symbol.spelling = op.spelling := by
  cases op <;> rfl

theorem BinaryOp.spelling_symbol (op : BinaryOp) : op.symbol.spelling = op.spelling := by
  cases op <;> rfl

theorem AssignOp.spelling_symbol (op : AssignOp) : op.symbol.spelling = op.spelling := by
  cases op <;> rfl

theorem UpdateOp.spelling_symbol (op : UpdateOp) : op.symbol.spelling = op.spelling := by
  cases op <;> rfl

@[simp] theorem UnaryOp.unaryOp?_symbol (op : UnaryOp) : op.symbol.unaryOp? = some op := by
  cases op <;> rfl

@[simp] theorem BinaryOp.binaryOp?_symbol (op : BinaryOp) : op.symbol.binaryOp? = some op := by
  cases op <;> rfl

@[simp] theorem AssignOp.assignOp?_symbol (op : AssignOp) : op.symbol.assignOp? = some op := by
  cases op <;> rfl

@[simp] theorem UpdateOp.updateOp?_symbol (op : UpdateOp) : op.symbol.updateOp? = some op := by
  cases op <;> rfl

/-! ## Tokens of expressions -/

/-- The tokens of a number without a sign. -/
def magnitudeTokens (x : Float) : List Token :=
  if x.isInf then [.identifier "Infinity"] else [.number x]

/-- The tokens of a literal as it is printed.  A negative number is a sign and a
number, and a double without digits is a word. -/
def Literal.tokens : Literal → List Token
  | .number x =>
    if x.isNaN then [.identifier "NaN"]
    else if Number.signBit x then .symbol .minus :: magnitudeTokens x.abs
    else magnitudeTokens x
  | .bool true => [.keyword .trueWord]
  | .bool false => [.keyword .falseWord]
  | .text s => [.text s]

/-- The tokens, in parentheses if asked for. -/
def wrapTokens (wrap : Bool) (tokens : List Token) : List Token :=
  if wrap then .symbol .leftParen :: (tokens ++ [.symbol .rightParen]) else tokens

/-- The tokens of an expression as it is printed. -/
def Expr.tokens : Expr → List Token
  | .literal _ value => value.tokens
  | .identifier _ name => [.identifier name]
  | .unary _ op operand =>
    .symbol op.symbol :: wrapTokens (operand.precedence < unaryPrecedence) operand.tokens
  | .binary _ op left right =>
    wrapTokens (left.precedence < op.precedence) left.tokens
      ++ .symbol op.symbol :: wrapTokens (right.precedence ≤ op.precedence) right.tokens
  | .assign _ op target value => .identifier target :: .symbol op.symbol :: value.tokens
  | .update _ op true target => [.symbol op.symbol, .identifier target]
  | .update _ op false target => [.identifier target, .symbol op.symbol]

/-! ## What stands between pieces -/

/-- The characters that follow an expression in a printed text. -/
def delimiters : List Char := [' ', '\n', ')', ';', ',']

private theorem isWordPart_of_mem_delimiters :
    ∀ c ∈ delimiters, Lexer.isWordPart c = false :=
  forall_mem_of_all (by decide)

private theorem isDigit_of_mem_delimiters :
    ∀ c ∈ delimiters, c.isDigit = false ∧ c ≠ '.' :=
  forall_mem_of_all (by decide)

theorem Symbol.extendsBy_space (s : Symbol) : s.extendsBy ' ' = false := by
  cases s <;> decide

/-- The symbols of one character that nothing can make longer. -/
def Symbol.brackets : List (Char × Symbol) :=
  [('(', .leftParen), (')', .rightParen), ('\x7b', .leftBrace), ('\x7d', .rightBrace),
   (',', .comma), (';', .semicolon)]

theorem lexes_bracket (c : Char) (s : Symbol) (hs : (c, s) ∈ Symbol.brackets)
    {rest : List Char} {tokens : List Token} (h : Lexes rest tokens) :
    Lexes (c :: rest) (.symbol s :: tokens) := by
  have hspelling : s.spelling.toList = [c] ∧ ∀ d, s.extendsBy d = false := by
    simp only [Symbol.brackets, List.mem_cons, List.not_mem_nil, or_false, Prod.mk.injEq] at hs
    rcases hs with ⟨rfl, rfl⟩ | ⟨rfl, rfl⟩ | ⟨rfl, rfl⟩ | ⟨rfl, rfl⟩ | ⟨rfl, rfl⟩ | ⟨rfl, rfl⟩ <;>
      exact ⟨rfl, fun _ => rfl⟩
  have hlexes := lexes_symbol s (fun d _ => hspelling.2 d) h
  rwa [hspelling.1] at hlexes

/-- A sign only runs into an equals sign and into itself. -/
private theorem extendsBy_unary (op : UnaryOp) {c : Char} (heq : c ≠ '=')
    (hsign : op = .not ∨ op.spelling.toList ≠ [c]) : op.symbol.extendsBy c = false := by
  have heq : (c == '=') = false := beq_false_of_ne heq
  cases op with
  | neg =>
    have hc : (c == '-') = false :=
      beq_false_of_ne fun h => hsign.elim (by decide) (by simp [h, UnaryOp.spelling])
    simp [UnaryOp.symbol, Symbol.extendsBy, Symbol.longestFirst, Symbol.spelling,
      List.isPrefixOf, heq, hc]
  | plus =>
    have hc : (c == '+') = false :=
      beq_false_of_ne fun h => hsign.elim (by decide) (by simp [h, UnaryOp.spelling])
    simp [UnaryOp.symbol, Symbol.extendsBy, Symbol.longestFirst, Symbol.spelling,
      List.isPrefixOf, heq, hc]
  | not =>
    simp [UnaryOp.symbol, Symbol.extendsBy, Symbol.longestFirst, Symbol.spelling,
      List.isPrefixOf, heq]

/-- The text is read as these tokens wherever a delimiter or nothing follows
it. -/
def Spells (text : String) (tokens : List Token) : Prop :=
  ∀ {rest : List Char} {more : List Token}, Begins (· ∈ delimiters) rest → Lexes rest more →
    Lexes (text.toList ++ rest) (tokens ++ more)

theorem lexes_name {name : String} (hname : IsName name) {rest : List Char} {tokens : List Token}
    (hrest : Begins (Lexer.isWordPart · = false) rest) (h : Lexes rest tokens) :
    Lexes (name.toList ++ rest) (.identifier name :: tokens) := by
  have := lexes_word hname.isWord hrest h
  rwa [String.ofList_toList, hname.ofWord_eq] at this

theorem spells_name {name : String} (hname : IsName name) : Spells name [.identifier name] :=
  fun hrest h => lexes_name hname (hrest.mono isWordPart_of_mem_delimiters) h

theorem lexes_keyword (word : Keyword) {rest : List Char} {tokens : List Token}
    (hrest : Begins (Lexer.isWordPart · = false) rest) (h : Lexes rest tokens) :
    Lexes (word.spelling.toList ++ rest) (.keyword word :: tokens) := by
  have hword : IsWord word.spelling.toList := by
    cases word <;> exact isWord_of_check (by decide)
  have hof : Token.ofWord word.spelling = .keyword word := by
    cases word <;> decide
  have := lexes_word hword hrest h
  rwa [String.ofList_toList, hof] at this

/-! ## Literals -/

private theorem isName_infinity : IsName "Infinity" :=
  ⟨isWord_of_check (by decide), by decide⟩

private theorem isName_nan : IsName "NaN" :=
  ⟨isWord_of_check (by decide), by decide⟩

theorem toBits_abs_le {x : Float} (hnan : x.isNaN = false) :
    x.abs.toBits.toNat ≤ Number.infinityBits := by
  rw [Number.toBits_abs hnan]
  rw [Number.isNaN_eq] at hnan
  simpa using hnan

theorem isInf_iff {x : Float} (hx : x.toBits.toNat ≤ Number.infinityBits) :
    x.isInf = true ↔ x.toBits.toNat = Number.infinityBits := by
  have hinfinity : Number.infinityBits = 2047 * 2 ^ 52 := rfl
  rw [Number.isInf_eq, Nat.mod_eq_of_lt (by omega), decide_eq_true_iff]

/-- A number without a sign begins with neither a sign nor an equals sign. -/
private theorem write_eq_cons {x : Float} (hx : x.toBits.toNat ≤ Number.infinityBits) :
    ∃ c text, (Literal.numberLayout.write x).toList = c :: text ∧ c ≠ '=' ∧ c ≠ '-' := by
  rcases Nat.lt_or_eq_of_le hx with hfinite | hinfinite
  · obtain ⟨whole, places, htext, hne, hwhole, -⟩ := Number.write_parts hfinite
    obtain ⟨c, whole, rfl⟩ := List.exists_cons_of_ne_nil hne
    refine ⟨c, whole ++ Number.pointed places, htext, ?_, ?_⟩
    · rintro rfl
      exact absurd (hwhole _ List.mem_cons_self) (by decide)
    · rintro rfl
      exact absurd (hwhole _ List.mem_cons_self) (by decide)
  · rw [Number.write_infinity hinfinite]
    exact ⟨'I', "nfinity".toList, rfl, by decide, by decide⟩

private theorem spells_magnitude {x : Float} (hx : x.toBits.toNat ≤ Number.infinityBits) :
    Spells (Literal.numberLayout.write x) (magnitudeTokens x) := by
  rw [magnitudeTokens]
  split
  · rename_i hinf
    rw [Number.write_infinity ((isInf_iff hx).1 hinf)]
    exact spells_name isName_infinity
  · rename_i hinf
    intro rest more hrest h
    have hlt := Nat.lt_of_le_of_ne hx fun heq => hinf ((isInf_iff hx).2 heq)
    exact lexes_number hlt (hrest.mono isDigit_of_mem_delimiters) h

theorem toBits_le_of_signBit {x : Float} (hnan : x.isNaN = false)
    (hsign : Number.signBit x = false) : x.toBits.toNat ≤ Number.infinityBits := by
  rw [Number.signBit_eq] at hsign
  rw [Number.isNaN_eq, Nat.mod_eq_of_lt (by simpa using hsign)] at hnan
  simpa using hnan

theorem Literal.spells_render (value : Literal) : Spells value.render value.tokens := by
  intro rest more hrest h
  have hword := hrest.mono isWordPart_of_mem_delimiters
  cases value with
  | number x =>
    rw [Literal.render, Literal.tokens]
    split
    · rename_i hnan
      rw [Number.write_nan hnan]
      exact spells_name isName_nan hrest h
    rename_i hnan
    have hnan := Bool.eq_false_iff.2 hnan
    split
    · rename_i hsign
      rw [Number.write_signed hnan hsign, String.toList_append, List.append_assoc]
      obtain ⟨c, text, htext, heq, hminus⟩ := write_eq_cons (toBits_abs_le hnan)
      refine lexes_symbol .minus ?_ (spells_magnitude (toBits_abs_le hnan) hrest h)
      rw [htext]
      refine begins_cons.2 (extendsBy_unary .neg heq (.inr ?_))
      rintro hc
      cases hc
      exact hminus rfl
    · rename_i hsign
      exact spells_magnitude (toBits_le_of_signBit hnan (Bool.eq_false_iff.2 hsign)) hrest h
  | bool b =>
    cases b with
    | true => exact lexes_keyword .trueWord hword h
    | false => exact lexes_keyword .falseWord hword h
  | text s => exact lexes_text s h

private theorem Literal.render_eq_cons (value : Literal) :
    ∃ c text, value.render.toList = c :: text ∧ c ≠ '=' := by
  cases value with
  | number x =>
    rw [Literal.render]
    by_cases hnan : x.isNaN = true
    · rw [Number.write_nan hnan]
      exact ⟨'N', "aN".toList, rfl, by decide⟩
    have hnan := Bool.eq_false_iff.2 hnan
    by_cases hsign : Number.signBit x = true
    · rw [Number.write_signed hnan hsign, String.toList_append]
      exact ⟨'-', _, rfl, by decide⟩
    · obtain ⟨c, text, htext, heq, -⟩ :=
        write_eq_cons (toBits_le_of_signBit hnan (Bool.eq_false_iff.2 hsign))
      exact ⟨c, text, htext, heq⟩
  | bool b => cases b <;> exact ⟨_, _, rfl, by decide⟩
  | text s => exact ⟨_, _, String.toList_ofList, by decide⟩

/-! ## Expressions -/

theorem IsName.eq_cons {name : String} (hname : IsName name) :
    ∃ c text, name.toList = c :: text ∧ c ≠ '=' := by
  obtain ⟨c, text, htext⟩ := List.exists_cons_of_ne_nil hname.isWord.ne_nil
  refine ⟨c, text, htext, ?_⟩
  rintro rfl
  have hstart := hname.isWord.start
  rw [htext, begins_cons] at hstart
  exact absurd hstart (by decide)

/-- Printed expressions are not empty, and none begins with an equals sign. -/
private theorem Expr.render_eq_cons {e : Expr} {okNumber : Float → Prop}
    (hleaves : e.Leaves IsName okNumber) :
    ∃ c text, e.render.toList = c :: text ∧ c ≠ '=' := by
  induction e with
  | literal _ value => exact value.render_eq_cons
  | identifier _ name => exact IsName.eq_cons hleaves
  | unary _ op operand ih =>
    simp only [Expr.render, String.toList_append, List.append_assoc]
    cases op <;> exact ⟨_, _, rfl, by decide⟩
  | binary _ op left right ihl ihr =>
    simp only [Expr.render, String.toList_append, List.append_assoc]
    rw [wrapIf]
    split
    · exact ⟨_, _, by simp only [String.toList_append]; rfl, by decide⟩
    · obtain ⟨c, text, htext, hc⟩ := ihl hleaves.1
      rw [htext]
      exact ⟨c, _, rfl, hc⟩
  | assign _ op target value ih =>
    obtain ⟨c, text, htext, hc⟩ := hleaves.1.eq_cons
    simp only [Expr.render, String.toList_append, List.append_assoc, htext]
    exact ⟨c, _, rfl, hc⟩
  | update _ op leading target =>
    cases leading with
    | true =>
      simp only [Expr.render, String.toList_append]
      cases op <;> exact ⟨_, _, rfl, by decide⟩
    | false =>
      obtain ⟨c, text, htext, hc⟩ := IsName.eq_cons hleaves
      simp only [Expr.render, String.toList_append, htext]
      exact ⟨c, _, rfl, hc⟩

private theorem spells_wrapIf (wrap : Bool) {text : String} {tokens : List Token}
    (htext : Spells text tokens) : Spells (Expr.wrapIf wrap text) (wrapTokens wrap tokens) := by
  cases wrap with
  | false => exact htext
  | true =>
    intro rest more hrest h
    have hclose := lexes_bracket ')' .rightParen (by decide) h
    have hinner := htext (begins_cons.2 (by decide)) hclose
    have hopen := lexes_bracket '(' .leftParen (by decide) hinner
    simpa [Expr.wrapIf, wrapTokens] using hopen

private theorem wrapIf_eq_cons {wrap : Bool} {text : String}
    (h : ∃ c tail, text.toList = c :: tail ∧ c ≠ '=') :
    ∃ c tail, (Expr.wrapIf wrap text).toList = c :: tail ∧ c ≠ '=' := by
  cases wrap with
  | false => exact h
  | true =>
    refine ⟨'(', text.toList ++ [')'], ?_, by decide⟩
    simp [Expr.wrapIf]

/-- An operator in front of an operand is read apart from it: a blank stands
between two equal signs. -/
private theorem lexes_unary {op : UnaryOp} {inner : String} {rest : List Char}
    {tokens : List Token} (hinner : ∃ c tail, inner.toList = c :: tail ∧ c ≠ '=')
    (h : Lexes (inner.toList ++ rest) tokens) :
    Lexes ((op.spelling ++ Expr.signGap op inner ++ inner).toList ++ rest)
      (.symbol op.symbol :: tokens) := by
  simp only [String.toList_append, List.append_assoc]
  rw [← op.spelling_symbol, Expr.signGap]
  split
  · exact lexes_symbol _ (begins_cons.2 (Symbol.extendsBy_space _)) (lexes_space (by decide) h)
  · rename_i hgap
    obtain ⟨c, tail, htail, hc⟩ := hinner
    refine lexes_symbol _ ?_ h
    rw [htail]
    refine begins_cons.2 (extendsBy_unary op hc ?_)
    by_cases hnot : op = .not
    · exact .inl hnot
    · refine .inr fun hsign => hgap ⟨hnot, ?_⟩
      rw [htail, hsign]
      simp

private theorem lexes_spaced (s : Symbol) {rest : List Char} {tokens : List Token}
    (h : Lexes rest tokens) :
    Lexes (' ' :: (s.spelling.toList ++ ' ' :: rest)) (.symbol s :: tokens) :=
  lexes_space (by decide) <|
    lexes_symbol _ (begins_cons.2 (Symbol.extendsBy_space _)) (lexes_space (by decide) h)

/-- A printed expression is read as its tokens. -/
theorem Expr.spells_render {e : Expr} {okNumber : Float → Prop}
    (hleaves : e.Leaves IsName okNumber) : Spells e.render e.tokens := by
  induction e with
  | literal _ value => exact value.spells_render
  | identifier _ name => exact spells_name hleaves
  | unary _ op operand ih =>
    intro rest more hrest h
    refine lexes_unary (wrapIf_eq_cons (Expr.render_eq_cons hleaves)) ?_
    exact spells_wrapIf _ (ih hleaves) hrest h
  | binary _ op left right ihl ihr =>
    intro rest more hrest h
    have hright := spells_wrapIf (right.precedence ≤ op.precedence) (ihr hleaves.2) hrest h
    have hleft := spells_wrapIf (left.precedence < op.precedence) (ihl hleaves.1)
      (begins_cons.2 (by decide)) (lexes_spaced op.symbol hright)
    simpa [Expr.render, Expr.tokens, op.spelling_symbol] using hleft
  | assign _ op target value ih =>
    intro rest more hrest h
    have hvalue := lexes_spaced op.symbol (ih hleaves.2 hrest h)
    have htarget := spells_name hleaves.1 (begins_cons.2 (by decide)) hvalue
    simpa [Expr.render, Expr.tokens, op.spelling_symbol] using htarget
  | update _ op leading target =>
    intro rest more hrest h
    have hclosed : ∀ c, op.symbol.extendsBy c = false := by cases op <;> exact fun _ => rfl
    cases leading with
    | true =>
      have := lexes_symbol op.symbol (fun c _ => hclosed c) (spells_name hleaves hrest h)
      simpa [Expr.render, Expr.tokens, op.spelling_symbol] using this
    | false =>
      have hstop : Begins (Lexer.isWordPart · = false) (op.symbol.spelling.toList ++ rest) := by
        cases op <;> exact begins_cons.2 (by decide)
      have := lexes_name hleaves hstop (lexes_symbol op.symbol (fun c _ => hclosed c) h)
      simpa [Expr.render, Expr.tokens, op.spelling_symbol] using this

end TraceGraph
