import TraceGraph.Stmt

/-!
# Trees without their lines

`Stmt.map` changes the lines and the expressions of a statement and keeps its
shape.  Two trees are equal up to lines if `eraseLines` makes them equal.
-/

namespace TraceGraph

/-! ## Expressions -/

namespace Expr

/-- The expression with all lines changed. -/
def mapLines (f : Nat → Nat) : Expr → Expr
  | .literal line value => .literal (f line) value
  | .identifier line name => .identifier (f line) name
  | .unary line op operand => .unary (f line) op (operand.mapLines f)
  | .binary line op left right => .binary (f line) op (left.mapLines f) (right.mapLines f)
  | .assign line op target value => .assign (f line) op target (value.mapLines f)
  | .update line op leading target => .update (f line) op leading target

/-- The expression with all lines forgotten. -/
def eraseLines (e : Expr) : Expr :=
  e.mapLines fun _ => 0

end Expr

/-! ## Statements -/

/-- The declarator with its line and its initial value changed. -/
def Declarator.map (f : Nat → Nat) (g : Expr → Expr) (d : Declarator) : Declarator :=
  ⟨d.name, d.init.map g, f d.line⟩

mutual

/-- The statement with its lines and its expressions changed. -/
def Stmt.map (f : Nat → Nat) (g : Expr → Expr) : Stmt → Stmt
  | .function line name params bodyLine body =>
    .function (f line) name params (f bodyLine) (Stmt.mapAll f g body)
  | .block line body => .block (f line) (Stmt.mapAll f g body)
  | .expression line expr => .expression (f line) (g expr)
  | .declare line kind declarators =>
    .declare (f line) kind (declarators.map (Declarator.map f g))
  | .ifThen line test consequent => .ifThen (f line) (g test) (consequent.map f g)
  | .ifElse line test consequent alternate =>
    .ifElse (f line) (g test) (consequent.map f g) (alternate.map f g)
  | .loop line test body => .loop (f line) (g test) (body.map f g)
  | .exit line result => .exit (f line) (result.map g)

/-- The statements with their lines and their expressions changed. -/
def Stmt.mapAll (f : Nat → Nat) (g : Expr → Expr) : List Stmt → List Stmt
  | [] => []
  | s :: rest => s.map f g :: Stmt.mapAll f g rest

end

mutual

theorem Stmt.map_map (f₁ f₂ : Nat → Nat) (g₁ g₂ : Expr → Expr) : (s : Stmt) →
    (s.map f₁ g₁).map f₂ g₂ = s.map (f₂ ∘ f₁) (g₂ ∘ g₁)
  | .function _ _ _ _ body => by
    simp only [Stmt.map, Function.comp, Stmt.mapAll_mapAll f₁ f₂ g₁ g₂ body]
  | .block _ body => by
    simp only [Stmt.map, Function.comp, Stmt.mapAll_mapAll f₁ f₂ g₁ g₂ body]
  | .expression _ _ => rfl
  | .declare _ _ declarators => by
    simp [Stmt.map, Declarator.map, Function.comp_def]
  | .ifThen _ _ consequent => by
    simp only [Stmt.map, Function.comp, Stmt.map_map f₁ f₂ g₁ g₂ consequent]
  | .ifElse _ _ consequent alternate => by
    simp only [Stmt.map, Function.comp, Stmt.map_map f₁ f₂ g₁ g₂ consequent,
      Stmt.map_map f₁ f₂ g₁ g₂ alternate]
  | .loop _ _ body => by
    simp only [Stmt.map, Function.comp, Stmt.map_map f₁ f₂ g₁ g₂ body]
  | .exit _ result => by
    simp [Stmt.map]

theorem Stmt.mapAll_mapAll (f₁ f₂ : Nat → Nat) (g₁ g₂ : Expr → Expr) : (body : List Stmt) →
    Stmt.mapAll f₂ g₂ (Stmt.mapAll f₁ g₁ body) = Stmt.mapAll (f₂ ∘ f₁) (g₂ ∘ g₁) body
  | [] => rfl
  | s :: rest => by
    simp only [Stmt.mapAll, Stmt.map_map f₁ f₂ g₁ g₂ s, Stmt.mapAll_mapAll f₁ f₂ g₁ g₂ rest]

end

/-- The statement with all lines forgotten. -/
def Stmt.eraseLines (s : Stmt) : Stmt :=
  s.map (fun _ => 0) Expr.eraseLines

/-- The program with all lines forgotten. -/
def Program.eraseLines (p : Program) : Program :=
  ⟨Stmt.mapAll (fun _ => 0) Expr.eraseLines p.body⟩

end TraceGraph
