import TraceGraph.Graph.Builder
import TraceGraph.Proofs.Graph.Segmenting
import TraceGraph.Proofs.Stmt.Layout

/-!
# Bodies that are refused

No node of a graph stands for a function, so a body with a function in it is refused.
The builder looks for functions at every depth of conditionals and loops.  Of the other
statements it looks at the outermost level only, and misses a function in a block that
stands there.

* `Stmt.firstFunction?`: the first function among statements, at any depth.
* `Stmt.upToReturn`: the statements that a walk over a body comes to, and
  `Stmt.exposed`, those of them that are no blocks.
* `Segment.findSome?_ofBody`: the faults of segments, in terms of statements.
* `Graph.ofBody_refuses`: a body is refused for the first function that is not in such a
  block.  If no block holds one, this is the first function of all.
-/

namespace TraceGraph

/-! ## Functions among statements -/

namespace Stmt

/-- Whether the statement is a function. -/
def isFunction : Stmt → Bool
  | .function .. => true
  | .block .. | .expression .. | .declare .. | .ifThen .. | .ifElse .. | .loop .. | .exit .. => false

/-- The first function among the statements, at any depth and in source order. -/
def firstFunction? (body : List Stmt) : Option Stmt :=
  (statementsOf body).find? isFunction

/-- The statements of a body up to its first return, together with it. -/
def upToReturn : List Stmt → List Stmt
  | [] => []
  | .exit line result :: _ => [.exit line result]
  | s :: rest => s :: upToReturn rest

/-- The statements up to the first return that are not blocks. -/
def exposed (body : List Stmt) : List Stmt :=
  (upToReturn body).filter fun s => !s.isBlock

/-- The fault of the first function in a list is the first fault in it. -/
theorem findSome?_asNestedFunction? (body : List Stmt) :
    body.findSome? asNestedFunction? = (body.find? isFunction).bind asNestedFunction? := by
  induction body with
  | nil => rfl
  | cons s rest ih =>
    cases s with
    | function => rfl
    | _ => exact ih

mutual

/-- The builder's search goes through a statement in source order. -/
theorem nestedFunction?_eq : (s : Stmt) →
    s.nestedFunction? = s.statements.findSome? asNestedFunction?
  | .function .. | .expression .. | .declare .. | .exit .. => rfl
  | .block _ body => nestedFunctionIn?_eq body
  | .ifThen _ _ consequent => nestedFunction?_eq consequent
  | .ifElse _ _ consequent alternate => by
    rw [nestedFunction?, nestedFunction?_eq consequent, nestedFunction?_eq alternate,
      ← List.findSome?_append]
    rfl
  | .loop _ _ body => nestedFunction?_eq body

theorem nestedFunctionIn?_eq : (body : List Stmt) →
    nestedFunctionIn? body = (statementsOf body).findSome? asNestedFunction?
  | [] => rfl
  | s :: rest => by
    rw [nestedFunctionIn?, nestedFunction?_eq s, nestedFunctionIn?_eq rest,
      ← List.findSome?_append]
    rfl

end

/-- Blocks that hold no function can be left out of the search. -/
theorem firstFunction?_filter {body : List Stmt}
    (h : ∀ s ∈ body, s.isBlock = true → firstFunction? [s] = none) :
    firstFunction? (body.filter fun s => !s.isBlock) = firstFunction? body := by
  induction body with
  | nil => rfl
  | cons s rest ih =>
    have hrest := ih fun t ht => h t (List.mem_cons_of_mem _ ht)
    have hcons : ∀ body, firstFunction? (s :: body)
        = (firstFunction? [s]).or (firstFunction? body) := by
      intro body
      simp [firstFunction?, statementsOf]
    cases hblock : s.isBlock with
    | true =>
      rw [List.filter_cons_of_neg (by simp [hblock]), hrest, hcons,
        h s List.mem_cons_self hblock, Option.none_or]
    | false =>
      rw [List.filter_cons_of_pos (by simp [hblock]), hcons, hcons rest, hrest]

end Stmt

/-! ## Faults of segments -/

namespace Segment

private theorem findSome?_prepend (s : Stmt) (segments : List Segment) :
    (prepend s segments).findSome? fault? = s.asNestedFunction?.or (segments.findSome? fault?) := by
  unfold prepend
  split
  · rename_i stmts rest
    simp only [List.findSome?_cons, fault?]
    cases s.asNestedFunction? <;> rfl
  · simp only [List.findSome?_cons, List.findSome?_nil, fault?]
    cases s.asNestedFunction? <;> rfl

/-- A segment that is searched at every depth, before other segments. -/
private theorem findSome?_cons_segment {segment : Segment} {s : Stmt} {segments : List Segment}
    {rest : List Stmt} (hsegment : segment.fault? = s.nestedFunction?)
    (hrest : segments.findSome? fault?
      = (Stmt.statementsOf rest).findSome? Stmt.asNestedFunction?) :
    (segment :: segments).findSome? fault?
      = (Stmt.statementsOf (s :: rest)).findSome? Stmt.asNestedFunction? := by
  rw [List.findSome?_cons, hsegment, Stmt.nestedFunction?_eq, hrest, Stmt.statementsOf,
    List.findSome?_append]
  cases s.statements.findSome? Stmt.asNestedFunction? <;> rfl

/-- The first fault among the segments of a body is that of its first function, blocks
left out. -/
theorem findSome?_ofBody (body : List Stmt) :
    (ofBody body).findSome? fault?
      = (Stmt.statementsOf (Stmt.exposed body)).findSome? Stmt.asNestedFunction? := by
  fun_induction ofBody body with
  | case1 => rfl
  | case2 line test inner rest ih => exact findSome?_cons_segment rfl ih
  | case3 line test consequent rest ih => exact findSome?_cons_segment Option.or_none ih
  | case4 line test consequent alternate rest ih => exact findSome?_cons_segment rfl ih
  | case5 => rfl
  | case6 s rest hloop hthen helse hexit ih =>
    rw [findSome?_prepend, ih]
    cases s with
    | loop line test inner => exact absurd rfl (hloop line test inner)
    | ifThen line test consequent => exact absurd rfl (hthen line test consequent)
    | ifElse line test consequent alternate =>
      exact absurd rfl (helse line test consequent alternate)
    | exit line result => exact absurd rfl (hexit line result)
    -- a function is found at once, a block is passed over on both sides
    | _ => rfl

end Segment

/-! ## Bodies -/

theorem Builder.fault_walkSegments (b : Builder) (last : Option NodeId) (segments : List Segment) :
    (b.walkSegments last segments).2 = segments.findSome? Segment.fault? := by
  induction segments generalizing b last with
  | nil => rfl
  | cons segment rest ih =>
    rw [walkSegments, List.findSome?_cons]
    cases segment.fault? with
    | some fault => rfl
    | none => exact ih _ _

namespace Graph

variable {body : List Stmt} {firstId : Nat} {path : Option Classification}

/-- A body is refused for its first function, blocks left out. -/
theorem ofBody_eq_error_iff {fault : Fault} :
    ofBody body firstId path = .error fault ↔
      ∃ s, Stmt.firstFunction? (Stmt.exposed body) = some s ∧
        s.asNestedFunction? = some fault := by
  have hwalk : ofBody body firstId path = .error fault ↔
      ((Builder.start firstId path).walk body).2 = some fault := by
    unfold ofBody
    rcases (Builder.start firstId path).walk body with ⟨b, outcome⟩
    cases outcome <;> simp
  rw [hwalk, Builder.walk, Builder.fault_walkSegments, Segment.findSome?_ofBody,
    Stmt.findSome?_asNestedFunction?]
  exact Option.bind_eq_some_iff

theorem firstFunction?_of_ofBody {graph : Graph} (h : ofBody body firstId path = .ok graph) :
    Stmt.firstFunction? (Stmt.exposed body) = none := by
  cases hfirst : Stmt.firstFunction? (Stmt.exposed body) with
  | none => rfl
  | some s =>
    have hfunction := List.find?_some hfirst
    cases s with
    | function line name params bodyLine inner =>
      rw [ofBody_eq_error_iff.2 ⟨_, hfirst, rfl⟩] at h
      cases h
    | _ => cases hfunction

/-- A body is refused exactly if there is a function in its statements up to the first
return, blocks left out, and the fault is that of the first one.  If no such block holds
a function, then a body with a graph has no function in these statements at any depth,
and one with functions is refused at the line of the first one in source order. -/
theorem ofBody_refuses (body : List Stmt) (firstId : Nat) (path : Option Classification) :
    (∀ fault, ofBody body firstId path = .error fault ↔
      ∃ s, Stmt.firstFunction? (Stmt.exposed body) = some s ∧
        s.asNestedFunction? = some fault) ∧
    ((∀ s ∈ Stmt.upToReturn body, s.isBlock = true → Stmt.firstFunction? [s] = none) →
      (∀ graph, ofBody body firstId path = .ok graph →
        ∀ s ∈ Stmt.statementsOf (Stmt.upToReturn body), s.isFunction = false) ∧
      ∀ line name params bodyLine inner,
        Stmt.firstFunction? (Stmt.upToReturn body)
            = some (.function line name params bodyLine inner) →
          ofBody body firstId path = .error (.unsupported line (.nestedFunction (some name)))) := by
  refine ⟨fun fault => ofBody_eq_error_iff, fun hblocks => ?_⟩
  have hsame : Stmt.firstFunction? (Stmt.exposed body)
      = Stmt.firstFunction? (Stmt.upToReturn body) := Stmt.firstFunction?_filter hblocks
  constructor
  · intro graph hgraph s hs
    have hnone := firstFunction?_of_ofBody hgraph
    rw [hsame] at hnone
    exact Bool.eq_false_iff.2 (List.find?_eq_none.1 hnone s hs)
  · intro line name params bodyLine inner hfirst
    exact ofBody_eq_error_iff.2 ⟨_, hsame.trans hfirst, rfl⟩

/-- A function in a block of the last link of a chain, and one after the return. -/
private def hidesInChain : List Stmt :=
  [.block 1 [.expression 1 (.identifier 1 "x")],
   .ifElse 2 (.identifier 2 "x") (.block 2 [])
     (.ifElse 3 (.identifier 3 "y") (.block 3 [])
       (.block 4 [.block 5 [.function 6 "g" [] 6 []], .function 7 "h" [] 7 []])),
   .exit 8 none,
   .function 9 "k" [] 9 []]

theorem ofBody_refuses_hidesInChain :
    (∀ s ∈ Stmt.upToReturn hidesInChain, s.isBlock = true → Stmt.firstFunction? [s] = none) ∧
      Stmt.firstFunction? (Stmt.upToReturn hidesInChain) = some (.function 6 "g" [] 6 []) ∧
      ofBody hidesInChain 1 none = .error (.unsupported 6 (.nestedFunction (some "g"))) := by
  have hblocks : ∀ s ∈ Stmt.upToReturn hidesInChain, s.isBlock = true →
      (Stmt.firstFunction? [s]).isNone := by decide
  have hnone : ∀ s ∈ Stmt.upToReturn hidesInChain, s.isBlock = true →
      Stmt.firstFunction? [s] = none :=
    fun s hs hblock => Option.isNone_iff_eq_none.1 (hblocks s hs hblock)
  obtain ⟨-, hsearched⟩ := ofBody_refuses hidesInChain 1 none
  obtain ⟨-, hrefused⟩ := hsearched hnone
  exact ⟨hnone, rfl, hrefused 6 "g" [] 6 [] rfl⟩

/-- A function in a block of its own. -/
private def hidesInBlock : List Stmt :=
  [.block 1 [.function 2 "g" [] 2 []]]

/-- The function is missed, and the body has a graph. -/
theorem ofBody_hidesInBlock :
    (∃ graph, ofBody hidesInBlock 1 none = .ok graph) ∧
      Stmt.firstFunction? (Stmt.upToReturn hidesInBlock) = some (.function 2 "g" [] 2 []) :=
  ⟨⟨_, rfl⟩, rfl⟩

end Graph

end TraceGraph
