import TraceGraph.Env.Shelf
import TraceGraph.Proofs.Stmt.Bindings

/-!
# Environments that share storage

Work on the environments of a shelf, one operation after the other.  A copy has the
mark of what it was copied from, and a binding takes a mark that was never given out, so
the invariant of a session is that environments with the same mark are the same.

* `Shelf.Op` and `Shelf.perform`: the operations.  `Shelf.env_perform` says what every
  environment is after one of them.
* `Shelf.Sound`: the invariant.  `Shelf.Sound.perform` keeps it in one step, and
  `Shelf.run_sound` in all steps.
* `Shelf.Rewrites`: one environment has been given storage of its own.  Two shelves that
  have come about like this from a sound one cannot be told apart, and so folding
  statements looks like making their bindings one at a time.
* `Shelf.run_isolates`: no operation is seen in another environment.
-/

namespace TraceGraph

/-! ## Operations -/

/-- Work that may bind names. -/
inductive Env.Edit where
  | bind (name : String) (value : Expr)
  | bindLiteral (line : Nat) (name : String) (value : Literal)
  | bindPlaceholder (line : Nat) (name : String)
  | fold (body : List Stmt)

/-- The environment after the work, as far as it got. -/
def Env.Edit.run : Env.Edit → Env → Env
  | .bind name value, env => env.bind name value
  | .bindLiteral line name value, env => env.bindLiteral line name value
  | .bindPlaceholder line name, env => env.bindPlaceholder line name
  | .fold body, env => (Stmt.foldAll body env).env

/-- Work keeps the bindings that are there and puts newer ones in front of them. -/
theorem Env.Edit.log_suffix (work : Env.Edit) (env : Env) : env.log <:+ (work.run env).log := by
  cases work with
  | bind => exact List.suffix_cons _ _
  | bindLiteral => exact List.suffix_cons _ _
  | bindPlaceholder => exact List.suffix_cons _ _
  | fold body =>
    obtain ⟨made, hmade, -⟩ := Stmt.binds_foldAll body env
    exact hmade.log_suffix

namespace Shelf

/-- An operation on the environments of a shelf. -/
inductive Op where
  /-- Looks at an environment. -/
  | read (name : String)
  | fresh (name : String)
  | copy (source target : String)
  | edit (name : String) (work : Env.Edit)

namespace Op

/-- The environment that the operation works on.  It is there from its first use on. -/
def subject : Op → String
  | .read name | .fresh name | .copy name _ | .edit name _ => name

/-- The environment that the operation may change. -/
def target : Op → String
  | .read name | .fresh name | .copy _ name | .edit name _ => name

/-- What the operation leaves under the name that it may change. -/
def outcome (shelf : Shelf) : Op → Env
  | .read name => shelf.env name
  | .fresh _ => .empty
  | .copy source _ => shelf.env source
  | .edit name work => work.run (shelf.env name)

end Op

/-- Performs an operation. -/
def perform (shelf : Shelf) (op : Op) : Shelf :=
  let shelf := shelf.require op.subject
  match op with
  | .read _ => shelf
  | .fresh name => shelf.fresh name
  | .copy source target => shelf.copy source target
  | .edit name work => shelf.write name (work.run (shelf.env name))

/-- The shelf after operations, starting from nothing. -/
def run (ops : List Op) : Shelf :=
  ops.foldl perform .empty

/-! ## Looking up -/

variable {shelf : Shelf}

private theorem lookup_filter_ne {name other : String} (hne : other ≠ name)
    (stored : List (String × Stored)) :
    (stored.filter (·.1 != name)).lookup other = stored.lookup other := by
  induction stored with
  | nil => rfl
  | cons entry rest ih =>
    obtain ⟨key, value⟩ := entry
    by_cases hkey : key = name
    · have hbeq : (other == key) = false := by simpa [hkey] using hne
      rw [List.filter_cons_of_neg (by simp [hkey]), List.lookup_cons, hbeq, ih]
    · rw [List.filter_cons_of_pos (by simp [hkey]), List.lookup_cons, List.lookup_cons, ih]

theorem get?_put (name other : String) (entry : Stored) :
    (shelf.put name entry).get? other = if other = name then some entry else shelf.get? other := by
  rw [get?, put, List.lookup_cons]
  split
  · rename_i heq
    rw [if_pos (beq_iff_eq.1 heq)]
  · rename_i hbeq
    have hne : other ≠ name := by simpa using hbeq
    rw [if_neg hne, lookup_filter_ne hne, get?]

theorem get?_store (name other : String) (env : Env) :
    (shelf.store name env).get? other
      = if other = name then some ⟨env, shelf.nextMark⟩ else shelf.get? other :=
  get?_put name other _

theorem isSome_get?_store (shelf : Shelf) (name : String) (env : Env) :
    ((shelf.store name env).get? name).isSome = true := by
  rw [get?_store, if_pos rfl, Option.isSome_some]

theorem isSome_get?_require (name : String) : ((shelf.require name).get? name).isSome = true := by
  rw [require]
  split
  · assumption
  · exact isSome_get?_store shelf name .empty

theorem require_eq_self {name : String} (h : (shelf.get? name).isSome = true) :
    shelf.require name = shelf := by
  rw [require, if_pos h]

theorem env_of_get? {name : String} {entry : Stored} (h : shelf.get? name = some entry) :
    shelf.env name = entry.env := by
  rw [env, h, Option.map_some, Option.getD_some]

theorem shares_comm (a b : String) : shelf.shares a b = shelf.shares b a := by
  rw [shares, shares]
  cases shelf.get? a with
  | none => cases shelf.get? b <;> rfl
  | some x =>
    cases shelf.get? b with
    | none => rfl
    | some y => exact Bool.beq_comm

/-! ## What each environment is after an operation -/

theorem env_store (name other : String) (env : Env) :
    (shelf.store name env).env other = if other = name then env else shelf.env other := by
  rw [Shelf.env, get?_store]
  split <;> rfl

/-- An environment that is not there counts as an empty one, so making sure of one is not
seen. -/
@[simp] theorem env_require (name other : String) :
    (shelf.require name).env other = shelf.env other := by
  rw [require]
  split
  · rfl
  · rename_i hnone
    rw [fresh, env_store]
    split
    · rename_i heq
      have hget : shelf.get? name = none := by simpa using hnone
      rw [heq, env, hget, Option.map_none, Option.getD_none]
    · rfl

theorem env_copy {source target : String} (h : (shelf.get? source).isSome = true)
    (other : String) :
    (shelf.copy source target).env other
      = if other = target then shelf.env source else shelf.env other := by
  obtain ⟨entry, hentry⟩ := Option.isSome_iff_exists.1 h
  rw [copy, hentry, Shelf.env, get?_put]
  split
  · rw [env_of_get? hentry, Option.map_some, Option.getD_some]
  · rfl

/-- Work that made no binding has left the environment as it was. -/
theorem write_cases {name : String} {env : Env} (h : (shelf.env name).log <:+ env.log) :
    env = shelf.env name ∧ shelf.write name env = shelf
      ∨ env ≠ shelf.env name ∧ shelf.write name env = shelf.store name env := by
  rw [write]
  split
  · rename_i hlength
    exact .inl ⟨congrArg Env.mk (h.eq_of_length hlength.symm).symm, rfl⟩
  · rename_i hlength
    exact .inr ⟨fun heq => hlength (by rw [heq]), rfl⟩

theorem env_write {name : String} {env : Env} (h : (shelf.env name).log <:+ env.log)
    (other : String) :
    (shelf.write name env).env other = if other = name then env else shelf.env other := by
  obtain ⟨heq, hwrite⟩ | ⟨-, hwrite⟩ := write_cases h
  · rw [hwrite, heq]
    split
    · rename_i hname
      rw [hname]
    · rfl
  · rw [hwrite, env_store]

/-- An operation leaves its outcome under one name and everything else as it was. -/
theorem env_perform (shelf : Shelf) (op : Op) (other : String) :
    (shelf.perform op).env other
      = if other = op.target then op.outcome shelf else shelf.env other := by
  cases op with
  | read name =>
    show (shelf.require name).env other = if other = name then shelf.env name else shelf.env other
    rw [env_require]
    split
    · rename_i hname
      rw [hname]
    · rfl
  | fresh name =>
    show ((shelf.require name).store name .empty).env other
      = if other = name then .empty else shelf.env other
    rw [env_store, env_require]
  | copy source target =>
    show ((shelf.require source).copy source target).env other
      = if other = target then shelf.env source else shelf.env other
    rw [env_copy (isSome_get?_require source), env_require, env_require]
  | edit name work =>
    show ((shelf.require name).write name (work.run ((shelf.require name).env name))).env other
      = if other = name then work.run (shelf.env name) else shelf.env other
    rw [env_write (work.log_suffix _), env_require, env_require]

/-! ## The invariant of a session -/

/-- Marks that were given out stay below the next one, and what has one mark is one
environment. -/
structure Sound (shelf : Shelf) : Prop where
  below : ∀ {name : String} {entry : Stored}, shelf.get? name = some entry →
    entry.mark < shelf.nextMark
  agree : ∀ {a b : String} {x y : Stored}, shelf.get? a = some x → shelf.get? b = some y →
    x.mark = y.mark → x.env = y.env

theorem empty_sound : empty.Sound where
  below := nofun
  agree := nofun

namespace Sound

theorem store (h : shelf.Sound) (name : String) (env : Env) : (shelf.store name env).Sound where
  below := by
    intro other entry hget
    show entry.mark < shelf.nextMark + 1
    rw [get?_store] at hget
    split at hget
    · cases hget
      exact Nat.lt_succ_self _
    · exact Nat.lt_succ_of_lt (h.below hget)
  agree := by
    intro a b x y ha hb hmark
    rw [get?_store] at ha hb
    -- the new mark is above all others, so it is on both sides or on none
    split at ha <;> split at hb
    · cases ha
      cases hb
      rfl
    · cases ha
      exact absurd hmark.symm (Nat.ne_of_lt (h.below hb))
    · cases hb
      exact absurd hmark (Nat.ne_of_lt (h.below ha))
    · exact h.agree ha hb hmark

theorem put (h : shelf.Sound) {source : String} {entry : Stored}
    (hsource : shelf.get? source = some entry) (target : String) :
    (shelf.put target entry).Sound where
  below := by
    intro other found hget
    rw [get?_put] at hget
    split at hget
    · cases hget
      exact h.below hsource
    · exact h.below hget
  agree := by
    intro a b x y ha hb
    rw [get?_put] at ha hb
    split at ha <;> split at hb
    · cases ha
      cases hb
      exact fun _ => rfl
    · cases ha
      exact h.agree hsource hb
    · cases hb
      exact h.agree ha hsource
    · exact h.agree ha hb

theorem require (h : shelf.Sound) (name : String) : (shelf.require name).Sound := by
  rw [Shelf.require]
  split
  · exact h
  · exact h.store name .empty

theorem copy (h : shelf.Sound) (source target : String) : (shelf.copy source target).Sound := by
  rw [Shelf.copy]
  split
  · rename_i hsource
    exact h.put hsource target
  · exact h

theorem write (h : shelf.Sound) (name : String) (env : Env) : (shelf.write name env).Sound := by
  rw [Shelf.write]
  split
  · exact h
  · exact h.store name env

/-- One operation keeps the invariant. -/
theorem perform (h : shelf.Sound) (op : Op) : (shelf.perform op).Sound := by
  have hrequired := h.require op.subject
  cases op with
  | read => exact hrequired
  | fresh name => exact hrequired.store name .empty
  | copy source target => exact hrequired.copy source target
  | edit name => exact hrequired.write name _

/-- Environments that share their storage are the same. -/
theorem env_eq_of_shares (h : shelf.Sound) {a b : String} (hshares : shelf.shares a b = true) :
    shelf.env a = shelf.env b := by
  rw [shares] at hshares
  split at hshares
  · rename_i x y ha hb
    rw [env_of_get? ha, env_of_get? hb]
    exact h.agree ha hb (beq_iff_eq.1 hshares)
  · exact absurd hshares Bool.false_ne_true

end Sound

theorem foldl_perform_sound (h : shelf.Sound) (ops : List Op) : (ops.foldl perform shelf).Sound := by
  induction ops generalizing shelf with
  | nil => exact h
  | cons op ops ih => exact ih (h.perform op)

theorem run_sound (ops : List Op) : (run ops).Sound :=
  foldl_perform_sound empty_sound ops

/-! ## Storage of its own -/

/-- The shelves have the same environments, and the same ones share their storage. -/
structure Alike (shelf other : Shelf) : Prop where
  env : ∀ name, shelf.env name = other.env name
  shares : ∀ a b, shelf.shares a b = other.shares a b

/-- The environment under a name has been written, with a mark that was not given out
before. -/
structure Rewrites (shelf : Shelf) (name : String) (env : Env) (after : Shelf) : Prop where
  written : ∃ mark, shelf.nextMark ≤ mark ∧ after.get? name = some ⟨env, mark⟩
  others : ∀ {other : String}, other ≠ name → after.get? other = shelf.get? other

namespace Rewrites

variable {name : String} {env env' : Env} {after after' : Shelf}

theorem store (shelf : Shelf) (name : String) (env : Env) :
    shelf.Rewrites name env (shelf.store name env) where
  written := ⟨shelf.nextMark, Nat.le_refl _, by rw [get?_store, if_pos rfl]⟩
  others hne := by rw [get?_store, if_neg hne]

theorem trans_store (h : (shelf.store name env).Rewrites name env' after) :
    shelf.Rewrites name env' after where
  written := by
    obtain ⟨mark, hmark, hget⟩ := h.written
    exact ⟨mark, Nat.le_of_succ_le hmark, hget⟩
  others hne := by rw [h.others hne, get?_store, if_neg hne]

theorem env_eq (h : shelf.Rewrites name env after) (other : String) :
    after.env other = if other = name then env else shelf.env other := by
  split
  · rename_i hname
    obtain ⟨mark, -, hget⟩ := h.written
    rw [hname, env_of_get? hget]
  · rename_i hne
    rw [Shelf.env, h.others hne, Shelf.env]

/-- What has been written shares its storage with nothing else. -/
theorem not_shares (h : shelf.Rewrites name env after) (hsound : shelf.Sound) {other : String}
    (hne : other ≠ name) : after.shares name other = false := by
  obtain ⟨mark, hmark, hget⟩ := h.written
  rw [shares, hget, h.others hne]
  cases hother : shelf.get? other with
  | none => rfl
  | some entry =>
    have hlt := hsound.below hother
    have hmarks : mark ≠ entry.mark := by omega
    exact beq_eq_false_iff_ne.2 hmarks

theorem shares_eq (h : shelf.Rewrites name env after) (hsound : shelf.Sound) (a b : String) :
    after.shares a b
      = if a = name then decide (b = name) else if b = name then false else shelf.shares a b := by
  by_cases ha : a = name <;> by_cases hb : b = name
  · obtain ⟨mark, -, hget⟩ := h.written
    simp [shares, ha, hb, hget, Stored.sharesWith]
  · rw [if_pos ha, decide_eq_false hb, ha]
    exact h.not_shares hsound hb
  · rw [if_neg ha, if_pos hb, hb, shares_comm]
    exact h.not_shares hsound ha
  · rw [if_neg ha, if_neg hb, shares, h.others ha, h.others hb, shares]

/-- It does not matter by which marks the same has been written. -/
theorem alike (h : shelf.Rewrites name env after) (h' : shelf.Rewrites name env after')
    (hsound : shelf.Sound) : after.Alike after' where
  env other := by rw [h.env_eq, h'.env_eq]
  shares a b := by rw [h.shares_eq hsound, h'.shares_eq hsound]

end Rewrites

/-! ## Bindings one at a time -/

/-- Binds names in one environment, each by an operation of its own. -/
def bindAll (shelf : Shelf) (name : String) (bindings : List (String × Expr)) : Shelf :=
  bindings.foldl (fun shelf binding => shelf.perform (.edit name (.bind binding.1 binding.2))) shelf

section

variable {name : String}

theorem perform_bind (h : (shelf.get? name).isSome = true) (x : String) (value : Expr) :
    shelf.perform (.edit name (.bind x value))
      = shelf.store name ((shelf.env name).bind x value) := by
  show (shelf.require name).write name (((shelf.require name).env name).bind x value) = _
  rw [require_eq_self h, write, if_neg]
  exact Nat.succ_ne_self _

/-- Each binding takes a new mark, and the last one stays. -/
theorem bindAll_rewrites (h : (shelf.get? name).isSome = true) (first : String × Expr)
    (rest : List (String × Expr)) :
    shelf.Rewrites name ((shelf.env name).bindAll (first :: rest))
      (shelf.bindAll name (first :: rest)) := by
  induction rest generalizing shelf first with
  | nil =>
    show shelf.Rewrites name _ (shelf.perform (.edit name (.bind first.1 first.2)))
    rw [perform_bind h]
    exact .store shelf name _
  | cons second rest ih =>
    have hthere := isSome_get?_store shelf name ((shelf.env name).bind first.1 first.2)
    have hrest := ih hthere second
    rw [env_store, if_pos rfl] at hrest
    rw [bindAll, List.foldl_cons, perform_bind h]
    exact hrest.trans_store

end

/-- Work that has made these bindings cannot be told from making them one at a time. -/
theorem Sound.alike_bindAll (h : shelf.Sound) {name : String}
    (hthere : (shelf.get? name).isSome = true) (bindings : List (String × Expr)) :
    (shelf.write name ((shelf.env name).bindAll bindings)).Alike (shelf.bindAll name bindings) := by
  cases bindings with
  | nil =>
    have hwrite : shelf.write name ((shelf.env name).bindAll []) = shelf := by
      rw [Shelf.write]
      exact if_pos rfl
    rw [hwrite]
    exact ⟨fun _ => rfl, fun _ _ => rfl⟩
  | cons first rest =>
    have hwrite : shelf.write name ((shelf.env name).bindAll (first :: rest))
        = shelf.store name ((shelf.env name).bindAll (first :: rest)) := by
      rw [Shelf.write, Env.log_bindAll]
      refine if_neg ?_
      rw [List.length_append, List.length_reverse, List.length_cons]
      omega
    rw [hwrite]
    exact Rewrites.alike (.store shelf name _) (bindAll_rewrites hthere first rest) h

/-- Folding statements that bind nothing outside branches and loops only makes sure that the
environment is there. -/
theorem perform_fold_of_binders {body : List Stmt} (h : Stmt.bindersOf body = [])
    (shelf : Shelf) (name : String) :
    shelf.perform (.edit name (.fold body)) = shelf.require name := by
  have hbinds := Stmt.binds_foldAll body ((shelf.require name).env name)
  rw [h] at hbinds
  show (shelf.require name).write name (Stmt.foldAll body ((shelf.require name).env name)).env = _
  rw [hbinds.env_eq, write, if_pos rfl]

theorem shares_require {name other : String} (hne : other ≠ name) (h : shelf.Sound) :
    (shelf.require name).shares name other = shelf.shares name other := by
  rw [require]
  split
  · rfl
  · rename_i hnone
    have hget : shelf.get? name = none := by simpa using hnone
    rw [fresh, (Rewrites.store shelf name .empty).not_shares h hne, shares, hget]

/-! ## Isolation -/

/-- Whatever has been done on a shelf before,

* an operation on one environment changes no other,
* environments that share their storage are the same,
* folding statements that bind names in branches and loops only leaves the environment as it
  is, and in the storage that it shares with others, and
* folding any statements, to their end or up to a fault, is seen as the bindings that they
  make outside branches and loops, each of them an operation of its own. -/
theorem run_isolates (ops : List Op) :
    let shelf := run ops
    (∀ op other, other ≠ op.target → (shelf.perform op).env other = shelf.env other)
    ∧ (∀ a b, shelf.shares a b = true → shelf.env a = shelf.env b)
    ∧ (∀ name body, Stmt.bindersOf body = [] →
        let after := shelf.perform (.edit name (.fold body))
        after.env name = shelf.env name
        ∧ ∀ other, other ≠ name → after.shares name other = shelf.shares name other)
    ∧ ∀ name body, ∃ bindings : List (String × Expr),
        bindings.map Prod.fst <+: Stmt.bindersOf body
        ∧ ((Stmt.foldAll body (shelf.env name)).fault = none →
            bindings.map Prod.fst = Stmt.bindersOf body)
        ∧ (shelf.perform (.edit name (.fold body))).Alike
            ((shelf.require name).bindAll name bindings) := by
  intro shelf
  have hsound : shelf.Sound := run_sound ops
  refine ⟨?_, fun a b => hsound.env_eq_of_shares, ?_, ?_⟩
  · intro op other hne
    rw [env_perform, if_neg hne]
  · intro name body hbinders
    rw [perform_fold_of_binders hbinders]
    exact ⟨env_require name name, fun other hne => shares_require hne hsound⟩
  · intro name body
    obtain ⟨-, ⟨bindings, rfl, hbindings⟩, hprefix, hall⟩ :=
      Stmt.binds_foldAll body (shelf.env name)
    refine ⟨bindings, hprefix, hall, ?_⟩
    have halike := (hsound.require name).alike_bindAll (isSome_get?_require name) bindings
    rw [env_require, hbindings] at halike
    show ((shelf.require name).write name
      (Stmt.foldAll body ((shelf.require name).env name)).env).Alike _
    rw [env_require]
    exact halike

private def branchSession : List Op :=
  [.edit "outer" (.bindLiteral 1 "x" (.bool true)), .copy "outer" "kept",
    .copy "outer" "branch", .edit "branch" (.bindLiteral 2 "y" (.bool false))]

private def assignInBranch : List Stmt :=
  [.ifThen 3 (.identifier 3 "x")
    (.expression 3 (.assign 3 .assign "x" (.literal 3 (.bool false))))]

/-- A copy that is kept stays shared when a branch assigns, and what a written copy holds is
not seen in it. -/
theorem run_isolates_branchSession :
    (run branchSession).shares "outer" "kept" = true
    ∧ (run branchSession).shares "outer" "branch" = false
    ∧ (run branchSession).env "outer" = (run branchSession).env "kept"
    ∧ Stmt.bindersOf assignInBranch = []
    ∧ ((run branchSession).perform (.edit "outer" (.fold assignInBranch))).shares "outer" "kept"
        = true
    ∧ ((run branchSession).perform (.edit "branch" (.bindPlaceholder 4 "x"))).env "kept"
        = (run branchSession).env "kept" := by
  obtain ⟨hframe, hsame, hbranches, -⟩ := run_isolates branchSession
  have hshares : (run branchSession).shares "outer" "kept" = true := by decide +kernel
  refine ⟨hshares, by decide +kernel, hsame _ _ hshares, rfl, ?_, ?_⟩
  · rw [(hbranches "outer" assignInBranch rfl).2 "kept" (by decide)]
    exact hshares
  · exact hframe (.edit "branch" (.bindPlaceholder 4 "x")) "kept" (by decide)

end Shelf

end TraceGraph
