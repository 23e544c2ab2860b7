import TraceGraph.Stmt.Fold

/-!
# Named environments that share storage

A shelf holds environments under names.  Copies share the storage of what they
were copied from until one of them is written.  That is modelled by marks: a new
environment and a written one get a mark that no other has, a copy keeps the
mark, and two environments share storage exactly when their marks are equal.
-/

namespace TraceGraph

/-- An environment with the mark of its storage. -/
structure Stored where
  env : Env
  mark : Nat
deriving DecidableEq, Repr, Inhabited

/-- Whether two environments share their storage. -/
def Stored.sharesWith (a b : Stored) : Bool :=
  a.mark == b.mark

/-- Environments under names, and the next mark that has not been given out. -/
structure Shelf where
  stored : List (String × Stored)
  nextMark : Nat
deriving DecidableEq, Repr, Inhabited

namespace Shelf

/-- The shelf without environments. -/
def empty : Shelf := ⟨[], 0⟩

/-- The environment under a name. -/
def get? (shelf : Shelf) (name : String) : Option Stored :=
  shelf.stored.lookup name

/-- Puts an environment under a name, in place of what was there. -/
def put (shelf : Shelf) (name : String) (entry : Stored) : Shelf :=
  { shelf with stored := (name, entry) :: shelf.stored.filter (·.1 != name) }

/-- Puts an environment with storage of its own under a name. -/
def store (shelf : Shelf) (name : String) (env : Env) : Shelf :=
  { shelf.put name ⟨env, shelf.nextMark⟩ with nextMark := shelf.nextMark + 1 }

/-- Puts a fresh environment under a name. -/
def fresh (shelf : Shelf) (name : String) : Shelf :=
  shelf.store name .empty

/-- Makes sure that there is an environment under a name. -/
def require (shelf : Shelf) (name : String) : Shelf :=
  if (shelf.get? name).isSome then shelf else shelf.fresh name

/-- The environment under a name, empty if there is none. -/
def env (shelf : Shelf) (name : String) : Env :=
  ((shelf.get? name).map Stored.env).getD .empty

/-- Puts a copy of one environment under another name. -/
def copy (shelf : Shelf) (source target : String) : Shelf :=
  match shelf.get? source with
  | some entry => shelf.put target entry
  | none => shelf

/-- Writes an environment back after work on it.  Storage is only split from its
copies if the work has made a binding. -/
def write (shelf : Shelf) (name : String) (env : Env) : Shelf :=
  if env.log.length = (shelf.env name).log.length then shelf else shelf.store name env

/-- Whether the environments under two names share their storage. -/
def shares (shelf : Shelf) (a b : String) : Bool :=
  match shelf.get? a, shelf.get? b with
  | some x, some y => x.sharesWith y
  | _, _ => false

end Shelf

end TraceGraph
