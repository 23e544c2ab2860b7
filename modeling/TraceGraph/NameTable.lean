/-!
# Tables in the order of their names

A table is a list of entries in ascending order of names, each name once.  Names
are compared by code points.
-/

namespace TraceGraph

/-- Entries in ascending order of names. -/
abbrev NameTable (α : Type) := List (String × α)

namespace NameTable

variable {α : Type}

/-- Puts a value under a name, in place of what was there. -/
def put (name : String) (value : α) : NameTable α → NameTable α
  | [] => [(name, value)]
  | (n, v) :: rest =>
    if name < n then (name, value) :: (n, v) :: rest
    else if name = n then (name, value) :: rest
    else (n, v) :: put name value rest

/-- The table of a list of pairs.  Of two pairs with one name the later one
counts. -/
def ofPairs (pairs : List (String × α)) : NameTable α :=
  pairs.foldl (fun table (name, value) => put name value table) []

end NameTable

end TraceGraph
