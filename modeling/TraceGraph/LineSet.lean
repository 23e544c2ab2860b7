/-!
# Sets of lines

A set of lines is the ascending list of its members, so two sets with the same
members are equal.
-/

namespace TraceGraph

/-- Puts a line in its place in an ascending list.  A line that is there already
is not repeated. -/
def insertLine (n : Nat) : List Nat → List Nat
  | [] => [n]
  | m :: rest =>
    if n < m then n :: m :: rest
    else if n = m then m :: rest
    else m :: insertLine n rest

theorem mem_insertLine {n m : Nat} {lines : List Nat} :
    m ∈ insertLine n lines ↔ m = n ∨ m ∈ lines := by
  induction lines with
  | nil => simp [insertLine]
  | cons k rest ih =>
    unfold insertLine
    split
    · simp
    · split
      · rename_i heq
        simp [heq]
      · simp only [List.mem_cons, ih]
        exact ⟨fun h => by rcases h with h | h | h <;> simp [h],
          fun h => by rcases h with h | h | h <;> simp [h]⟩

theorem pairwise_insertLine (n : Nat) {lines : List Nat} (h : lines.Pairwise (· < ·)) :
    (insertLine n lines).Pairwise (· < ·) := by
  induction lines with
  | nil => simp [insertLine]
  | cons k rest ih =>
    obtain ⟨hk, hrest⟩ := List.pairwise_cons.1 h
    unfold insertLine
    split
    · rename_i hlt
      refine List.pairwise_cons.2 ⟨fun m hm => ?_, h⟩
      rcases List.mem_cons.1 hm with rfl | hm
      · exact hlt
      · exact Nat.lt_trans hlt (hk m hm)
    · split
      · exact h
      · refine List.pairwise_cons.2 ⟨fun m hm => ?_, ih hrest⟩
        rcases mem_insertLine.1 hm with rfl | hm
        · omega
        · exact hk m hm

/-- A set of lines. -/
structure LineSet where
  lines : List Nat
  ascending : lines.Pairwise (· < ·)
deriving DecidableEq

namespace LineSet

/-- The set without lines. -/
def empty : LineSet := ⟨[], .nil⟩

instance : Inhabited LineSet := ⟨empty⟩

/-- Adds a line. -/
def insert (n : Nat) (set : LineSet) : LineSet :=
  ⟨insertLine n set.lines, pairwise_insertLine n set.ascending⟩

/-- The set of the lines in a list. -/
def ofList (lines : List Nat) : LineSet :=
  lines.foldr insert empty

/-- Whether a line is in the set. -/
def contains (set : LineSet) (n : Nat) : Bool :=
  set.lines.contains n

instance : Membership Nat LineSet := ⟨fun set n => n ∈ set.lines⟩

@[simp] theorem not_mem_empty (n : Nat) : n ∉ empty := List.not_mem_nil

@[simp] theorem mem_insert {n m : Nat} {set : LineSet} : m ∈ set.insert n ↔ m = n ∨ m ∈ set :=
  mem_insertLine

@[simp] theorem contains_eq_true {set : LineSet} {n : Nat} : set.contains n = true ↔ n ∈ set := by
  simp [contains, Membership.mem]

@[simp] theorem mem_ofList {n : Nat} {lines : List Nat} : n ∈ ofList lines ↔ n ∈ lines := by
  induction lines with
  | nil => exact Iff.rfl
  | cons k rest ih => rw [ofList, List.foldr_cons, mem_insert, ← ofList, ih, List.mem_cons]

end LineSet

end TraceGraph
