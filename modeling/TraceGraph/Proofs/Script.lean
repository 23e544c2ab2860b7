import TraceGraph.Proofs.Outcome

/-!
# Functions that call each other

A script says what a function does up to its result, without doing any of its
calls: it has ended, or it makes a call and goes on with what the call gives.  A
call that fails ends it.  With a script for each call, a family of functions that
call each other, and whose loops are functions that call themselves, is a plain
table.

* `Script.run` answers the calls by a given function, and `Script.calls` lists the
  calls that come up.  `Script.within` makes do with answers that may be missing.
* `attempt` answers calls by their scripts, with calls inside each other only as
  deep as the fuel.
* `Script.Meets` says what can be said of a script before any call is answered: each
  call is allowed, as far as the answers before it keep what is promised of them.
* `promise_of_meets`: if each script keeps its promise by calls of a lower rank, all
  answers keep theirs.
* `attempt_eq_some`: if calls have a lower rank than their callers, fuel above the rank
  is never used up.
-/

namespace TraceGraph

/-- What a function does up to its result.  The calls are of type `κ`, and `ρ c` is
what the call `c` gives. -/
inductive Script (κ : Type) (ρ : κ → Type) (α : Type) where
  | done (outcome : Except Fault α)
  | call (callee : κ) (next : ρ callee → Script κ ρ α)

namespace Script

variable {κ : Type} {ρ : κ → Type} {α β : Type}

/-- Goes on with the result, if there is one. -/
def bind : Script κ ρ α → (α → Script κ ρ β) → Script κ ρ β
  | .done (.ok a), f => f a
  | .done (.error fault), _ => .done (.error fault)
  | .call callee next, f => .call callee fun answer => (next answer).bind f

instance : Monad (Script κ ρ) where
  pure a := .done (.ok a)
  bind := bind

/-! ## Answering the calls -/

/-- The result, when calls are answered by the given function. -/
def run (answer : (c : κ) → Except Fault (ρ c)) : Script κ ρ α → Except Fault α
  | .done outcome => outcome
  | .call callee next => (answer callee).bind fun a => (next a).run answer

/-- The calls that are made, when they are answered by the given function. -/
def calls (answer : (c : κ) → Except Fault (ρ c)) : Script κ ρ α → List κ
  | .done _ => []
  | .call callee next =>
    callee :: match answer callee with
      | .ok a => (next a).calls answer
      | .error _ => []

/-- The result, when an answer may be missing.  Then there is none. -/
def within (answer? : (c : κ) → Option (Except Fault (ρ c))) :
    Script κ ρ α → Option (Except Fault α)
  | .done outcome => some outcome
  | .call callee next =>
    match answer? callee with
    | none => none
    | some (.error fault) => some (.error fault)
    | some (.ok a) => (next a).within answer?

variable {answer : (c : κ) → Except Fault (ρ c)}

@[simp] theorem run_done (outcome : Except Fault α) :
    (done outcome : Script κ ρ α).run answer = outcome := rfl

@[simp] theorem run_pure (a : α) : (pure a : Script κ ρ α).run answer = .ok a := rfl

@[simp] theorem run_bind (s : Script κ ρ α) (f : α → Script κ ρ β) :
    (s >>= f).run answer = (s.run answer).bind fun a => (f a).run answer := by
  show (s.bind f).run answer = _
  induction s with
  | done outcome => cases outcome <;> rfl
  | call callee next ih =>
    rw [bind, run, run]
    cases answer callee with
    | error => rfl
    | ok a => exact ih a

/-- Only the answers of the calls that are made matter. -/
theorem within_eq_run {answer? : (c : κ) → Option (Except Fault (ρ c))} {s : Script κ ρ α}
    (h : ∀ c ∈ s.calls answer, answer? c = some (answer c)) :
    s.within answer? = some (s.run answer) := by
  induction s with
  | done => rfl
  | call callee next ih =>
    rw [calls] at h
    rw [within, run, h callee List.mem_cons_self]
    cases hanswer : answer callee with
    | error => rfl
    | ok a =>
      rw [hanswer] at h
      exact ih a fun c hc => h c (List.mem_cons_of_mem _ hc)

/-! ## What a script keeps to -/

/-- Each call is allowed and the result is as told, as far as the answers keep what
is promised of them. -/
def Meets (promise : (c : κ) → ρ c → Prop) (allowed : κ → Prop) (told : α → Prop) :
    Script κ ρ α → Prop
  | .done (.ok a) => told a
  | .done (.error _) => True
  | .call callee next =>
    allowed callee ∧ ∀ a, promise callee a → (next a).Meets promise allowed told

theorem meets_done {promise : (c : κ) → ρ c → Prop} {allowed : κ → Prop} {told : α → Prop}
    {outcome : Except Fault α} (h : ∀ a, outcome = .ok a → told a) :
    (done outcome : Script κ ρ α).Meets promise allowed told := by
  cases outcome with
  | error => trivial
  | ok a => exact h a rfl

namespace Meets

variable {promise : (c : κ) → ρ c → Prop} {allowed : κ → Prop} {told : α → Prop}
  {s : Script κ ρ α}

theorem bind {later : β → Prop} {f : α → Script κ ρ β} (hs : s.Meets promise allowed told)
    (hf : ∀ a, told a → (f a).Meets promise allowed later) :
    (s >>= f).Meets promise allowed later := by
  show (s.bind f).Meets promise allowed later
  induction s with
  | done outcome =>
    cases outcome with
    | error => trivial
    | ok a => exact hf a hs
  | call callee next ih => exact ⟨hs.1, fun a ha => ih a (hs.2 a ha)⟩

theorem mono {later : α → Prop} (hs : s.Meets promise allowed told)
    (h : ∀ a, told a → later a) : s.Meets promise allowed later := by
  induction s with
  | done outcome =>
    cases outcome with
    | error => trivial
    | ok a => exact h a hs
  | call callee next ih => exact ⟨hs.1, fun a ha => ih a (hs.2 a ha)⟩

/-- With answers that keep their promises, the result is as told. -/
theorem run (hs : s.Meets promise allowed told)
    (hanswer : ∀ c, allowed c → ∀ a, answer c = .ok a → promise c a) {a : α}
    (ha : s.run answer = .ok a) : told a := by
  induction s with
  | done outcome =>
    obtain rfl : outcome = .ok a := ha
    exact hs
  | call callee next ih =>
    obtain ⟨b, hb, ha⟩ := bind_eq_ok_iff.1 ha
    exact ih b (hs.2 b (hanswer callee hs.1 b hb)) ha

/-- With answers that keep their promises, only allowed calls are made. -/
theorem calls (hs : s.Meets promise allowed told)
    (hanswer : ∀ c, allowed c → ∀ a, answer c = .ok a → promise c a) :
    ∀ c ∈ s.calls answer, allowed c := by
  induction s with
  | done => exact fun c hc => absurd hc List.not_mem_nil
  | call callee next ih =>
    intro c hc
    rw [Script.calls] at hc
    rcases List.mem_cons.1 hc with rfl | hc
    · exact hs.1
    · cases hb : answer callee with
      | error => rw [hb] at hc; exact absurd hc List.not_mem_nil
      | ok b =>
        rw [hb] at hc
        exact ih b (hs.2 b (hanswer callee hs.1 b hb)) c hc

end Meets

end Script

/-! ## A table of scripts -/

section Table

variable {κ : Type} {ρ : κ → Type} {script : (c : κ) → Script κ ρ (ρ c)}
  {answer : (c : κ) → Except Fault (ρ c)} {rank : κ → Nat}

/-- If each script keeps its promise by calls of a lower rank, then answers that come
from the scripts keep their promises. -/
theorem promise_of_meets {promise : (c : κ) → ρ c → Prop} {below : κ → κ → Prop}
    (hrank : ∀ d c, below d c → rank d < rank c)
    (hmeets : ∀ c, (script c).Meets promise (below · c) (promise c))
    (hanswer : ∀ c, (script c).run answer = answer c) (c : κ) :
    ∀ a, answer c = .ok a → promise c a := by
  induction hn : rank c using Nat.strongRecOn generalizing c with
  | ind n ih =>
    intro a ha
    refine (hmeets c).run (fun d hd => ?_) ((hanswer c).trans ha)
    exact ih (rank d) (hn ▸ hrank d c hd) d rfl

/-- The answer of a call, with calls inside each other as deep as the fuel.  There is
none if the fuel runs out. -/
def attempt (script : (c : κ) → Script κ ρ (ρ c)) : Nat → (c : κ) → Option (Except Fault (ρ c))
  | 0, _ => none
  | fuel + 1, c => (script c).within (attempt script fuel)

/-- If calls are of a lower rank than their callers, fuel above the rank does not run
out. -/
theorem attempt_eq_some (hanswer : ∀ c, (script c).run answer = answer c)
    (hcalls : ∀ c, ∀ d ∈ (script c).calls answer, rank d < rank c) {fuel : Nat} {c : κ}
    (hfuel : rank c < fuel) : attempt script fuel c = some (answer c) := by
  induction fuel generalizing c with
  | zero => exact absurd hfuel (Nat.not_lt_zero _)
  | succ fuel ih =>
    rw [attempt, ← hanswer c]
    refine Script.within_eq_run fun d hd => ih ?_
    exact Nat.lt_of_lt_of_le (hcalls c d hd) (Nat.le_of_lt_succ hfuel)

end Table

end TraceGraph
