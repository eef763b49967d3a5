import Mathlib.Logic.Basic

/-!
# Programs over an interface of calls

A program either returns or performs one call and continues with the answer.
The answers are not computed here: a sequential reading lets them be arbitrary
and records them in a trace, an interleaved reading lets a shared state decide
them. Both readings use the same program term, so a function is translated once
and then reasoned about alone or among other threads.
-/

namespace Watchcat.Core

/-- A program with calls in `Op`, answered in `Ans`, and a result in `α`. -/
inductive Prog {Op : Type} (Ans : Op → Type) (α : Type) : Type
  | pure (a : α)
  | call (op : Op) (next : Ans op → Prog Ans α)

namespace Prog

variable {Op : Type} {Ans : Op → Type} {α β γ : Type}

/-- Sequencing: continue with `f` where the first program returns. -/
def bind : Prog Ans α → (α → Prog Ans β) → Prog Ans β
  | pure a, f => f a
  | call op next, f => call op fun r => (next r).bind f

/-- The program of one call, returning its answer. -/
def request (op : Op) : Prog Ans (Ans op) := call op pure

instance : Monad (Prog Ans) where
  pure := pure
  bind := bind

@[simp] theorem pure_eq (a : α) : (Pure.pure a : Prog Ans α) = pure a := rfl

@[simp] theorem bind_eq (p : Prog Ans α) (f : α → Prog Ans β) : p >>= f = p.bind f := rfl

@[simp] theorem pure_bind (a : α) (f : α → Prog Ans β) : (pure a : Prog Ans α).bind f = f a := rfl

@[simp] theorem call_bind (op : Op) (next : Ans op → Prog Ans α) (f : α → Prog Ans β) :
    (call op next).bind f = call op fun r => (next r).bind f := rfl

@[simp] theorem request_bind (op : Op) (f : Ans op → Prog Ans β) :
    (request op).bind f = call op f := rfl

@[simp] theorem bind_pure (p : Prog Ans α) : p.bind pure = p := by
  induction p with
  | pure a => rfl
  | call op next ih => simp only [call_bind, ih]

theorem bind_assoc (p : Prog Ans α) (f : α → Prog Ans β) (g : β → Prog Ans γ) :
    (p.bind f).bind g = p.bind fun a => (f a).bind g := by
  induction p with
  | pure a => rfl
  | call op next ih => simp only [call_bind, ih]

/-! ## Traces -/

/-- A call together with the answer it received. -/
abbrev Event (Ans : Op → Type) : Type := (op : Op) × Ans op

/-- The program may perform exactly the calls of the trace and return the value. -/
def Returns : Prog Ans α → List (Event Ans) → α → Prop
  | pure a, tr, b => tr = [] ∧ a = b
  | call op next, tr, b => ∃ r rest, tr = ⟨op, r⟩ :: rest ∧ (next r).Returns rest b

@[simp] theorem returns_pure {a b : α} {tr : List (Event Ans)} :
    (pure a : Prog Ans α).Returns tr b ↔ tr = [] ∧ a = b := Iff.rfl

/-- A trace of a sequence splits where the first program returns. -/
theorem returns_bind {p : Prog Ans α} {f : α → Prog Ans β} {tr : List (Event Ans)} {b : β} :
    (p.bind f).Returns tr b ↔
      ∃ first second a, tr = first ++ second ∧ p.Returns first a ∧ (f a).Returns second b := by
  induction p generalizing tr with
  | pure a =>
    constructor
    · intro h
      exact ⟨[], tr, a, rfl, ⟨rfl, rfl⟩, h⟩
    · rintro ⟨first, second, a', rfl, ⟨rfl, rfl⟩, h⟩
      exact h
  | call op next ih =>
    constructor
    · rintro ⟨r, rest, rfl, h⟩
      obtain ⟨first, second, a, rfl, hp, hf⟩ := (ih r).mp h
      exact ⟨⟨op, r⟩ :: first, second, a, rfl, ⟨r, first, rfl, hp⟩, hf⟩
    · rintro ⟨_, second, a, rfl, ⟨r, first, rfl, hp⟩, hf⟩
      exact ⟨r, first ++ second, rfl, (ih r).mpr ⟨first, second, a, rfl, hp, hf⟩⟩

/-! ## Runs that are cut off -/

/-- The program may have performed exactly the calls of the trace so far. -/
def Performs : Prog Ans α → List (Event Ans) → Prop
  | pure _, tr => tr = []
  | call op next, tr => tr = [] ∨ ∃ r rest, tr = ⟨op, r⟩ :: rest ∧ (next r).Performs rest

theorem performs_nil (p : Prog Ans α) : p.Performs [] := by
  cases p with
  | pure a => rfl
  | call op next => exact Or.inl rfl

theorem Returns.performs {p : Prog Ans α} {tr : List (Event Ans)} {a : α} (h : p.Returns tr a) :
    p.Performs tr := by
  induction p generalizing tr with
  | pure b => exact h.1
  | call op next ih =>
    obtain ⟨r, rest, rfl, hrest⟩ := h
    exact Or.inr ⟨r, rest, rfl, ih r hrest⟩

/-- A sequence is cut off in its first program or after it. -/
theorem performs_bind {p : Prog Ans α} {f : α → Prog Ans β} {tr : List (Event Ans)} :
    (p.bind f).Performs tr ↔ p.Performs tr ∨
      ∃ first second a, tr = first ++ second ∧ p.Returns first a ∧ (f a).Performs second := by
  induction p generalizing tr with
  | pure a =>
    constructor
    · exact fun h => Or.inr ⟨[], tr, a, rfl, ⟨rfl, rfl⟩, h⟩
    · rintro (rfl | ⟨first, second, a', rfl, ⟨rfl, rfl⟩, h⟩)
      · exact performs_nil _
      · exact h
  | call op next ih =>
    constructor
    · rintro (rfl | ⟨r, rest, rfl, h⟩)
      · exact Or.inl (Or.inl rfl)
      · rcases (ih r).mp h with hp | ⟨first, second, a, rfl, hp, hf⟩
        · exact Or.inl (Or.inr ⟨r, rest, rfl, hp⟩)
        · exact Or.inr ⟨⟨op, r⟩ :: first, second, a, rfl, ⟨r, first, rfl, hp⟩, hf⟩
    · rintro ((rfl | ⟨r, rest, rfl, h⟩) | ⟨_, second, a, rfl, ⟨r, first, rfl, hp⟩, hf⟩)
      · exact Or.inl rfl
      · exact Or.inr ⟨r, rest, rfl, (ih r).mpr (Or.inl h)⟩
      · exact Or.inr ⟨r, first ++ second, rfl,
          (ih r).mpr (Or.inr ⟨first, second, a, rfl, hp, hf⟩)⟩

/-- Run a program against given answers. -/
def execute (answer : (op : Op) → Ans op) : Prog Ans α → List (Event Ans) × α
  | pure a => ([], a)
  | call op next =>
    let rest := (next (answer op)).execute answer
    (⟨op, answer op⟩ :: rest.1, rest.2)

theorem execute_returns (answer : (op : Op) → Ans op) (p : Prog Ans α) :
    p.Returns (p.execute answer).1 (p.execute answer).2 := by
  induction p with
  | pure a => exact ⟨rfl, rfl⟩
  | call op next ih => exact ⟨answer op, _, rfl, ih (answer op)⟩

/-- Every call of the run has the given answer. -/
theorem execute_answered {answer : (op : Op) → Ans op} {p : Prog Ans α} :
    ∀ e ∈ (p.execute answer).1, e.2 = answer e.1 := by
  induction p with
  | pure a => exact fun e he => absurd he List.not_mem_nil
  | call op next ih =>
    intro e he
    rcases List.mem_cons.mp he with rfl | he
    · rfl
    · exact ih (answer op) e he

/-- A run whose calls all have the given answers is the run against them. -/
theorem returns_eq_execute {answer : (op : Op) → Ans op} {p : Prog Ans α}
    {tr : List (Event Ans)} {a : α} (h : p.Returns tr a)
    (hanswer : ∀ e ∈ tr, e.2 = answer e.1) : p.execute answer = (tr, a) := by
  induction p generalizing tr with
  | pure b =>
    obtain ⟨rfl, rfl⟩ := h
    rfl
  | call op next ih =>
    obtain ⟨r, rest, rfl, hrest⟩ := h
    obtain rfl : r = answer op := hanswer _ List.mem_cons_self
    have htail := ih _ hrest fun e he => hanswer e (List.mem_cons_of_mem _ he)
    simp only [execute, htail]

/-- Run a program against answers that depend on how many calls came before. -/
def executeFrom (answer : Nat → (op : Op) → Ans op) : Nat → Prog Ans α → List (Event Ans) × α
  | _, pure a => ([], a)
  | n, call op next =>
    let rest := executeFrom answer (n + 1) (next (answer n op))
    (⟨op, answer n op⟩ :: rest.1, rest.2)

theorem executeFrom_returns (answer : Nat → (op : Op) → Ans op) (n : Nat) (p : Prog Ans α) :
    p.Returns (p.executeFrom answer n).1 (p.executeFrom answer n).2 := by
  induction p generalizing n with
  | pure a => exact ⟨rfl, rfl⟩
  | call op next ih => exact ⟨answer n op, _, rfl, ih (answer n op) (n + 1)⟩

theorem executeFrom_answered {answer : Nat → (op : Op) → Ans op} {n : Nat} {p : Prog Ans α} :
    ∀ e ∈ (p.executeFrom answer n).1, ∃ k, e.2 = answer k e.1 := by
  induction p generalizing n with
  | pure a => exact fun e he => absurd he List.not_mem_nil
  | call op next ih =>
    intro e he
    rcases List.mem_cons.mp he with rfl | he
    · exact ⟨n, rfl⟩
    · exact ih (answer n op) e he

/-! ## The calls a program can reach -/

/-- Every call on every path of the program satisfies `Q`. -/
def Calls (Q : Op → Prop) : Prog Ans α → Prop
  | pure _ => True
  | call op next => Q op ∧ ∀ r, (next r).Calls Q

@[simp] theorem calls_pure {Q : Op → Prop} {a : α} : (pure a : Prog Ans α).Calls Q := trivial

@[simp] theorem calls_call {Q : Op → Prop} {op : Op} {next : Ans op → Prog Ans α} :
    (call op next).Calls Q ↔ Q op ∧ ∀ r, (next r).Calls Q := Iff.rfl

theorem calls_true (p : Prog Ans α) : p.Calls fun _ => True := by
  induction p with
  | pure a => trivial
  | call op next ih => exact ⟨trivial, ih⟩

theorem Calls.bind {Q : Op → Prop} {p : Prog Ans α} {f : α → Prog Ans β} (hp : p.Calls Q)
    (hf : ∀ a, (f a).Calls Q) : (p.bind f).Calls Q := by
  induction p with
  | pure a => exact hf a
  | call op next ih => exact ⟨hp.1, fun r => ih r (hp.2 r)⟩

theorem Calls.mono {Q Q' : Op → Prop} {p : Prog Ans α} (h : p.Calls Q)
    (hq : ∀ op, Q op → Q' op) : p.Calls Q' := by
  induction p with
  | pure a => trivial
  | call op next ih => exact ⟨hq op h.1, fun r => ih r (h.2 r)⟩

/-- The calls recorded in a trace are calls of the program. -/
theorem Calls.returns {Q : Op → Prop} {p : Prog Ans α} (h : p.Calls Q) {tr : List (Event Ans)}
    {a : α} (hr : p.Returns tr a) : ∀ e ∈ tr, Q e.1 := by
  induction p generalizing tr with
  | pure b =>
    obtain ⟨rfl, _⟩ := hr
    simp
  | call op next ih =>
    obtain ⟨r, rest, rfl, hrest⟩ := hr
    intro e he
    rcases List.mem_cons.mp he with rfl | he
    · exact h.1
    · exact ih r (h.2 r) hrest e he

/-- So are those of a run that is cut off. -/
theorem Calls.performs {Q : Op → Prop} {p : Prog Ans α} (h : p.Calls Q) {tr : List (Event Ans)}
    (hr : p.Performs tr) : ∀ e ∈ tr, Q e.1 := by
  induction p generalizing tr with
  | pure b =>
    obtain rfl : tr = [] := hr
    simp
  | call op next ih =>
    rcases hr with rfl | ⟨r, rest, rfl, hrest⟩
    · simp
    · intro e he
      rcases List.mem_cons.mp he with rfl | he
      · exact h.1
      · exact ih r (h.2 r) hrest e he

end Prog

end Watchcat.Core
