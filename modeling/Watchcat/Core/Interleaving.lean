import Mathlib.Logic.Function.Basic
import Watchcat.Core.Monitor

/-!
# Interleaved threads

Threads run programs over one shared world. A thread that stands at a call is
waiting for it; a step performs the call of one thread, and the world says which
answers it may get and what becomes of the world. Threads begin, are dropped,
and all end together when the process does. An invariant of the world and of the
monitor states of the threads is shown call by call, without looking at the
programs again.
-/

namespace Watchcat.Core

/-- How a world answers the calls of threads and what else may happen to it. -/
structure System {Op : Type} (Ans : Op → Type) (Tid World : Type) where
  /-- The thread's call is answered. -/
  act : Tid → World → (op : Op) → Ans op → World → Prop
  /-- A thread that is not running begins a program. -/
  begins : World → Tid → Prog Ans Unit → World → Prop
  /-- A thread is dropped where it stands. -/
  drops : World → Tid → World → Prop
  /-- The world changes by itself. -/
  changes : World → World → Prop
  /-- Every thread ends and the world is set up again. -/
  restarts : World → World → Prop

variable {Op : Type} {Ans : Op → Type} {Tid World S : Type}

/-- A world with the remaining programs of the threads. -/
structure Config {Op : Type} (Ans : Op → Type) (Tid World : Type) where
  world : World
  pool : Tid → Option (Prog Ans Unit)

/-- What one step did. -/
inductive Label {Op : Type} (Ans : Op → Type) (Tid : Type)
  | call (t : Tid) (op : Op) (r : Ans op)
  | begins (t : Tid)
  | drops (t : Tid)
  | changes
  | restarts

namespace System

section Steps

variable [DecidableEq Tid] (sys : System Ans Tid World)

/-- One step of one thread or of the world. -/
inductive Step : Config Ans Tid World → Label Ans Tid → Config Ans Tid World → Prop
  | call {c : Config Ans Tid World} {t : Tid} {op : Op} {next : Ans op → Prog Ans Unit}
      {r : Ans op} {w : World} (hp : c.pool t = some (.call op next))
      (ha : sys.act t c.world op r w) :
      Step c (.call t op r) ⟨w, Function.update c.pool t (some (next r))⟩
  | begins {c : Config Ans Tid World} {t : Tid} {p : Prog Ans Unit} {w : World}
      (hp : c.pool t = none ∨ c.pool t = some (.pure ())) (hb : sys.begins c.world t p w) :
      Step c (.begins t) ⟨w, Function.update c.pool t (some p)⟩
  | drops {c : Config Ans Tid World} {t : Tid} {p : Prog Ans Unit} {w : World}
      (hp : c.pool t = some p) (hd : sys.drops c.world t w) :
      Step c (.drops t) ⟨w, Function.update c.pool t none⟩
  | changes {c : Config Ans Tid World} {w : World} (hc : sys.changes c.world w) :
      Step c .changes ⟨w, c.pool⟩
  | restarts {c : Config Ans Tid World} {w : World} (hr : sys.restarts c.world w) :
      Step c .restarts ⟨w, fun _ => none⟩

/-- A run of any length, with the labels of its steps in order. -/
inductive Run : Config Ans Tid World → List (Label Ans Tid) → Config Ans Tid World → Prop
  | nil (c : Config Ans Tid World) : Run c [] c
  | snoc {c c' c'' : Config Ans Tid World} {tr : List (Label Ans Tid)} {l : Label Ans Tid}
      (hr : Run c tr c') (hs : sys.Step c' l c'') : Run c (tr ++ [l]) c''

variable {sys}

theorem Run.append {c c' c'' : Config Ans Tid World} {tr tr' : List (Label Ans Tid)}
    (h : sys.Run c tr c') (h' : sys.Run c' tr' c'') : sys.Run c (tr ++ tr') c'' := by
  induction h' with
  | nil => simpa only [List.append_nil] using h
  | snoc _ hs ih =>
    rw [← List.append_assoc]
    exact .snoc ih hs

/-- A run splits wherever its labels do. -/
theorem Run.split {c c' : Config Ans Tid World} {tr tr' : List (Label Ans Tid)}
    (h : sys.Run c (tr ++ tr') c') : ∃ mid, sys.Run c tr mid ∧ sys.Run mid tr' c' := by
  generalize hall : tr ++ tr' = all at h
  induction h generalizing tr' with
  | nil =>
    obtain ⟨rfl, rfl⟩ := List.append_eq_nil_iff.mp hall
    exact ⟨_, .nil _, .nil _⟩
  | @snoc c' c'' done l hr hs ih =>
    rcases List.eq_nil_or_concat tr' with rfl | ⟨init, last, rfl⟩
    · rw [List.append_nil] at hall
      exact ⟨c'', hall ▸ .snoc hr hs, .nil _⟩
    · rw [List.concat_eq_append, ← List.append_assoc] at hall
      obtain ⟨hinit, hlast⟩ := List.append_inj' hall rfl
      obtain rfl := (List.cons.inj hlast).1
      obtain ⟨mid, h₁, h₂⟩ := ih hinit
      exact ⟨mid, h₁, by rw [List.concat_eq_append]; exact .snoc h₂ hs⟩

/-- A run of one step. -/
theorem Run.single {c c' : Config Ans Tid World} {l : Label Ans Tid} (h : sys.Run c [l] c') :
    sys.Step c l c' := by
  generalize hsingle : [l] = single at h
  cases h with
  | nil => exact absurd hsingle (by simp)
  | @snoc c₁ _ init l' hr hs =>
    obtain ⟨hinit, hlast⟩ := List.append_inj' (show [] ++ [l] = _ from hsingle) rfl
    obtain rfl := (List.cons.inj hlast).1
    subst hinit
    generalize hnil : ([] : List (Label Ans Tid)) = none at hr
    cases hr with
    | nil => exact hs
    | snoc => exact absurd hnil (by simp)

end Steps

/-! ## Invariants over monitored threads -/

/-- The monitor state of each running thread is one its remaining program follows from,
to an end allowed by `done`. -/
def Tracked (M : Monitor Ans S) (done : S → Prop) (pool : Tid → Option (Prog Ans Unit))
    (g : Tid → Option S) : Prop :=
  ∀ t, match pool t, g t with
    | none, none => True
    | some p, some s => p.Follows M s fun s' _ => done s'
    | _, _ => False

/-- What has to be shown for an invariant of the world and the monitor states: each rule
of the system keeps it, where a call is one the monitor allows. -/
structure Invariant [DecidableEq Tid] (sys : System Ans Tid World) (M : Monitor Ans S)
    (done : S → Prop) (I : List (Label Ans Tid) → World → (Tid → Option S) → Prop) : Prop where
  call {tr : List (Label Ans Tid)} {w w' : World} {g : Tid → Option S} {t : Tid} {s : S}
    {op : Op} {r : Ans op} (hi : I tr w g) (hs : g t = some s) (hm : M.allowed s op)
    (ha : sys.act t w op r w') :
    I (tr ++ [.call t op r]) w' (Function.update g t (some (M.next s op r)))
  begins {tr : List (Label Ans Tid)} {w w' : World} {g : Tid → Option S} {t : Tid}
    {p : Prog Ans Unit} (hi : I tr w g) (ht : ∀ s, g t = some s → done s)
    (hb : sys.begins w t p w') :
    ∃ s, (p.Follows M s fun s' _ => done s') ∧
      I (tr ++ [.begins t]) w' (Function.update g t (some s))
  drops {tr : List (Label Ans Tid)} {w w' : World} {g : Tid → Option S} {t : Tid}
    (hi : I tr w g) (hd : sys.drops w t w') :
    I (tr ++ [.drops t]) w' (Function.update g t none)
  changes {tr : List (Label Ans Tid)} {w w' : World} {g : Tid → Option S}
    (hi : I tr w g) (hc : sys.changes w w') : I (tr ++ [.changes]) w' g
  restarts {tr : List (Label Ans Tid)} {w w' : World} {g : Tid → Option S}
    (hi : I tr w g) (hr : sys.restarts w w') : I (tr ++ [.restarts]) w' fun _ => none

theorem Tracked.update_some [DecidableEq Tid] {M : Monitor Ans S} {done : S → Prop}
    {pool : Tid → Option (Prog Ans Unit)} {g : Tid → Option S} (h : Tracked M done pool g)
    {t : Tid} {p : Prog Ans Unit} {s : S} (hp : p.Follows M s fun s' _ => done s') :
    Tracked M done (Function.update pool t (some p)) (Function.update g t (some s)) := by
  intro u
  by_cases hu : u = t
  · subst hu
    simpa only [Function.update_self] using hp
  · simpa only [Function.update_of_ne hu] using h u

theorem Tracked.update_none [DecidableEq Tid] {M : Monitor Ans S} {done : S → Prop}
    {pool : Tid → Option (Prog Ans Unit)} {g : Tid → Option S} (h : Tracked M done pool g)
    (t : Tid) : Tracked M done (Function.update pool t none) (Function.update g t none) := by
  intro u
  by_cases hu : u = t
  · subst hu
    simp only [Function.update_self]
  · simpa only [Function.update_of_ne hu] using h u

/-- A running thread has a monitor state that its remaining program follows from. -/
theorem Tracked.follows {M : Monitor Ans S} {done : S → Prop}
    {pool : Tid → Option (Prog Ans Unit)} {g : Tid → Option S} (h : Tracked M done pool g)
    {t : Tid} {p : Prog Ans Unit} (hp : pool t = some p) :
    ∃ s, g t = some s ∧ p.Follows M s fun s' _ => done s' := by
  have ht := h t
  rw [hp] at ht
  cases hg : g t with
  | none => rw [hg] at ht; exact ht.elim
  | some s => rw [hg] at ht; exact ⟨s, rfl, ht⟩

/-- Each step since the last restart is one that may be taken after those before it. -/
def SinceRestart (P : List (Label Ans Tid) → Label Ans Tid → Prop)
    (tr : List (Label Ans Tid)) : Prop :=
  ∀ before l after, tr = before ++ l :: after → Label.restarts ∉ after → P before l

theorem SinceRestart.snoc_inv {P : List (Label Ans Tid) → Label Ans Tid → Prop}
    {tr : List (Label Ans Tid)} {l : Label Ans Tid} (hl : l ≠ .restarts)
    (h : SinceRestart P (tr ++ [l])) : SinceRestart P tr ∧ P tr l := by
  refine ⟨fun before l' after heq hafter => h before l' (after ++ [l]) ?_ ?_,
    h tr l [] rfl List.not_mem_nil⟩
  · rw [heq, List.append_assoc, List.cons_append]
  · rw [List.mem_append, List.mem_singleton, not_or]
    exact ⟨hafter, hl.symm⟩

/-- What is checked at every position of a run holds since the last restart. -/
theorem sinceRestart_of_getElem {P : List (Label Ans Tid) → Label Ans Tid → Prop}
    {tr : List (Label Ans Tid)} (h : ∀ (i : Nat) (hi : i < tr.length), P (tr.take i) tr[i]) :
    SinceRestart P tr := by
  rintro before l after rfl _
  have hat := h before.length (by simp)
  simpa using hat

/-- What has to be shown for an invariant over the runs whose steps are of a kind. -/
structure InvariantWhile [DecidableEq Tid] (sys : System Ans Tid World)
    (P : List (Label Ans Tid) → Label Ans Tid → Prop) (M : Monitor Ans S) (done : S → Prop)
    (I : List (Label Ans Tid) → World → (Tid → Option S) → Prop) : Prop where
  call {tr : List (Label Ans Tid)} {w w' : World} {g : Tid → Option S} {t : Tid} {s : S}
    {op : Op} {r : Ans op} (hi : I tr w g) (hp : P tr (.call t op r)) (hs : g t = some s)
    (hm : M.allowed s op) (ha : sys.act t w op r w') :
    I (tr ++ [.call t op r]) w' (Function.update g t (some (M.next s op r)))
  begins {tr : List (Label Ans Tid)} {w w' : World} {g : Tid → Option S} {t : Tid}
    {p : Prog Ans Unit} (hi : I tr w g) (hp : P tr (.begins t)) (ht : ∀ s, g t = some s → done s)
    (hb : sys.begins w t p w') :
    ∃ s, (p.Follows M s fun s' _ => done s') ∧
      I (tr ++ [.begins t]) w' (Function.update g t (some s))
  drops {tr : List (Label Ans Tid)} {w w' : World} {g : Tid → Option S} {t : Tid}
    (hi : I tr w g) (hp : P tr (.drops t)) (hd : sys.drops w t w') :
    I (tr ++ [.drops t]) w' (Function.update g t none)
  changes {tr : List (Label Ans Tid)} {w w' : World} {g : Tid → Option S}
    (hi : I tr w g) (hp : P tr .changes) (hc : sys.changes w w') : I (tr ++ [.changes]) w' g
  restarts {tr : List (Label Ans Tid)} {w w' : World} {g : Tid → Option S}
    (hi : I tr w g) (hp : P tr .restarts) (hr : sys.restarts w w') :
    I (tr ++ [.restarts]) w' fun _ => none

variable {sys : System Ans Tid World}

/-- One step keeps the tracking and the invariant. -/
theorem InvariantWhile.step [DecidableEq Tid] {P : List (Label Ans Tid) → Label Ans Tid → Prop}
    {M : Monitor Ans S} {done : S → Prop}
    {I : List (Label Ans Tid) → World → (Tid → Option S) → Prop}
    (inv : InvariantWhile sys P M done I) {c c' : Config Ans Tid World} {l : Label Ans Tid}
    (hs : sys.Step c l c') {tr : List (Label Ans Tid)} (hp : P tr l) {g : Tid → Option S}
    (ht : Tracked M done c.pool g) (hi : I tr c.world g) :
    ∃ g', Tracked M done c'.pool g' ∧ I (tr ++ [l]) c'.world g' := by
  cases hs with
  | @call t op next r w hpool ha =>
    obtain ⟨s, hg, hf⟩ := ht.follows hpool
    exact ⟨_, ht.update_some (hf.2 r), inv.call hi hp hg hf.1 ha⟩
  | @begins t p w hpool hb =>
    have hdone : ∀ s, g t = some s → done s := by
      intro s hg
      have hgt := ht t
      rcases hpool with hpool | hpool
      · rw [hpool, hg] at hgt; exact hgt.elim
      · rw [hpool, hg] at hgt; exact hgt
    obtain ⟨s, hf, hi'⟩ := inv.begins hi hp hdone hb
    exact ⟨_, ht.update_some hf, hi'⟩
  | drops _ hd => exact ⟨_, ht.update_none _, inv.drops hi hp hd⟩
  | changes hc => exact ⟨g, ht, inv.changes hi hp hc⟩
  | restarts hr => exact ⟨fun _ => none, fun _ => trivial, inv.restarts hi hp hr⟩

/-- An invariant that a restart establishes anew holds after every run whose steps since the last
restart are of the kind. -/
theorem InvariantWhile.run [DecidableEq Tid] {P : List (Label Ans Tid) → Label Ans Tid → Prop}
    {M : Monitor Ans S} {done : S → Prop}
    {I : List (Label Ans Tid) → World → (Tid → Option S) → Prop}
    (inv : InvariantWhile sys P M done I) {c c' : Config Ans Tid World}
    (hfresh : ∀ {tr : List (Label Ans Tid)} {w w' : World}, sys.restarts w w' →
      I (tr ++ [.restarts]) w' fun _ => none)
    {tr : List (Label Ans Tid)} (hr : sys.Run c tr c') (hp : SinceRestart P tr)
    {g : Tid → Option S} (ht : Tracked M done c.pool g) (hi : I [] c.world g) :
    ∃ g', Tracked M done c'.pool g' ∧ I tr c'.world g' := by
  induction hr with
  | nil => exact ⟨g, ht, hi⟩
  | @snoc c' c'' tr l _ hs ih =>
    by_cases hl : l = .restarts
    · subst hl
      cases hs with
      | restarts hr => exact ⟨fun _ => none, fun _ => trivial, hfresh hr⟩
    · obtain ⟨hbefore, hlast⟩ := hp.snoc_inv hl
      obtain ⟨g', ht', hi'⟩ := ih hbefore
      exact inv.step hs hlast ht' hi'

/-- An invariant without a condition on the steps. -/
theorem Invariant.always [DecidableEq Tid] {M : Monitor Ans S} {done : S → Prop}
    {I : List (Label Ans Tid) → World → (Tid → Option S) → Prop} (inv : Invariant sys M done I) :
    InvariantWhile sys (fun _ _ => True) M done I where
  call hi _ := inv.call hi
  begins hi _ := inv.begins hi
  drops hi _ := inv.drops hi
  changes hi _ := inv.changes hi
  restarts hi _ := inv.restarts hi

/-- Every run keeps the invariant. -/
theorem Invariant.run [DecidableEq Tid] {M : Monitor Ans S} {done : S → Prop}
    {I : List (Label Ans Tid) → World → (Tid → Option S) → Prop} (inv : Invariant sys M done I)
    {c c' : Config Ans Tid World} {tr : List (Label Ans Tid)} (hr : sys.Run c tr c')
    {g : Tid → Option S} (ht : Tracked M done c.pool g) (hi : I [] c.world g) :
    ∃ g', Tracked M done c'.pool g' ∧ I tr c'.world g' := by
  induction hr with
  | nil => exact ⟨g, ht, hi⟩
  | snoc _ hs ih =>
    obtain ⟨g', ht', hi'⟩ := ih
    exact inv.always.step hs trivial ht' hi'

/-- No thread runs: nothing is tracked. -/
theorem tracked_none (M : Monitor Ans S) (done : S → Prop) :
    Tracked M done (fun _ : Tid => none) fun _ => none := fun _ => trivial

/-! ## One thread alone -/

variable (sys) in
/-- The program run by one thread with no step of another in between. -/
inductive Alone (t : Tid) {α : Type} : World → Prog Ans α → List (Prog.Event Ans) → α → World → Prop
  | pure (w : World) (a : α) : Alone t w (.pure a) [] a w
  | call {w w' w'' : World} {op : Op} {next : Ans op → Prog Ans α} {r : Ans op}
      {tr : List (Prog.Event Ans)} {a : α} (ha : sys.act t w op r w')
      (hr : Alone t w' (next r) tr a w'') : Alone t w (.call op next) (⟨op, r⟩ :: tr) a w''

theorem Alone.returns {t : Tid} {α : Type} {w w' : World} {p : Prog Ans α}
    {tr : List (Prog.Event Ans)} {a : α} (h : sys.Alone t w p tr a w') : p.Returns tr a := by
  induction h with
  | pure w a => exact ⟨rfl, rfl⟩
  | call _ _ ih => exact ⟨_, _, rfl, ih⟩

/-- A sequence run alone splits where the first program returns. -/
theorem alone_bind {t : Tid} {α β : Type} {w w' : World} {p : Prog Ans α} {f : α → Prog Ans β}
    {tr : List (Prog.Event Ans)} {b : β} : sys.Alone t w (p.bind f) tr b w' ↔
      ∃ first second a mid, tr = first ++ second ∧ sys.Alone t w p first a mid ∧
        sys.Alone t mid (f a) second b w' := by
  induction p generalizing w tr with
  | pure a =>
    constructor
    · intro h
      exact ⟨[], tr, a, w, rfl, .pure w a, h⟩
    · rintro ⟨_, _, _, _, rfl, h, hf⟩
      cases h
      exact hf
  | call op next ih =>
    constructor
    · intro h
      cases h with
      | call ha hr =>
        obtain ⟨first, second, a, mid, rfl, hp, hf⟩ := (ih _).mp hr
        exact ⟨_ :: first, second, a, mid, rfl, .call ha hp, hf⟩
    · rintro ⟨_, _, _, _, rfl, h, hf⟩
      cases h with
      | call ha hr => exact .call ha ((ih _).mpr ⟨_, _, _, _, rfl, hr, hf⟩)

end System

end Watchcat.Core
