import Watchcat.Core.Program

/-!
# Monitored programs

A monitor is an automaton that reads the calls of a program. A program follows
the monitor from a state if every call on every path is allowed where it is
made; the postcondition speaks of the state the monitor has reached and of the
result. Ghost knowledge, protocols of use and histories are all monitors, so one
set of rules serves them.
-/

namespace Watchcat.Core

/-- An automaton over calls: which it allows, and how it moves on an answer. -/
structure Monitor {Op : Type} (Ans : Op → Type) (S : Type) where
  allowed : S → Op → Prop
  next : S → (op : Op) → Ans op → S

variable {Op : Type} {Ans : Op → Type} {S T α β : Type}

/-- The monitor state after a trace. -/
def Monitor.after (M : Monitor Ans S) (s : S) (tr : List (Prog.Event Ans)) : S :=
  tr.foldl (fun s e => M.next s e.1 e.2) s

@[simp] theorem Monitor.after_nil (M : Monitor Ans S) (s : S) : M.after s [] = s := rfl

@[simp] theorem Monitor.after_cons (M : Monitor Ans S) (s : S) (e : Prog.Event Ans)
    (tr : List (Prog.Event Ans)) : M.after s (e :: tr) = M.after (M.next s e.1 e.2) tr := rfl

theorem Monitor.after_append (M : Monitor Ans S) (s : S) (tr tr' : List (Prog.Event Ans)) :
    M.after s (tr ++ tr') = M.after (M.after s tr) tr' :=
  List.foldl_append

/-- The monitor that allows every call and remembers the calls made. -/
def Monitor.history (Ans : Op → Type) : Monitor Ans (List (Prog.Event Ans)) where
  allowed := fun _ _ => True
  next := fun tr op r => tr ++ [⟨op, r⟩]

/-- The monitor that allows every call and remembers those of a kind. -/
def Monitor.noting (kind : Prog.Event Ans → Bool) : Monitor Ans (List (Prog.Event Ans)) where
  allowed := fun _ _ => True
  next := fun tr op r => if kind ⟨op, r⟩ then tr ++ [⟨op, r⟩] else tr

theorem Monitor.noting_after (kind : Prog.Event Ans → Bool) (noted tr : List (Prog.Event Ans)) :
    (Monitor.noting kind).after noted tr = noted ++ tr.filter kind := by
  induction tr generalizing noted with
  | nil => exact (List.append_nil noted).symm
  | cons e tr ih =>
    rw [after_cons, ih, List.filter_cons]
    by_cases h : kind e = true
    · simp only [noting, h, if_true, List.append_assoc, List.singleton_append]
    · simp only [noting, h, Bool.false_eq_true, if_false]

/-- The monitor of programs that follow it, or that only make calls of a set apart. -/
def Monitor.orApart (M : Monitor Ans S) (apart : Op → Prop) : Monitor Ans (Option S) where
  allowed s op := match s with
    | some s => M.allowed s op
    | none => apart op
  next s op r := s.map fun s => M.next s op r

namespace Prog

/-- Every path of the program is allowed by the monitor and ends in the postcondition. -/
def Follows (M : Monitor Ans S) : Prog Ans α → S → (S → α → Prop) → Prop
  | pure a, s, Q => Q s a
  | call op next, s, Q => M.allowed s op ∧ ∀ r, (next r).Follows M (M.next s op r) Q

@[simp] theorem follows_pure {M : Monitor Ans S} {a : α} {s : S} {Q : S → α → Prop} :
    (pure a : Prog Ans α).Follows M s Q ↔ Q s a := Iff.rfl

@[simp] theorem follows_call {M : Monitor Ans S} {op : Op} {next : Ans op → Prog Ans α} {s : S}
    {Q : S → α → Prop} : (call op next).Follows M s Q ↔
      M.allowed s op ∧ ∀ r, (next r).Follows M (M.next s op r) Q := Iff.rfl

theorem follows_bind {M : Monitor Ans S} {p : Prog Ans α} {f : α → Prog Ans β} {s : S}
    {Q : S → β → Prop} :
    (p.bind f).Follows M s Q ↔ p.Follows M s fun s' a => (f a).Follows M s' Q := by
  induction p generalizing s with
  | pure a => rfl
  | call op next ih =>
    simp only [call_bind, follows_call]
    exact and_congr_right fun _ => forall_congr' fun r => ih r

theorem Follows.mono {M : Monitor Ans S} {p : Prog Ans α} {s : S} {Q Q' : S → α → Prop}
    (h : p.Follows M s Q) (hq : ∀ s a, Q s a → Q' s a) : p.Follows M s Q' := by
  induction p generalizing s with
  | pure a => exact hq s a h
  | call op next ih => exact ⟨h.1, fun r => ih r (h.2 r)⟩

/-- A run of a program that follows the monitor ends in the postcondition. -/
theorem Follows.returns {M : Monitor Ans S} {p : Prog Ans α} {s : S} {Q : S → α → Prop}
    (h : p.Follows M s Q) {tr : List (Event Ans)} {a : α} (hr : p.Returns tr a) :
    Q (M.after s tr) a := by
  induction p generalizing s tr with
  | pure b =>
    obtain ⟨rfl, rfl⟩ := hr
    exact h
  | call op next ih =>
    obtain ⟨r, rest, rfl, hrest⟩ := hr
    exact ih r (h.2 r) hrest

/-- What holds of every run may be used at the end of a program that is followed. -/
theorem Follows.and_returns {M : Monitor Ans S} {p : Prog Ans α} {s : S} {Q Q' : S → α → Prop}
    (h : p.Follows M s Q) (hq : ∀ tr a s', p.Returns tr a → Q s' a → Q' s' a) :
    p.Follows M s Q' := by
  induction p generalizing s with
  | pure a => exact hq [] a s ⟨rfl, rfl⟩ h
  | call op next ih =>
    exact ⟨h.1, fun r => ih r (h.2 r) fun tr a s' hr => hq (⟨op, r⟩ :: tr) a s' ⟨r, tr, rfl, hr⟩⟩

/-- Each call of a run is allowed in the state the monitor has reached before it. -/
theorem Follows.returns_allowed {M : Monitor Ans S} {p : Prog Ans α} {s : S} {Q : S → α → Prop}
    (h : p.Follows M s Q) {before after : List (Event Ans)} {e : Event Ans} {a : α}
    (hr : p.Returns (before ++ e :: after) a) : M.allowed (M.after s before) e.1 := by
  induction p generalizing s before with
  | pure b =>
    obtain ⟨hnil, _⟩ := hr
    exact absurd hnil (by simp)
  | call op next ih =>
    obtain ⟨r, rest, heq, hrest⟩ := hr
    cases before with
    | nil =>
      obtain ⟨rfl, _⟩ := List.cons.inj heq
      exact h.1
    | cons e' before =>
      obtain ⟨rfl, rfl⟩ := List.cons.inj heq
      exact ih r (h.2 r) hrest

/-- A program whose calls a monitor ignores follows it without moving it. -/
theorem Calls.follows {M : Monitor Ans S} {p : Prog Ans α} {s : S} {Q : S → α → Prop}
    {quiet : Op → Prop} (h : p.Calls quiet) (hallowed : ∀ op, quiet op → M.allowed s op)
    (hnext : ∀ op r, quiet op → M.next s op r = s) (hq : ∀ a, Q s a) : p.Follows M s Q := by
  induction p with
  | pure a => exact hq a
  | call op next ih =>
    refine ⟨hallowed op h.1, fun r => ?_⟩
    rw [hnext op r h.1]
    exact ih r (h.2 r)

/-- A program whose calls a monitor only notes adds its run to what was noted. -/
theorem Calls.follows_noted {M : Monitor Ans (List (Event Ans))} {p : Prog Ans α}
    {noted : List (Event Ans)} {plain : Op → Prop} (h : p.Calls plain)
    (hallowed : ∀ noted op, plain op → M.allowed noted op)
    (hnext : ∀ noted op r, plain op → M.next noted op r = noted ++ [⟨op, r⟩]) :
    p.Follows M noted fun noted' a =>
      ∃ tr, noted' = noted ++ tr ∧ p.Returns tr a ∧ ∀ e ∈ tr, plain e.1 := by
  induction p generalizing noted with
  | pure a => exact ⟨[], (List.append_nil noted).symm, ⟨rfl, rfl⟩, nofun⟩
  | call op next ih =>
    refine ⟨hallowed noted op h.1, fun r => ?_⟩
    rw [hnext noted op r h.1]
    refine (ih r (h.2 r)).mono fun noted' a ⟨tr, hnoted, hr, hplain⟩ => ?_
    refine ⟨⟨op, r⟩ :: tr, ?_, ⟨r, tr, rfl, hr⟩, ?_⟩
    · rw [hnoted, List.append_assoc, List.singleton_append]
    · exact List.forall_mem_cons.mpr ⟨h.1, hplain⟩

/-- A program that follows one monitor follows another one that simulates it. -/
theorem Follows.simulate {M : Monitor Ans S} {N : Monitor Ans T} {R : S → T → Prop}
    {p : Prog Ans α} {s : S} {t : T} {Q : S → α → Prop} {Q' : T → α → Prop}
    (h : p.Follows M s Q) (hst : R s t)
    (hallowed : ∀ s t op, R s t → M.allowed s op → N.allowed t op)
    (hnext : ∀ s t op r, R s t → M.allowed s op → R (M.next s op r) (N.next t op r))
    (hq : ∀ s t a, R s t → Q s a → Q' t a) : p.Follows N t Q' := by
  induction p generalizing s t with
  | pure a => exact hq s t a hst h
  | call op next ih =>
    exact ⟨hallowed s t op hst h.1, fun r => ih r (h.2 r) (hnext s t op r hst h.1)⟩

theorem Follows.orApart {M : Monitor Ans S} {apart : Op → Prop} {p : Prog Ans α} {s : S}
    {Q : S → α → Prop} (h : p.Follows M s Q) :
    p.Follows (M.orApart apart) (some s) fun s' a => ∃ s, s' = some s ∧ Q s a := by
  induction p generalizing s with
  | pure a => exact ⟨s, rfl, h⟩
  | call op next ih => exact ⟨h.1, fun r => ih r (h.2 r)⟩

theorem Calls.orApart {M : Monitor Ans S} {apart : Op → Prop} {p : Prog Ans α}
    (h : p.Calls apart) : p.Follows (M.orApart apart) none fun s' _ => s' = none := by
  induction p with
  | pure a => rfl
  | call op next ih => exact ⟨h.1, fun r => ih r (h.2 r)⟩

/-- Following the history says what holds of every run. -/
theorem follows_history {p : Prog Ans α} {h : List (Event Ans)} {Q : List (Event Ans) → α → Prop} :
    p.Follows (Monitor.history Ans) h Q ↔ ∀ tr a, p.Returns tr a → Q (h ++ tr) a := by
  induction p generalizing h with
  | pure a =>
    rw [follows_pure]
    constructor
    · rintro hq tr b ⟨rfl, rfl⟩
      rwa [List.append_nil]
    · intro hq
      have hnil := hq [] a ⟨rfl, rfl⟩
      rwa [List.append_nil] at hnil
  | call op next ih =>
    have happend : ∀ (r : Ans op) (rest : List (Event Ans)),
        (Monitor.history Ans).next h op r ++ rest = h ++ ⟨op, r⟩ :: rest :=
      fun r rest => List.append_assoc h [⟨op, r⟩] rest
    constructor
    · rintro ⟨_, hf⟩ _ b ⟨r, rest, rfl, hr⟩
      rw [← happend]
      exact (ih r).mp (hf r) rest b hr
    · refine fun hq => ⟨trivial, fun r => (ih r).mpr fun tr b hr => ?_⟩
      rw [happend]
      exact hq (⟨op, r⟩ :: tr) b ⟨r, tr, rfl, hr⟩

end Prog

end Watchcat.Core
