import Watchcat.Core.Imperative
import Watchcat.Core.Interleaving

/-!
# One thread alone

Weakest preconditions of a program that one thread runs with no step of another
in between: the world answers each call, and whatever it answers, the
postcondition holds where the program returns. The rules follow the constructs
of programs and of methods.
-/

namespace Watchcat.Core

variable {Op : Type} {Ans : Op → Type} {Tid World : Type}

namespace System

variable (sys : System Ans Tid World) {α β : Type}

/-- The program, run alone from the world, ends in the postcondition. -/
def Wp (t : Tid) (w : World) (p : Prog Ans α) (Q : World → α → Prop) : Prop :=
  ∀ tr a w', sys.Alone t w p tr a w' → Q w' a

variable {sys} {t : Tid} {w : World}

@[simp] theorem wp_pure {a : α} {Q : World → α → Prop} : sys.Wp t w (.pure a) Q ↔ Q w a := by
  constructor
  · exact fun h => h [] a w (.pure w a)
  · intro h tr b w' hr
    cases hr
    exact h

@[simp] theorem wp_call {op : Op} {next : Ans op → Prog Ans α} {Q : World → α → Prop} :
    sys.Wp t w (.call op next) Q ↔ ∀ r w', sys.act t w op r w' → sys.Wp t w' (next r) Q := by
  constructor
  · exact fun h r w' ha tr a w'' hr => h _ _ _ (.call ha hr)
  · intro h tr b w' hr
    cases hr with
    | call ha hr => exact h _ _ ha _ _ _ hr

theorem wp_bind {p : Prog Ans α} {f : α → Prog Ans β} {Q : World → β → Prop} :
    sys.Wp t w (p.bind f) Q ↔ sys.Wp t w p fun w' a => sys.Wp t w' (f a) Q := by
  constructor
  · exact fun h tr a w' hp tr' b w'' hf => h _ _ _ (alone_bind.mpr ⟨_, _, a, w', rfl, hp, hf⟩)
  · intro h tr b w'' hr
    obtain ⟨first, second, a, mid, rfl, hp, hf⟩ := alone_bind.mp hr
    exact h _ _ _ hp _ _ _ hf

theorem Wp.mono {p : Prog Ans α} {Q Q' : World → α → Prop} (h : sys.Wp t w p Q)
    (hq : ∀ w a, Q w a → Q' w a) : sys.Wp t w p Q' :=
  fun tr a w' hr => hq w' a (h tr a w' hr)

/-! ## The worlds along a trace -/

variable (sys) in
/-- The calls of a trace answered one after another. -/
inductive Path (t : Tid) : World → List (Prog.Event Ans) → World → Prop
  | nil (w : World) : Path t w [] w
  | cons {w w' w'' : World} {e : Prog.Event Ans} {tr : List (Prog.Event Ans)}
      (ha : sys.act t w e.1 e.2 w') (hr : Path t w' tr w'') : Path t w (e :: tr) w''

theorem Alone.path {w w' : World} {p : Prog Ans α} {tr : List (Prog.Event Ans)} {a : α}
    (h : sys.Alone t w p tr a w') : sys.Path t w tr w' := by
  induction h with
  | pure w a => exact .nil w
  | call ha _ ih => exact .cons ha ih

theorem path_append {w w' : World} {tr tr' : List (Prog.Event Ans)} :
    sys.Path t w (tr ++ tr') w' ↔ ∃ mid, sys.Path t w tr mid ∧ sys.Path t mid tr' w' := by
  induction tr generalizing w with
  | nil =>
    constructor
    · exact fun h => ⟨w, .nil w, h⟩
    · rintro ⟨mid, h, h'⟩
      cases h
      exact h'
  | cons e tr ih =>
    constructor
    · intro h
      cases h with
      | cons ha hr =>
        obtain ⟨mid, h₁, h₂⟩ := ih.mp hr
        exact ⟨mid, .cons ha h₁, h₂⟩
    · rintro ⟨mid, h, h'⟩
      cases h with
      | cons ha hr => exact .cons ha (ih.mpr ⟨mid, hr, h'⟩)

theorem path_cons {w w' : World} {e : Prog.Event Ans} {tr : List (Prog.Event Ans)} :
    sys.Path t w (e :: tr) w' ↔ ∃ mid, sys.act t w e.1 e.2 mid ∧ sys.Path t mid tr w' := by
  constructor
  · intro h
    cases h with
    | cons ha hr => exact ⟨_, ha, hr⟩
  · rintro ⟨mid, ha, hr⟩
    exact .cons ha hr

/-- A relation that every call of a trace keeps relates the worlds at its ends. -/
theorem Path.relates {R : World → World → Prop} {w w' : World} {tr : List (Prog.Event Ans)}
    (h : sys.Path t w tr w') (hrefl : ∀ w, R w w)
    (htrans : ∀ {w w' w''}, R w w' → R w' w'' → R w w'')
    (hstep : ∀ e ∈ tr, ∀ w w', sys.act t w e.1 e.2 w' → R w w') : R w w' := by
  induction h with
  | nil w => exact hrefl w
  | cons ha _ ih =>
    exact htrans (hstep _ List.mem_cons_self _ _ ha)
      (ih fun e he => hstep e (List.mem_cons_of_mem _ he))

/-- A part of the world that no call of a trace changes. -/
theorem Path.frame {β : Type} {part : World → β} {w w' : World} {tr : List (Prog.Event Ans)}
    (h : sys.Path t w tr w')
    (hstep : ∀ e ∈ tr, ∀ w w', sys.act t w e.1 e.2 w' → part w' = part w) : part w' = part w :=
  h.relates (R := fun w w' => part w' = part w) (fun _ => rfl) (fun h h' => h'.trans h) hstep

/-! ## Playing a program -/

variable (sys) in
/-- Answers the system gives, as a script says that moves on with every call. -/
structure Player (t : Tid) (Script : Type) where
  answer : Script → World → (op : Op) → Ans op × World
  rest : Script → Script
  enabled : Op → Bool
  sound : ∀ script w op, enabled op = true →
    sys.act t w op (answer script w op).1 (answer script w op).2

namespace Player

variable {Script : Type} (P : Player sys t Script)

/-- The calls, the result and the world of a program that is played. -/
def play : Script → World → Prog Ans α → List (Prog.Event Ans) × α × World
  | _, w, .pure a => ([], a, w)
  | script, w, .call op next =>
    let r := P.answer script w op
    let played := play (P.rest script) r.2 (next r.1)
    (⟨op, r.1⟩ :: played.1, played.2)

/-- Every call of the program can be played. -/
def Plays : Script → World → Prog Ans α → Prop
  | _, _, .pure _ => True
  | script, w, .call op next => P.enabled op = true ∧
    Plays (P.rest script) (P.answer script w op).2 (next (P.answer script w op).1)

instance decidablePlays : (script : Script) → (w : World) → (p : Prog Ans α) →
    Decidable (P.Plays script w p)
  | _, _, .pure _ => .isTrue trivial
  | script, w, .call op next =>
    have := decidablePlays (P.rest script) (P.answer script w op).2 (next (P.answer script w op).1)
    inferInstanceAs (Decidable (_ ∧ _))

/-- What is played is a run of the program alone. -/
theorem alone {script : Script} {w : World} {p : Prog Ans α} (h : P.Plays script w p) :
    sys.Alone t w p (P.play script w p).1 (P.play script w p).2.1 (P.play script w p).2.2 := by
  induction p generalizing script w with
  | pure a => exact .pure w a
  | call op next ih => exact .call (P.sound script w op h.1) (ih _ h.2)

end Player

end System

namespace Act

variable {σ τ ε ε' α β ι : Type}

/-- The method, run alone from the world and its state, ends in the postcondition. -/
def Wp (sys : System Ans Tid World) (t : Tid) (w : World) (m : Act Ans σ ε α) (s : σ)
    (Q : World → Except ε α → σ → Prop) : Prop :=
  sys.Wp t w (m s) fun w' r => Q w' r.1 r.2

variable {sys : System Ans Tid World} {t : Tid} {w : World} {s : σ}

@[simp] theorem wp_ret {a : α} {Q : World → Except ε α → σ → Prop} :
    Wp sys t w (ret a : Act Ans σ ε α) s Q ↔ Q w (.ok a) s := System.wp_pure

@[simp] theorem wp_get {Q : World → Except ε σ → σ → Prop} :
    Wp sys t w (get : Act Ans σ ε σ) s Q ↔ Q w (.ok s) s := System.wp_pure

@[simp] theorem wp_modify {f : σ → σ} {Q : World → Except ε Unit → σ → Prop} :
    Wp sys t w (modify f : Act Ans σ ε Unit) s Q ↔ Q w (.ok ()) (f s) := System.wp_pure

@[simp] theorem wp_fail {e : ε} {Q : World → Except ε α → σ → Prop} :
    Wp sys t w (fail e : Act Ans σ ε α) s Q ↔ Q w (.error e) s := System.wp_pure

@[simp] theorem wp_ofExcept {r : Except ε α} {Q : World → Except ε α → σ → Prop} :
    Wp sys t w (ofExcept r : Act Ans σ ε α) s Q ↔ Q w r s := System.wp_pure

@[simp] theorem wp_perform {op : Op} {Q : World → Except ε (Ans op) → σ → Prop} :
    Wp sys t w (perform op : Act Ans σ ε (Ans op)) s Q ↔
      ∀ r w', sys.act t w op r w' → Q w' (.ok r) s := by
  simp only [Wp, perform, System.wp_call, System.wp_pure]

theorem wp_ite {c : Prop} [Decidable c] {m m' : Act Ans σ ε α}
    {Q : World → Except ε α → σ → Prop} :
    Wp sys t w (if c then m else m') s Q ↔
      (c → Wp sys t w m s Q) ∧ (¬c → Wp sys t w m' s Q) := by
  by_cases h : c
  · simp only [h, if_true, true_implies, not_true_eq_false, false_implies, and_true]
  · simp only [h, if_false, false_implies, not_false_eq_true, true_implies, true_and]

theorem wp_andThen {m : Act Ans σ ε α} {f : α → Act Ans σ ε β}
    {Q : World → Except ε β → σ → Prop} :
    Wp sys t w (andThen m f) s Q ↔ Wp sys t w m s fun w' r s' =>
      match r with
      | .ok a => Wp sys t w' (f a) s' Q
      | .error e => Q w' (.error e) s' := by
  unfold Wp andThen
  rw [System.wp_bind]
  constructor
  · refine fun h => h.mono fun w' r hr => ?_
    obtain ⟨(e | a), s'⟩ := r
    · simpa only [System.wp_pure] using hr
    · exact hr
  · refine fun h => h.mono fun w' r hr => ?_
    obtain ⟨(e | a), s'⟩ := r
    · simpa only [System.wp_pure] using hr
    · exact hr

theorem wp_attempt {m : Act Ans σ ε α} {Q : World → Except ε' (Except ε α) → σ → Prop} :
    Wp sys t w (attempt m : Act Ans σ ε' (Except ε α)) s Q ↔
      Wp sys t w m s fun w' r s' => Q w' (.ok r) s' := by
  unfold Wp attempt
  rw [System.wp_bind]
  simp only [System.wp_pure]

theorem wp_zoom {get : σ → τ} {put : τ → σ → σ} {m : Act Ans τ ε α}
    {Q : World → Except ε α → σ → Prop} :
    Wp sys t w (zoom get put m) s Q ↔
      Wp sys t w m (get s) fun w' r s' => Q w' r (put s' s) := by
  unfold Wp zoom
  rw [System.wp_bind]
  simp only [System.wp_pure]

theorem Wp.mono {m : Act Ans σ ε α} {Q Q' : World → Except ε α → σ → Prop}
    (h : Wp sys t w m s Q) (hq : ∀ w r s, Q w r s → Q' w r s) : Wp sys t w m s Q' :=
  System.Wp.mono h fun w r => hq w r.1 r.2

end Act

end Watchcat.Core
