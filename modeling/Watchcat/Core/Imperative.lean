import Watchcat.Core.Monitor

/-!
# Imperative programs

A method of the source reads and writes the value it is called on, may fail with
an error, and performs calls. It is a function from the state to a program whose
result carries the state as it was left, also where it fails. The rules follow
the constructs: sequencing stops at an error, a loop keeps an invariant.
-/

namespace Watchcat.Core

/-- A method on a state `σ` with errors in `ε`. -/
def Act {Op : Type} (Ans : Op → Type) (σ ε α : Type) : Type := σ → Prog Ans (Except ε α × σ)

namespace Act

variable {Op : Type} {Ans : Op → Type} {σ τ ε ε' α β ι S : Type}

/-- Return a value, leaving the state. -/
def ret (a : α) : Act Ans σ ε α := fun s => .pure (.ok a, s)

/-- Sequencing: an error ends the method with the state it left. -/
def andThen (m : Act Ans σ ε α) (f : α → Act Ans σ ε β) : Act Ans σ ε β := fun s =>
  (m s).bind fun r => match r with
    | (.ok a, s') => f a s'
    | (.error e, s') => .pure (.error e, s')

instance : Monad (Act Ans σ ε) where
  pure := ret
  bind := andThen

/-- The current state. -/
def get : Act Ans σ ε σ := fun s => .pure (.ok s, s)

/-- Update the state. -/
def modify (f : σ → σ) : Act Ans σ ε Unit := fun s => .pure (.ok (), f s)

/-- Read a value off the state while updating it. -/
def update (f : σ → α × σ) : Act Ans σ ε α := fun s => .pure (.ok (f s).1, (f s).2)

/-- Fail. -/
def fail (e : ε) : Act Ans σ ε α := fun s => .pure (.error e, s)

/-- Perform one call and return its answer. -/
def perform (op : Op) : Act Ans σ ε (Ans op) := fun s => .call op fun r => .pure (.ok r, s)

/-- Return a result, failing where it is an error. -/
def ofExcept (r : Except ε α) : Act Ans σ ε α := fun s => .pure (r, s)

/-- Run a method and return its outcome as a value. -/
def attempt (m : Act Ans σ ε α) : Act Ans σ ε' (Except ε α) := fun s =>
  (m s).bind fun r => .pure (.ok r.1, r.2)

/-- Run a method and return its outcome as a value, unless it is an error that nothing catches. -/
def attemptUnless (fatal : ε → Bool) (m : Act Ans σ ε α) : Act Ans σ ε (Except ε α) :=
  andThen (attempt m) fun r => match r with
    | .ok a => ret (.ok a)
    | .error e => if fatal e then fail e else ret (.error e)

/-- Run a method on a part of the state. -/
def zoom (get : σ → τ) (put : τ → σ → σ) (m : Act Ans τ ε α) : Act Ans σ ε α := fun s =>
  (m (get s)).bind fun r => .pure (r.1, put r.2 s)

/-- Run a method on a value of its own and return that value with the result. -/
def within (t : τ) (m : Act Ans τ ε α) : Act Ans σ ε (α × τ) := fun s =>
  (m t).bind fun r => .pure (r.1.map fun a => (a, r.2), s)

/-- Run a method, rewriting its error. -/
def mapError (f : ε → ε') (m : Act Ans σ ε α) : Act Ans σ ε' α := fun s =>
  (m s).bind fun r => .pure (r.1.mapError f, r.2)

/-- Run a method and then a closing call, whether the method failed or not. -/
def closing (m : Act Ans σ ε α) (close : σ → Prog Ans Unit) : Act Ans σ ε α := fun s =>
  (m s).bind fun r => (close r.2).bind fun _ => .pure r

/-- Run the body for each element in turn; an error ends the loop. -/
def forEach (body : ι → Act Ans σ ε Unit) : List ι → Act Ans σ ε Unit
  | [] => ret ()
  | x :: xs => andThen (body x) fun _ => forEach body xs

@[simp] theorem pure_eq (a : α) : (Pure.pure a : Act Ans σ ε α) = ret a := rfl

@[simp] theorem bind_eq (m : Act Ans σ ε α) (f : α → Act Ans σ ε β) : m >>= f = andThen m f := rfl

theorem ret_andThen (a : α) (f : α → Act Ans σ ε β) : andThen (ret a) f = f a := rfl

theorem andThen_assoc {γ : Type} (m : Act Ans σ ε α) (f : α → Act Ans σ ε β)
    (g : β → Act Ans σ ε γ) :
    andThen (andThen m f) g = andThen m fun a => andThen (f a) g := by
  funext s
  simp only [andThen, Prog.bind_assoc]
  congr 1
  funext r
  obtain ⟨(e | a), s'⟩ := r <;> rfl

/-! ## Following a monitor -/

/-- Every path of the method is allowed by the monitor and ends in the postcondition. -/
def Follows (M : Monitor Ans S) (m : Act Ans σ ε α) (g : S) (s : σ)
    (Q : S → Except ε α → σ → Prop) : Prop :=
  (m s).Follows M g fun g' r => Q g' r.1 r.2

variable {M : Monitor Ans S} {g : S} {s : σ}

@[simp] theorem follows_ret {a : α} {Q : S → Except ε α → σ → Prop} :
    (ret a : Act Ans σ ε α).Follows M g s Q ↔ Q g (.ok a) s := Iff.rfl

@[simp] theorem follows_get {Q : S → Except ε σ → σ → Prop} :
    (get : Act Ans σ ε σ).Follows M g s Q ↔ Q g (.ok s) s := Iff.rfl

@[simp] theorem follows_modify {f : σ → σ} {Q : S → Except ε Unit → σ → Prop} :
    (modify f : Act Ans σ ε Unit).Follows M g s Q ↔ Q g (.ok ()) (f s) := Iff.rfl

@[simp] theorem follows_update {f : σ → α × σ} {Q : S → Except ε α → σ → Prop} :
    (update f : Act Ans σ ε α).Follows M g s Q ↔ Q g (.ok (f s).1) (f s).2 := Iff.rfl

@[simp] theorem follows_fail {e : ε} {Q : S → Except ε α → σ → Prop} :
    (fail e : Act Ans σ ε α).Follows M g s Q ↔ Q g (.error e) s := Iff.rfl

@[simp] theorem follows_ofExcept {r : Except ε α} {Q : S → Except ε α → σ → Prop} :
    (ofExcept r : Act Ans σ ε α).Follows M g s Q ↔ Q g r s := Iff.rfl

@[simp] theorem follows_perform {op : Op} {Q : S → Except ε (Ans op) → σ → Prop} :
    (perform op : Act Ans σ ε (Ans op)).Follows M g s Q ↔
      M.allowed g op ∧ ∀ r, Q (M.next g op r) (.ok r) s := Iff.rfl

theorem follows_ite {c : Prop} [Decidable c] {m m' : Act Ans σ ε α}
    {Q : S → Except ε α → σ → Prop} :
    (if c then m else m').Follows M g s Q ↔
      (c → m.Follows M g s Q) ∧ (¬c → m'.Follows M g s Q) := by
  by_cases h : c
  · simp only [h, if_true, true_implies, not_true_eq_false, false_implies, and_true]
  · simp only [h, if_false, false_implies, not_false_eq_true, true_implies, true_and]

theorem follows_andThen {m : Act Ans σ ε α} {f : α → Act Ans σ ε β}
    {Q : S → Except ε β → σ → Prop} :
    (andThen m f).Follows M g s Q ↔ m.Follows M g s fun g' r s' =>
      match r with
      | .ok a => (f a).Follows M g' s' Q
      | .error e => Q g' (.error e) s' := by
  unfold Follows andThen
  rw [Prog.follows_bind]
  constructor
  · refine fun h => h.mono fun g' r hr => ?_
    obtain ⟨(e | a), s'⟩ := r <;> exact hr
  · refine fun h => h.mono fun g' r hr => ?_
    obtain ⟨(e | a), s'⟩ := r <;> exact hr

theorem follows_attempt {m : Act Ans σ ε α} {Q : S → Except ε' (Except ε α) → σ → Prop} :
    (attempt m : Act Ans σ ε' (Except ε α)).Follows M g s Q ↔
      m.Follows M g s fun g' r s' => Q g' (.ok r) s' := by
  unfold Follows attempt
  rw [Prog.follows_bind]
  rfl

/-- What follows an attempt sees its outcome or its fatal error. -/
theorem follows_attemptUnless {fatal : ε → Bool} {m : Act Ans σ ε α}
    {Q : S → Except ε (Except ε α) → σ → Prop} :
    (attemptUnless fatal m).Follows M g s Q ↔ m.Follows M g s fun g' r s' =>
      (∀ a, r = .ok a → Q g' (.ok (.ok a)) s') ∧
        ∀ e, r = .error e → Q g' (if fatal e then .error e else .ok (.error e)) s' := by
  rw [attemptUnless, follows_andThen, follows_attempt]
  refine iff_of_eq (congrArg _ ?_)
  funext g' r s'
  rcases r with e | a
  · by_cases h : fatal e = true
    · simp [h]
    · simp [h]
  · simp

theorem follows_zoom {get : σ → τ} {put : τ → σ → σ} {m : Act Ans τ ε α}
    {Q : S → Except ε α → σ → Prop} :
    (zoom get put m).Follows M g s Q ↔
      m.Follows M g (get s) fun g' r t => Q g' r (put t s) := by
  unfold Follows zoom
  rw [Prog.follows_bind]
  rfl

theorem follows_within {t : τ} {m : Act Ans τ ε α} {Q : S → Except ε (α × τ) → σ → Prop} :
    (within t m).Follows M g s Q ↔
      m.Follows M g t fun g' r t' => Q g' (r.map fun a => (a, t')) s := by
  unfold Follows within
  rw [Prog.follows_bind]
  rfl

theorem follows_mapError {f : ε → ε'} {m : Act Ans σ ε α} {Q : S → Except ε' α → σ → Prop} :
    (mapError f m).Follows M g s Q ↔
      m.Follows M g s fun g' r s' => Q g' (r.mapError f) s' := by
  unfold Follows mapError
  rw [Prog.follows_bind]
  rfl

theorem follows_closing {m : Act Ans σ ε α} {close : σ → Prog Ans Unit}
    {Q : S → Except ε α → σ → Prop} :
    (closing m close).Follows M g s Q ↔
      m.Follows M g s fun g' r s' => (close s').Follows M g' fun g'' _ => Q g'' r s' := by
  unfold Follows closing
  rw [Prog.follows_bind]
  constructor
  · refine fun h => h.mono fun g' r hr => ?_
    rw [Prog.follows_bind] at hr
    exact hr
  · refine fun h => h.mono fun g' r hr => ?_
    rw [Prog.follows_bind]
    exact hr

theorem Follows.mono {m : Act Ans σ ε α} {Q Q' : S → Except ε α → σ → Prop}
    (h : m.Follows M g s Q) (hq : ∀ g r s, Q g r s → Q' g r s) : m.Follows M g s Q' :=
  Prog.Follows.mono h fun g r => hq g r.1 r.2

/-- A loop keeps an invariant of the monitor and the state that every round keeps;
an error of a round is the error of the loop. -/
theorem follows_forEach {body : ι → Act Ans σ ε Unit} {I : S → σ → Prop}
    {E : S → ε → σ → Prop} {xs : List ι}
    (hbody : ∀ x ∈ xs, ∀ g s, I g s → (body x).Follows M g s fun g' r s' =>
      match r with
      | .ok _ => I g' s'
      | .error e => E g' e s')
    (h : I g s) :
    (forEach body xs).Follows M g s fun g' r s' =>
      match r with
      | .ok _ => I g' s'
      | .error e => E g' e s' := by
  induction xs generalizing g s with
  | nil => exact h
  | cons x xs ih =>
    rw [forEach, follows_andThen]
    refine (hbody x List.mem_cons_self g s h).mono fun g' r s' hr => ?_
    cases r with
    | ok _ => exact ih (fun y hy => hbody y (List.mem_cons_of_mem x hy)) hr
    | error e => exact hr

/-! ## Keeping an invariant of a monitor -/

/-- From every state of the monitor in the set the method follows it and ends in the set. -/
def Keeps (M : Monitor Ans S) (I : S → Prop) (m : Act Ans σ ε α) : Prop :=
  ∀ g s, I g → m.Follows M g s fun g' _ _ => I g'

section Keeps

variable {I : S → Prop}

theorem keeps_ret (a : α) : Keeps M I (ret a : Act Ans σ ε α) := fun _ _ h => h

theorem keeps_get : Keeps M I (get : Act Ans σ ε σ) := fun _ _ h => h

theorem keeps_modify (f : σ → σ) : Keeps M I (modify f : Act Ans σ ε Unit) := fun _ _ h => h

theorem keeps_update (f : σ → α × σ) : Keeps M I (update f : Act Ans σ ε α) := fun _ _ h => h

theorem keeps_fail (e : ε) : Keeps M I (fail e : Act Ans σ ε α) := fun _ _ h => h

theorem keeps_ofExcept (r : Except ε α) : Keeps M I (ofExcept r : Act Ans σ ε α) :=
  fun _ _ h => h

theorem keeps_ite {c : Prop} [Decidable c] {m m' : Act Ans σ ε α} (hm : Keeps M I m)
    (hm' : Keeps M I m') : Keeps M I (if c then m else m') :=
  fun g s h => follows_ite.mpr ⟨fun _ => hm g s h, fun _ => hm' g s h⟩

theorem Keeps.andThen {m : Act Ans σ ε α} {f : α → Act Ans σ ε β} (hm : Keeps M I m)
    (hf : ∀ a, Keeps M I (f a)) : Keeps M I (andThen m f) := by
  refine fun g s h => follows_andThen.mpr ((hm g s h).mono fun g' r s' h' => ?_)
  cases r with
  | error e => exact h'
  | ok a => exact hf a g' s' h'

theorem Keeps.attempt {m : Act Ans σ ε α} (hm : Keeps M I m) :
    Keeps M I (attempt m : Act Ans σ ε' (Except ε α)) :=
  fun g s h => follows_attempt.mpr (hm g s h)

theorem Keeps.attemptUnless {fatal : ε → Bool} {m : Act Ans σ ε α} (hm : Keeps M I m) :
    Keeps M I (attemptUnless fatal m) :=
  hm.attempt.andThen fun r => by
    rcases r with e | a
    · exact keeps_ite (keeps_fail e) (keeps_ret _)
    · exact keeps_ret _

theorem Keeps.zoom {get : σ → τ} {put : τ → σ → σ} {m : Act Ans τ ε α} (hm : Keeps M I m) :
    Keeps M I (zoom get put m) :=
  fun g s h => follows_zoom.mpr (hm g (get s) h)

theorem Keeps.within {t : τ} {m : Act Ans τ ε α} (hm : Keeps M I m) :
    Keeps M I (within t m : Act Ans σ ε (α × τ)) :=
  fun g _ h => follows_within.mpr (hm g t h)

theorem Keeps.forEach {body : ι → Act Ans σ ε Unit} (hbody : ∀ x, Keeps M I (body x))
    (xs : List ι) : Keeps M I (forEach body xs) := by
  induction xs with
  | nil => exact keeps_ret ()
  | cons x xs ih => exact (hbody x).andThen fun _ => ih

end Keeps

/-! ## The calls a method can reach -/

/-- Every call on every path of the method is in the set. -/
def Uses (A : Op → Prop) (m : Act Ans σ ε α) : Prop := ∀ s, (m s).Calls A

variable {A A' : Op → Prop}

theorem uses_ret (a : α) : Uses A (ret a : Act Ans σ ε α) := fun _ => trivial

theorem uses_get : Uses A (get : Act Ans σ ε σ) := fun _ => trivial

theorem uses_modify (f : σ → σ) : Uses A (modify f : Act Ans σ ε Unit) := fun _ => trivial

theorem uses_update (f : σ → α × σ) : Uses A (update f : Act Ans σ ε α) := fun _ => trivial

theorem uses_fail (e : ε) : Uses A (fail e : Act Ans σ ε α) := fun _ => trivial

theorem uses_ofExcept (r : Except ε α) : Uses A (ofExcept r : Act Ans σ ε α) := fun _ => trivial

theorem uses_perform {op : Op} (h : A op) : Uses A (perform op : Act Ans σ ε (Ans op)) :=
  fun _ => ⟨h, fun _ => trivial⟩

theorem uses_ite {c : Prop} [Decidable c] {m m' : Act Ans σ ε α} (hm : Uses A m)
    (hm' : Uses A m') : Uses A (if c then m else m') := by
  by_cases h : c
  · simpa only [h, if_true] using hm
  · simpa only [h, if_false] using hm'

theorem Uses.andThen {m : Act Ans σ ε α} {f : α → Act Ans σ ε β} (hm : Uses A m)
    (hf : ∀ a, Uses A (f a)) : Uses A (andThen m f) := by
  refine fun s => (hm s).bind fun r => ?_
  obtain ⟨(e | a), s'⟩ := r
  · trivial
  · exact hf a s'

theorem Uses.attempt {m : Act Ans σ ε α} (hm : Uses A m) :
    Uses A (attempt m : Act Ans σ ε' (Except ε α)) :=
  fun s => (hm s).bind fun _ => trivial

theorem Uses.attemptUnless {fatal : ε → Bool} {m : Act Ans σ ε α} (hm : Uses A m) :
    Uses A (attemptUnless fatal m) :=
  hm.attempt.andThen fun r => by
    rcases r with e | a
    · exact uses_ite (uses_fail e) (uses_ret _)
    · exact uses_ret _

theorem Uses.zoom {get : σ → τ} {put : τ → σ → σ} {m : Act Ans τ ε α} (hm : Uses A m) :
    Uses A (zoom get put m) :=
  fun s => (hm (get s)).bind fun _ => trivial

theorem Uses.within {t : τ} {m : Act Ans τ ε α} (hm : Uses A m) :
    Uses A (within t m : Act Ans σ ε (α × τ)) :=
  fun _ => (hm t).bind fun _ => trivial

theorem Uses.mapError {f : ε → ε'} {m : Act Ans σ ε α} (hm : Uses A m) :
    Uses A (mapError f m) :=
  fun s => (hm s).bind fun _ => trivial

theorem Uses.closing {m : Act Ans σ ε α} {close : σ → Prog Ans Unit} (hm : Uses A m)
    (hclose : ∀ s, (close s).Calls A) : Uses A (closing m close) :=
  fun s => (hm s).bind fun r => (hclose r.2).bind fun _ => trivial

theorem Uses.forEach {body : ι → Act Ans σ ε Unit} (hbody : ∀ x, Uses A (body x))
    (xs : List ι) : Uses A (forEach body xs) := by
  induction xs with
  | nil => exact uses_ret ()
  | cons x xs ih => exact (hbody x).andThen fun _ => ih

theorem Uses.mono {m : Act Ans σ ε α} (h : Uses A m) (hA : ∀ op, A op → A' op) : Uses A' m :=
  fun s => (h s).mono hA

/-- A method whose calls a monitor ignores follows it without moving it. -/
theorem Uses.follows {m : Act Ans σ ε α} (h : Uses A m) {Q : S → Except ε α → σ → Prop}
    (hallowed : ∀ op, A op → M.allowed g op) (hnext : ∀ op r, A op → M.next g op r = g)
    (hq : ∀ r s', Q g r s') : m.Follows M g s Q :=
  (h s).follows hallowed hnext fun r => hq r.1 r.2

/-- A method keeps what each of its calls keeps. -/
theorem Uses.keeps {m : Act Ans σ ε α} (h : Uses A m) {I : S → Prop}
    (hcall : ∀ op g, A op → I g → M.allowed g op ∧ ∀ r, I (M.next g op r)) : Keeps M I m := by
  have hprog : ∀ (p : Prog Ans (Except ε α × σ)) (g : S), p.Calls A → I g →
      p.Follows M g fun g' _ => I g' := by
    intro p
    induction p with
    | pure a => exact fun _ _ hg => hg
    | call op next ih =>
      intro g hp hg
      exact ⟨(hcall op g hp.1 hg).1, fun r => ih r _ (hp.2 r) ((hcall op g hp.1 hg).2 r)⟩
  exact fun g s hg => hprog (m s) g (h s) hg

/-! ## Runs -/

/-- The method may perform exactly the calls of the trace and end with the result and state. -/
def Returns (m : Act Ans σ ε α) (s : σ) (tr : List (Prog.Event Ans)) (r : Except ε α) (s' : σ) :
    Prop := (m s).Returns tr (r, s')

theorem Returns.andThen {m : Act Ans σ ε α} {f : α → Act Ans σ ε β}
    {tr tr' : List (Prog.Event Ans)} {a : α} {r : Except ε β} {mid s' : σ}
    (hm : m.Returns s tr (.ok a) mid) (hf : (f a).Returns mid tr' r s') :
    (andThen m f).Returns s (tr ++ tr') r s' :=
  Prog.returns_bind.mpr ⟨_, _, _, rfl, hm, hf⟩

/-- What holds of every run may be used at the end of a method that is followed. -/
theorem Follows.and_returns {m : Act Ans σ ε α} {Q Q' : S → Except ε α → σ → Prop}
    (h : m.Follows M g s Q)
    (hq : ∀ tr r s' g', m.Returns s tr r s' → Q g' r s' → Q' g' r s') : m.Follows M g s Q' :=
  Prog.Follows.and_returns h fun tr r g' hr => hq tr r.1 r.2 g' hr

theorem Follows.returns {m : Act Ans σ ε α} {Q : S → Except ε α → σ → Prop}
    (h : m.Follows M g s Q) {tr : List (Prog.Event Ans)} {r : Except ε α} {s' : σ}
    (hr : m.Returns s tr r s') : Q (M.after g tr) r s' :=
  Prog.Follows.returns h hr

/-- Following the history says what holds of every run. -/
theorem follows_history {m : Act Ans σ ε α} {h : List (Prog.Event Ans)}
    {Q : List (Prog.Event Ans) → Except ε α → σ → Prop} :
    m.Follows (Monitor.history Ans) h s Q ↔
      ∀ tr r s', m.Returns s tr r s' → Q (h ++ tr) r s' := by
  unfold Follows Returns
  rw [Prog.follows_history]
  constructor
  · exact fun hq tr r s' hr => hq tr (r, s') hr
  · exact fun hq tr r hr => hq tr r.1 r.2 hr

/-- A method whose calls a monitor only notes adds its run to what was noted. -/
theorem Uses.follows_noted {M : Monitor Ans (List (Prog.Event Ans))} {m : Act Ans σ ε α}
    (h : Uses A m) (hallowed : ∀ noted op, A op → M.allowed noted op)
    (hnext : ∀ noted op r, A op → M.next noted op r = noted ++ [⟨op, r⟩])
    {noted : List (Prog.Event Ans)} :
    m.Follows M noted s fun noted' r s' =>
      ∃ tr, noted' = noted ++ tr ∧ m.Returns s tr r s' ∧ ∀ e ∈ tr, A e.1 :=
  (h s).follows_noted hallowed hnext

/-- What following the history from the start says of a run. -/
theorem Follows.of_history {m : Act Ans σ ε α}
    {Q : List (Prog.Event Ans) → Except ε α → σ → Prop}
    (h : m.Follows (Monitor.history Ans) [] s Q) {tr : List (Prog.Event Ans)} {r : Except ε α}
    {s' : σ} (hr : m.Returns s tr r s') : Q tr r s' :=
  follows_history.mp h tr r s' hr

/-- On every path the method ends in a state related to the one it began in. -/
def Moves (R : σ → σ → Prop) (m : Act Ans σ ε α) : Prop :=
  ∀ g s, m.Follows (Monitor.history Ans) g s fun _ _ s' => R s s'

section Moves

variable {R R' R'' : σ → σ → Prop}

theorem Moves.returns {m : Act Ans σ ε α} (h : m.Moves R) {tr : List (Prog.Event Ans)}
    {r : Except ε α} {s' : σ} (hr : m.Returns s tr r s') : R s s' :=
  (h [] s).of_history hr

theorem Moves.mono {m : Act Ans σ ε α} (h : m.Moves R) (hR : ∀ {s s'}, R s s' → R' s s') :
    m.Moves R' :=
  fun g s => (h g s).mono fun _ _ _ => hR

theorem moves_ret (hR : ∀ s, R s s) (a : α) : Moves R (ret a : Act Ans σ ε α) := fun _ s => hR s

theorem moves_get (hR : ∀ s, R s s) : Moves R (get : Act Ans σ ε σ) := fun _ s => hR s

theorem moves_fail (hR : ∀ s, R s s) (e : ε) : Moves R (fail e : Act Ans σ ε α) := fun _ s => hR s

theorem moves_ofExcept (hR : ∀ s, R s s) (r : Except ε α) :
    Moves R (ofExcept r : Act Ans σ ε α) := fun _ s => hR s

theorem moves_perform (hR : ∀ s, R s s) (op : Op) :
    Moves R (perform op : Act Ans σ ε (Ans op)) := fun _ s => ⟨trivial, fun _ => hR s⟩

theorem moves_modify {f : σ → σ} (hf : ∀ s, R s (f s)) :
    Moves R (modify f : Act Ans σ ε Unit) := fun _ s => hf s

theorem moves_ite {c : Prop} [Decidable c] {m m' : Act Ans σ ε α} (hm : Moves R m)
    (hm' : Moves R m') : Moves R (if c then m else m') :=
  fun g s => follows_ite.mpr ⟨fun _ => hm g s, fun _ => hm' g s⟩

theorem Moves.andThen {m : Act Ans σ ε α} {f : α → Act Ans σ ε β} (hm : Moves R m)
    (hf : ∀ a, Moves R' (f a)) (herror : ∀ {s s'}, R s s' → R'' s s')
    (hok : ∀ {s s' s''}, R s s' → R' s' s'' → R'' s s'') : Moves R'' (andThen m f) := by
  refine fun g s => follows_andThen.mpr ((hm g s).mono fun g' r s' h => ?_)
  cases r with
  | error e => exact herror h
  | ok a => exact (hf a g' s').mono fun _ _ _ h' => hok h h'

theorem Moves.attempt {m : Act Ans σ ε α} (hm : Moves R m) :
    Moves R (attempt m : Act Ans σ ε' (Except ε α)) :=
  fun g s => follows_attempt.mpr (hm g s)

theorem Moves.zoom {get : σ → τ} {put : τ → σ → σ} {T : τ → τ → Prop} {m : Act Ans τ ε α}
    (hm : m.Moves T) (hput : ∀ s t, T (get s) t → R s (put t s)) : Moves R (zoom get put m) :=
  fun g s => follows_zoom.mpr ((hm g (get s)).mono fun _ _ t => hput s t)

theorem Moves.closing {m : Act Ans σ ε α} {close : σ → Prog Ans Unit} (hm : Moves R m) :
    Moves R (closing m close) := by
  refine fun g s => follows_closing.mpr ((hm g s).mono fun g' r s' h => ?_)
  exact Prog.follows_history.mpr fun _ _ _ => h

theorem Moves.forEach {body : ι → Act Ans σ ε Unit} (hR : ∀ s, R s s)
    (htrans : ∀ {s s' s''}, R s s' → R s' s'' → R s s'') (hbody : ∀ x, Moves R (body x))
    (xs : List ι) : Moves R (forEach body xs) := by
  induction xs with
  | nil => exact moves_ret hR ()
  | cons x xs ih => exact (hbody x).andThen (fun _ => ih) (fun h => h) htrans

end Moves

/-! ## Methods that leave the state -/

/-- The method makes calls of a set only, and leaves the state. -/
structure Inquires (A : Op → Prop) (m : Act Ans σ ε α) : Prop where
  uses : Uses A m
  moves : Moves (fun s s' => s' = s) m

theorem inquires_ret (a : α) : Inquires A (ret a : Act Ans σ ε α) :=
  ⟨uses_ret a, fun _ _ => rfl⟩

theorem inquires_get : Inquires A (get : Act Ans σ ε σ) := ⟨uses_get, fun _ _ => rfl⟩

theorem inquires_fail (e : ε) : Inquires A (fail e : Act Ans σ ε α) :=
  ⟨uses_fail e, fun _ _ => rfl⟩

theorem inquires_ofExcept (r : Except ε α) : Inquires A (ofExcept r : Act Ans σ ε α) :=
  ⟨uses_ofExcept r, fun _ _ => rfl⟩

theorem inquires_perform {op : Op} (h : A op) :
    Inquires A (perform op : Act Ans σ ε (Ans op)) :=
  ⟨uses_perform h, fun _ _ => ⟨trivial, fun _ => rfl⟩⟩

theorem inquires_ite {c : Prop} [Decidable c] {m m' : Act Ans σ ε α} (hm : Inquires A m)
    (hm' : Inquires A m') : Inquires A (if c then m else m') :=
  ⟨uses_ite hm.uses hm'.uses, moves_ite hm.moves hm'.moves⟩

theorem Inquires.andThen {m : Act Ans σ ε α} {f : α → Act Ans σ ε β} (hm : Inquires A m)
    (hf : ∀ a, Inquires A (f a)) : Inquires A (andThen m f) :=
  ⟨hm.uses.andThen fun a => (hf a).uses,
    hm.moves.andThen (fun a => (hf a).moves) (fun h => h) fun h h' => h'.trans h⟩

theorem Inquires.attempt {m : Act Ans σ ε α} (hm : Inquires A m) :
    Inquires A (attempt m : Act Ans σ ε' (Except ε α)) := ⟨hm.uses.attempt, hm.moves.attempt⟩

theorem Inquires.mapError {f : ε → ε'} {m : Act Ans σ ε α} (hm : Inquires A m) :
    Inquires A (mapError f m) :=
  ⟨hm.uses.mapError, fun g s => follows_mapError.mpr (hm.moves g s)⟩

theorem Inquires.forEach {body : ι → Act Ans σ ε Unit} (hbody : ∀ x, Inquires A (body x))
    (xs : List ι) : Inquires A (forEach body xs) := by
  induction xs with
  | nil => exact inquires_ret ()
  | cons x xs ih => exact (hbody x).andThen fun _ => ih

/-! ## Runs of composed methods -/

/-- A run of a sequence splits where the first method ends. -/
theorem returns_andThen {m : Act Ans σ ε α} {f : α → Act Ans σ ε β}
    {tr : List (Prog.Event Ans)} {r : Except ε β} {s' : σ} :
    (andThen m f).Returns s tr r s' ↔
      (∃ e, r = .error e ∧ m.Returns s tr (.error e) s') ∨
      ∃ first second a mid, tr = first ++ second ∧ m.Returns s first (.ok a) mid ∧
        (f a).Returns mid second r s' := by
  unfold Returns andThen
  rw [Prog.returns_bind]
  constructor
  · rintro ⟨first, second, ⟨(e | a), mid⟩, rfl, hm, hf⟩
    · obtain ⟨rfl, heq⟩ := hf
      obtain ⟨rfl, rfl⟩ := Prod.mk.inj heq
      exact Or.inl ⟨e, rfl, by simpa only [List.append_nil] using hm⟩
    · exact Or.inr ⟨first, second, a, mid, rfl, hm, hf⟩
  · rintro (⟨e, rfl, hm⟩ | ⟨first, second, a, mid, rfl, hm, hf⟩)
    · exact ⟨tr, [], (.error e, s'), by simp, hm, rfl, rfl⟩
    · exact ⟨first, second, (.ok a, mid), rfl, hm, hf⟩

/-- The method may have performed exactly the calls of the trace so far. -/
def Performs (m : Act Ans σ ε α) (s : σ) (tr : List (Prog.Event Ans)) : Prop := (m s).Performs tr

/-- A sequence is cut off in its first method or after it. -/
theorem performs_andThen {m : Act Ans σ ε α} {f : α → Act Ans σ ε β}
    {tr : List (Prog.Event Ans)} :
    (andThen m f).Performs s tr ↔ m.Performs s tr ∨ ∃ first second a mid,
      tr = first ++ second ∧ m.Returns s first (.ok a) mid ∧ (f a).Performs mid second := by
  unfold Performs Returns andThen
  rw [Prog.performs_bind]
  constructor
  · rintro (h | ⟨first, second, ⟨(e | a), mid⟩, rfl, hm, hf⟩)
    · exact Or.inl h
    · obtain rfl : second = [] := hf
      exact Or.inl (by simpa only [List.append_nil] using hm.performs)
    · exact Or.inr ⟨first, second, a, mid, rfl, hm, hf⟩
  · rintro (h | ⟨first, second, a, mid, rfl, hm, hf⟩)
    · exact Or.inl h
    · exact Or.inr ⟨first, second, (.ok a, mid), rfl, hm, hf⟩

theorem performs_ret {a : α} {tr : List (Prog.Event Ans)} :
    (ret a : Act Ans σ ε α).Performs s tr ↔ tr = [] := Iff.rfl

theorem returns_ret {a : α} {tr : List (Prog.Event Ans)} {r : Except ε α} {s' : σ} :
    (ret a : Act Ans σ ε α).Returns s tr r s' ↔ tr = [] ∧ r = .ok a ∧ s' = s := by
  simp only [Returns, ret, Prog.returns_pure, Prod.mk.injEq, eq_comm]

theorem returns_modify {f : σ → σ} {tr : List (Prog.Event Ans)} {r : Except ε Unit} {s' : σ} :
    (modify f : Act Ans σ ε Unit).Returns s tr r s' ↔ tr = [] ∧ r = .ok () ∧ s' = f s := by
  simp only [Returns, modify, Prog.returns_pure, Prod.mk.injEq, eq_comm]

theorem returns_ofExcept {x : Except ε α} {tr : List (Prog.Event Ans)} {r : Except ε α} {s' : σ} :
    (ofExcept x : Act Ans σ ε α).Returns s tr r s' ↔ tr = [] ∧ r = x ∧ s' = s := by
  simp only [Returns, ofExcept, Prog.returns_pure, Prod.mk.injEq, eq_comm]

theorem returns_fail {e : ε} {tr : List (Prog.Event Ans)} {r : Except ε α} {s' : σ} :
    (fail e : Act Ans σ ε α).Returns s tr r s' ↔ tr = [] ∧ r = .error e ∧ s' = s := by
  simp only [Returns, fail, Prog.returns_pure, Prod.mk.injEq, eq_comm]

theorem returns_perform {op : Op} {tr : List (Prog.Event Ans)} {r : Except ε (Ans op)} {s' : σ} :
    (perform op : Act Ans σ ε (Ans op)).Returns s tr r s' ↔
      ∃ a, tr = [⟨op, a⟩] ∧ r = .ok a ∧ s' = s := by
  constructor
  · rintro ⟨a, _, rfl, rfl, heq⟩
    obtain ⟨rfl, rfl⟩ := Prod.mk.inj heq
    exact ⟨a, rfl, rfl, rfl⟩
  · rintro ⟨a, rfl, rfl, rfl⟩
    exact ⟨a, [], rfl, rfl, rfl⟩

/-- A call comes first in the runs of what it begins. -/
theorem returns_perform_andThen {op : Op} {f : Ans op → Act Ans σ ε β}
    {tr : List (Prog.Event Ans)} {r : Except ε β} {s' : σ} :
    (andThen (perform op) f).Returns s tr r s' ↔
      ∃ a rest, tr = ⟨op, a⟩ :: rest ∧ (f a).Returns s rest r s' := Iff.rfl

theorem performs_perform_andThen {op : Op} {f : Ans op → Act Ans σ ε β}
    {tr : List (Prog.Event Ans)} :
    (andThen (perform op) f).Performs s tr ↔
      tr = [] ∨ ∃ a rest, tr = ⟨op, a⟩ :: rest ∧ (f a).Performs s rest := Iff.rfl

theorem returns_get_andThen {f : σ → Act Ans σ ε β} {tr : List (Prog.Event Ans)}
    {r : Except ε β} {s' : σ} :
    (andThen get f).Returns s tr r s' ↔ (f s).Returns s tr r s' := Iff.rfl

theorem returns_modify_andThen {g : σ → σ} {f : Unit → Act Ans σ ε β}
    {tr : List (Prog.Event Ans)} {r : Except ε β} {s' : σ} :
    (andThen (modify g) f).Returns s tr r s' ↔ (f ()).Returns (g s) tr r s' := Iff.rfl

theorem returns_attempt_andThen {m : Act Ans σ ε α} {f : Except ε α → Act Ans σ ε' β}
    {tr : List (Prog.Event Ans)} {r : Except ε' β} {s' : σ} :
    (andThen (attempt m) f).Returns s tr r s' ↔ ∃ first second x mid, tr = first ++ second ∧
      m.Returns s first x mid ∧ (f x).Returns mid second r s' := by
  unfold Returns andThen attempt
  rw [Prog.bind_assoc, Prog.returns_bind]
  constructor
  · rintro ⟨first, second, ⟨x, mid⟩, rfl, hm, hf⟩
    exact ⟨first, second, x, mid, rfl, hm, hf⟩
  · rintro ⟨first, second, x, mid, rfl, hm, hf⟩
    exact ⟨first, second, (x, mid), rfl, hm, hf⟩

@[simp] theorem ofExcept_ok_andThen {a : α} {f : α → Act Ans σ ε β} :
    andThen (ofExcept (.ok a)) f = f a := rfl

@[simp] theorem ofExcept_error_andThen {e : ε} {f : α → Act Ans σ ε β} :
    andThen (ofExcept (.error e)) f = fail e := rfl

/-- A run of a sequence to its end splits where the first method returns. -/
theorem returns_andThen_ok {m : Act Ans σ ε α} {f : α → Act Ans σ ε β}
    {tr : List (Prog.Event Ans)} {b : β} {s' : σ} :
    (andThen m f).Returns s tr (.ok b) s' ↔ ∃ first second a mid, tr = first ++ second ∧
      m.Returns s first (.ok a) mid ∧ (f a).Returns mid second (.ok b) s' := by
  rw [returns_andThen]
  simp

theorem returns_attempt {m : Act Ans σ ε α} {tr : List (Prog.Event Ans)}
    {r : Except ε' (Except ε α)} {s' : σ} :
    (attempt m : Act Ans σ ε' (Except ε α)).Returns s tr r s' ↔
      ∃ x, r = .ok x ∧ m.Returns s tr x s' := by
  unfold Returns attempt
  rw [Prog.returns_bind]
  constructor
  · rintro ⟨first, second, ⟨x, mid⟩, rfl, hm, rfl, heq⟩
    obtain ⟨rfl, rfl⟩ := Prod.mk.inj heq
    exact ⟨x, rfl, by simpa only [List.append_nil] using hm⟩
  · rintro ⟨x, rfl, hm⟩
    exact ⟨tr, [], (x, s'), (List.append_nil tr).symm, hm, rfl, rfl⟩

theorem returns_mapError {f : ε → ε'} {m : Act Ans σ ε α} {tr : List (Prog.Event Ans)}
    {r : Except ε' α} {s' : σ} : (mapError f m).Returns s tr r s' ↔
      ∃ x, r = x.mapError f ∧ m.Returns s tr x s' := by
  unfold Returns mapError
  rw [Prog.returns_bind]
  constructor
  · rintro ⟨first, second, ⟨x, mid⟩, rfl, hm, rfl, heq⟩
    obtain ⟨rfl, rfl⟩ := Prod.mk.inj heq
    exact ⟨x, rfl, by simpa only [List.append_nil] using hm⟩
  · rintro ⟨x, rfl, hm⟩
    exact ⟨tr, [], (x, s'), (List.append_nil tr).symm, hm, rfl, rfl⟩

theorem returns_mapError_ok {f : ε → ε'} {m : Act Ans σ ε α} {tr : List (Prog.Event Ans)}
    {a : α} {s' : σ} : (mapError f m).Returns s tr (.ok a) s' ↔ m.Returns s tr (.ok a) s' := by
  rw [returns_mapError]
  constructor
  · rintro ⟨e | x, heq, hm⟩
    · cases heq
    · exact Except.ok.inj heq ▸ hm
  · exact fun hm => ⟨.ok a, rfl, hm⟩

theorem returns_update_andThen {f : σ → α × σ} {g : α → Act Ans σ ε β}
    {tr : List (Prog.Event Ans)} {r : Except ε β} {s' : σ} :
    (andThen (update f) g).Returns s tr r s' ↔ (g (f s).1).Returns (f s).2 tr r s' := Iff.rfl

theorem returns_zoom {get : σ → τ} {put : τ → σ → σ} {m : Act Ans τ ε α}
    {tr : List (Prog.Event Ans)} {r : Except ε α} {s' : σ} :
    (zoom get put m).Returns s tr r s' ↔ ∃ t', m.Returns (get s) tr r t' ∧ s' = put t' s := by
  unfold Returns zoom
  rw [Prog.returns_bind]
  constructor
  · rintro ⟨first, second, ⟨x, t'⟩, rfl, hm, rfl, heq⟩
    obtain ⟨rfl, rfl⟩ := Prod.mk.inj heq
    exact ⟨t', by simpa only [List.append_nil] using hm, rfl⟩
  · rintro ⟨t', hm, rfl⟩
    exact ⟨tr, [], (r, t'), (List.append_nil tr).symm, hm, rfl, rfl⟩

theorem returns_within {t : τ} {m : Act Ans τ ε α} {tr : List (Prog.Event Ans)}
    {r : Except ε (α × τ)} {s' : σ} :
    (within t m).Returns s tr r s' ↔
      s' = s ∧ ∃ x t', m.Returns t tr x t' ∧ r = x.map fun a => (a, t') := by
  unfold Returns within
  rw [Prog.returns_bind]
  constructor
  · rintro ⟨first, second, ⟨x, t'⟩, rfl, hm, rfl, heq⟩
    obtain ⟨rfl, rfl⟩ := Prod.mk.inj heq
    exact ⟨rfl, x, t', by simpa only [List.append_nil] using hm, rfl⟩
  · rintro ⟨rfl, x, t', hm, rfl⟩
    exact ⟨tr, [], (x, t'), (List.append_nil tr).symm, hm, rfl, rfl⟩

/-- One round of a loop: its element, the state it began in and the calls it made. -/
structure Round {Op : Type} (Ans : Op → Type) (σ ι : Type) where
  element : ι
  before : σ
  calls : List (Prog.Event Ans)

/-- The rounds of a loop over a list, to the end or to the first error. -/
inductive Rounds (body : ι → Act Ans σ ε Unit) :
    List ι → σ → List (Round Ans σ ι) → Except ε Unit → σ → Prop
  | done (s : σ) : Rounds body [] s [] (.ok ()) s
  | failed {x : ι} {xs : List ι} {s s' : σ} {tr : List (Prog.Event Ans)} {e : ε}
      (hb : (body x).Returns s tr (.error e) s') :
      Rounds body (x :: xs) s [⟨x, s, tr⟩] (.error e) s'
  | next {x : ι} {xs : List ι} {s mid s' : σ} {tr : List (Prog.Event Ans)}
      {rounds : List (Round Ans σ ι)} {r : Except ε Unit}
      (hb : (body x).Returns s tr (.ok ()) mid) (hr : Rounds body xs mid rounds r s') :
      Rounds body (x :: xs) s (⟨x, s, tr⟩ :: rounds) r s'

/-- The calls of a loop are those of its rounds. -/
theorem returns_forEach {body : ι → Act Ans σ ε Unit} {xs : List ι}
    {tr : List (Prog.Event Ans)} {r : Except ε Unit} {s' : σ} :
    (forEach body xs).Returns s tr r s' ↔
      ∃ rounds, Rounds body xs s rounds r s' ∧ tr = rounds.flatMap Round.calls := by
  induction xs generalizing s tr with
  | nil =>
    constructor
    · rintro ⟨rfl, heq⟩
      obtain ⟨rfl, rfl⟩ := Prod.mk.inj heq
      exact ⟨[], .done s, rfl⟩
    · rintro ⟨_, h, rfl⟩
      cases h
      exact ⟨rfl, rfl⟩
  | cons x xs ih =>
    rw [forEach, returns_andThen]
    constructor
    · rintro (⟨e, rfl, hb⟩ | ⟨first, second, _, mid, rfl, hb, hr⟩)
      · exact ⟨_, .failed hb, by simp⟩
      · obtain ⟨rounds, hrounds, rfl⟩ := ih.mp hr
        exact ⟨_, .next hb hrounds, by simp⟩
    · rintro ⟨_, h, rfl⟩
      cases h with
      | failed hb => exact Or.inl ⟨_, rfl, by simpa using hb⟩
      | next hb hr =>
        exact Or.inr ⟨_, _, (), _, by simp, hb, ih.mpr ⟨_, hr, rfl⟩⟩

/-- The rounds of a loop against given answers, and the state they leave. -/
def executeRounds (answer : (op : Op) → Ans op) (body : ι → Act Ans σ ε Unit) :
    List ι → σ → List (Round Ans σ ι) × σ
  | [], s => ([], s)
  | x :: xs, s =>
    let out := (body x s).execute answer
    match out.2.1 with
    | .error _ => ([⟨x, s, out.1⟩], out.2.2)
    | .ok _ =>
      let rest := executeRounds answer body xs out.2.2
      (⟨x, s, out.1⟩ :: rest.1, rest.2)

/-- The rounds whose calls have the given answers are those against them. -/
theorem Rounds.eq_execute {answer : (op : Op) → Ans op} {body : ι → Act Ans σ ε Unit}
    {xs : List ι} {s s' : σ} {rounds : List (Round Ans σ ι)} {r : Except ε Unit}
    (h : Rounds body xs s rounds r s')
    (hanswer : ∀ e ∈ rounds.flatMap Round.calls, e.2 = answer e.1) :
    executeRounds answer body xs s = (rounds, s') := by
  induction h with
  | done => rfl
  | @failed x xs s s' tr e hb =>
    have hrun := Prog.returns_eq_execute hb fun e he => hanswer e (by simpa using he)
    simp only [executeRounds, hrun]
  | @next x xs s mid s' tr rounds r hb _ ih =>
    rw [List.flatMap_cons] at hanswer
    have hrun := Prog.returns_eq_execute hb fun e he => hanswer e (List.mem_append_left _ he)
    have hrest := ih fun e he => hanswer e (List.mem_append_right _ he)
    simp only [executeRounds, hrun, hrest]

/-- Each round of a loop is a run of its body. -/
theorem Rounds.returns_of_mem {body : ι → Act Ans σ ε Unit} {xs : List ι} {s s' : σ}
    {rounds : List (Round Ans σ ι)} {r : Except ε Unit} (h : Rounds body xs s rounds r s')
    {round : Round Ans σ ι} (hround : round ∈ rounds) :
    ∃ r' last, (body round.element).Returns round.before round.calls r' last := by
  induction h with
  | done => exact absurd hround List.not_mem_nil
  | failed hb =>
    obtain rfl := List.mem_singleton.mp hround
    exact ⟨_, _, hb⟩
  | next hb _ ih =>
    rcases List.mem_cons.mp hround with rfl | hround
    · exact ⟨_, _, hb⟩
    · exact ih hround

/-- A loop is split at one of its rounds. -/
theorem Rounds.split {body : ι → Act Ans σ ε Unit} {xs : List ι} {s s' : σ}
    {done rest : List (Round Ans σ ι)} {round : Round Ans σ ι} {r : Except ε Unit}
    (h : Rounds body xs s (done ++ round :: rest) r s') :
    ∃ ys, Rounds body ys s done (.ok ()) round.before ∧
      ((rest = [] ∧ (body round.element).Returns round.before round.calls r s') ∨
        ∃ zs mid, (body round.element).Returns round.before round.calls (.ok ()) mid ∧
          Rounds body zs mid rest r s') := by
  induction done generalizing xs s with
  | nil =>
    cases h with
    | failed hb => exact ⟨[], .done _, .inl ⟨rfl, hb⟩⟩
    | next hb hr => exact ⟨[], .done _, .inr ⟨_, _, hb, hr⟩⟩
  | cons first done ih =>
    rw [List.cons_append] at h
    generalize htail : done ++ round :: rest = tail at h
    cases h with
    | failed _ => exact absurd htail (by simp)
    | next hb hr =>
      subst htail
      obtain ⟨ys, hdone, hrest⟩ := ih hr
      exact ⟨_ :: ys, .next hb hdone, hrest⟩

/-- A call of a loop is a call of one of its rounds, after whole rounds of the elements before. -/
theorem Rounds.split_call {body : ι → Act Ans σ ε Unit} {xs : List ι} {s s' : σ}
    {rounds : List (Round Ans σ ι)} {r : Except ε Unit} (h : Rounds body xs s rounds r s')
    {before after : List (Prog.Event Ans)} {e : Prog.Event Ans}
    (heq : rounds.flatMap Round.calls = before ++ e :: after) :
    ∃ ys y zs done mid own rest r' last, xs = ys ++ y :: zs ∧
      Rounds body ys s done (.ok ()) mid ∧ before = done.flatMap Round.calls ++ own ∧
      (body y).Returns mid (own ++ e :: rest) r' last ∧ ⟨y, mid, own ++ e :: rest⟩ ∈ rounds := by
  induction h generalizing before with
  | done => exact absurd heq (by simp)
  | @failed x xs s last tr err hb =>
    have htr : tr = before ++ e :: after := by simpa using heq
    subst htr
    exact ⟨[], x, xs, [], s, before, after, _, last, rfl, .done s, rfl, hb,
      List.mem_singleton.mpr rfl⟩
  | @next x xs s mid s' tr rounds r hb hr ih =>
    rw [List.flatMap_cons] at heq
    rcases List.append_eq_append_iff.mp heq with ⟨as, rfl, has⟩ | ⟨bs, htr, hbs⟩
    · obtain ⟨ys, y, zs, done, mid', own, rest, r', last, rfl, hdone, rfl, hy, hmem⟩ := ih has
      exact ⟨x :: ys, y, zs, _, mid', own, rest, r', last, rfl, .next hb hdone, by simp, hy,
        List.mem_cons_of_mem _ hmem⟩
    · cases bs with
      | nil =>
        rw [List.append_nil] at htr
        obtain ⟨ys, y, zs, done, mid', own, rest, r', last, rfl, hdone, hown, hy, hmem⟩ :=
          @ih [] hbs.symm
        refine ⟨x :: ys, y, zs, _, mid', own, rest, r', last, rfl, .next hb hdone, ?_, hy,
          List.mem_cons_of_mem _ hmem⟩
        rw [List.flatMap_cons, List.append_assoc, ← hown, List.append_nil]
        exact htr.symm
      | cons e' bs =>
        obtain ⟨rfl, rfl⟩ := List.cons.inj hbs
        obtain rfl : tr = before ++ e :: bs := htr
        exact ⟨[], x, xs, [], s, before, bs, _, mid, rfl, .done s, rfl, hb, List.mem_cons_self⟩

end Act

end Watchcat.Core
