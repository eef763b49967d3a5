import Watchcat.Core.Interleaving

/-!
# Playing an interleaved system

A host answers the calls of a system as a script says. With it a run over many
steps is computed, so that a run on fixed inputs is found by evaluation and not
written down.
-/

namespace Watchcat.Core

variable {Op : Type} {Ans : Op → Type} {Tid World : Type}

/-- How the calls of a system are answered, turn by turn. -/
structure Host (sys : System Ans Tid World) (Turn : Type) where
  answer : Turn → World → (op : Op) → Tid → Ans op × World
  enabled : Turn → World → Op → Tid → Bool
  sound : ∀ turn w op t, enabled turn w op t = true →
    sys.act t w op (answer turn w op t).1 (answer turn w op t).2

namespace Host

variable {sys : System Ans Tid World} {Turn α : Type} (H : Host sys Turn)

/-- A program of one thread, each call answered in its turn, the rest by the last one. -/
def alone (t : Tid) (turn : Turn) : List Turn → World → Prog Ans α → Option (α × World)
  | _, w, .pure a => some (a, w)
  | script, w, .call op next =>
    if H.enabled (script.headD turn) w op t then
      let r := H.answer (script.headD turn) w op t
      alone t turn script.tail r.2 (next r.1)
    else none

theorem alone_sound {t : Tid} {turn : Turn} {script : List Turn} {w w' : World}
    {p : Prog Ans α} {a : α} (h : H.alone t turn script w p = some (a, w')) :
    ∃ calls, sys.Alone t w p calls a w' := by
  induction p generalizing script w with
  | pure b =>
    obtain ⟨rfl, rfl⟩ := Prod.mk.inj (Option.some.inj h)
    exact ⟨[], .pure w b⟩
  | call op next ih =>
    simp only [alone] at h
    split at h
    · rename_i henabled
      obtain ⟨calls, hcalls⟩ := ih _ h
      exact ⟨_, .call (H.sound _ _ _ _ henabled) hcalls⟩
    · cases h

variable [DecidableEq Tid]

/-- The calls of the named threads, one after another. -/
def calls : List (Tid × Turn) → Config Ans Tid World →
    Option (List (Label Ans Tid) × Config Ans Tid World)
  | [], c => some ([], c)
  | (t, turn) :: script, c => match c.pool t with
    | some (.call op next) =>
      if H.enabled turn c.world op t then
        let r := H.answer turn c.world op t
        (calls script ⟨r.2, Function.update c.pool t (some (next r.1))⟩).map fun played =>
          (.call t op r.1 :: played.1, played.2)
      else none
    | _ => none

theorem calls_sound {script : List (Tid × Turn)} {c c' : Config Ans Tid World}
    {tr : List (Label Ans Tid)} (h : H.calls script c = some (tr, c')) : sys.Run c tr c' := by
  induction script generalizing c tr with
  | nil =>
    obtain ⟨rfl, rfl⟩ := Prod.mk.inj (Option.some.inj h)
    exact .nil c
  | cons entry script ih =>
    obtain ⟨t, turn⟩ := entry
    simp only [calls] at h
    split at h
    · rename_i op next hpool
      split at h
      · rename_i henabled
        obtain ⟨played, hplayed, heq⟩ := Option.map_eq_some_iff.mp h
        obtain ⟨rfl, rfl⟩ := Prod.mk.inj heq
        have hstep := System.Step.call hpool (H.sound turn c.world op t henabled)
        have hfirst := System.Run.snoc (.nil c) hstep
        exact hfirst.append (ih hplayed)
      · cases h
    · cases h

/-- A thread the script does not name stays where it is. -/
theorem calls_pool {script : List (Tid × Turn)} {c c' : Config Ans Tid World}
    {tr : List (Label Ans Tid)} (h : H.calls script c = some (tr, c')) {t : Tid}
    (ht : t ∉ script.map Prod.fst) : c'.pool t = c.pool t := by
  induction script generalizing c tr with
  | nil =>
    obtain ⟨rfl, rfl⟩ := Prod.mk.inj (Option.some.inj h)
    rfl
  | cons entry script ih =>
    obtain ⟨u, turn⟩ := entry
    rw [List.map_cons, List.mem_cons, not_or] at ht
    simp only [calls] at h
    split at h
    · split at h
      · obtain ⟨played, hplayed, heq⟩ := Option.map_eq_some_iff.mp h
        obtain ⟨rfl, rfl⟩ := Prod.mk.inj heq
        rw [ih hplayed ht.2]
        exact Function.update_of_ne ht.1 _ _
      · cases h
    · cases h

/-- What is played of a script, nothing where it gets stuck. -/
def played (script : List (Tid × Turn)) (c : Config Ans Tid World) :
    List (Label Ans Tid) × Config Ans Tid World :=
  (H.calls script c).getD ([], c)

theorem played_run (script : List (Tid × Turn)) (c : Config Ans Tid World) :
    sys.Run c (H.played script c).1 (H.played script c).2 := by
  unfold played
  cases h : H.calls script c with
  | none => exact .nil c
  | some played => exact H.calls_sound h

theorem played_pool (script : List (Tid × Turn)) (c : Config Ans Tid World) {t : Tid}
    (ht : t ∉ script.map Prod.fst) : (H.played script c).2.pool t = c.pool t := by
  unfold played
  cases h : H.calls script c with
  | none => rfl
  | some played => exact H.calls_pool h ht

end Host

end Watchcat.Core
