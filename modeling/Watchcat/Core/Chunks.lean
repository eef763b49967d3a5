import Mathlib.Data.List.Basic

/-!
# Streams that arrive in chunks

A stream is the list of the chunks in which its items arrive. Reading a number
of items takes them from as many chunks as it needs, so what it yields and what
it leaves depend on the items alone, however they are split.
-/

namespace Watchcat.Core

variable {α : Type}

/-- Read until a number of items has arrived; nothing where the stream ends before. -/
def takeExact : Nat → List (List α) → Option (List α) × List (List α)
  | 0, chunks => (some [], chunks)
  | _ + 1, [] => (none, [])
  | n + 1, chunk :: chunks =>
    if n + 1 ≤ chunk.length then (some (chunk.take (n + 1)), chunk.drop (n + 1) :: chunks)
    else
      let rest := takeExact (n + 1 - chunk.length) chunks
      (rest.1.map (chunk ++ ·), rest.2)

/-- Items that arrive are read, and what follows them is left. -/
theorem takeExact_of_append {chunks : List (List α)} {items rest : List α}
    (h : chunks.flatten = items ++ rest) :
    ∃ left, takeExact items.length chunks = (some items, left) ∧ left.flatten = rest := by
  induction chunks generalizing items with
  | nil =>
    obtain ⟨rfl, rfl⟩ := List.nil_eq_append_iff.mp h
    exact ⟨[], rfl, rfl⟩
  | cons chunk chunks ih =>
    cases hn : items.length with
    | zero =>
      obtain rfl := List.eq_nil_of_length_eq_zero hn
      exact ⟨chunk :: chunks, rfl, h⟩
    | succ n =>
      rw [List.flatten_cons] at h
      have hitems : items <+: chunk ++ chunks.flatten := h ▸ List.prefix_append items rest
      have hchunk : chunk <+: chunk ++ chunks.flatten := List.prefix_append _ _
      rw [takeExact]
      by_cases hle : n + 1 ≤ chunk.length
      · obtain ⟨more, rfl⟩ := List.prefix_of_prefix_length_le hitems hchunk (hn ▸ hle)
        have hrest : more ++ chunks.flatten = rest :=
          List.append_cancel_left (by rw [← List.append_assoc, h])
        rw [if_pos hle, ← hn, List.take_left, List.drop_left]
        exact ⟨more :: chunks, rfl, hrest⟩
      · obtain ⟨more, rfl⟩ := List.prefix_of_prefix_length_le hchunk hitems (by omega)
        have hmore : chunks.flatten = more ++ rest :=
          List.append_cancel_left (by rw [h, List.append_assoc])
        obtain ⟨left, hleft, hrest⟩ := ih hmore
        have hlength : n + 1 - chunk.length = more.length := by
          rw [← hn, List.length_append, Nat.add_sub_cancel_left]
        rw [if_neg hle, hlength]
        dsimp only
        rw [hleft]
        exact ⟨left, rfl, hrest⟩

/-- Where the stream ends before, everything has been read. -/
theorem takeExact_of_short {chunks : List (List α)} {n : Nat} (h : chunks.flatten.length < n) :
    ∃ left, takeExact n chunks = (none, left) ∧ left.flatten = [] := by
  induction chunks generalizing n with
  | nil =>
    cases n with
    | zero => exact absurd h (Nat.not_lt_zero _)
    | succ n => exact ⟨[], rfl, rfl⟩
  | cons chunk chunks ih =>
    cases n with
    | zero => exact absurd h (Nat.not_lt_zero _)
    | succ n =>
      rw [List.flatten_cons, List.length_append] at h
      have hle : ¬ n + 1 ≤ chunk.length := by omega
      have hshort : chunks.flatten.length < n + 1 - chunk.length := by omega
      obtain ⟨left, hleft, hend⟩ := ih hshort
      rw [takeExact, if_neg hle]
      dsimp only
      rw [hleft]
      exact ⟨left, rfl, hend⟩

end Watchcat.Core
