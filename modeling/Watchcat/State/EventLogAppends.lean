import Watchcat.State.EventLogStore

/-!
# What an append leaves

An append writes a part of its records and may then replace the file by its last
lines. Each append is described by what its calls took and whether they replaced
the file, wherever it is cut off.
-/

namespace Watchcat

open Watchcat.Core

namespace EventLogStore

variable {codec : Codec EngineEvent} {store : EventLogStore}

theorem appends_writeEvent (codec : Codec EngineEvent) (event : EngineEvent) :
    Appends (writeEvent codec event) (codec.encode event ++ [newline]) :=
  (appends_writeAll le_rfl).andThen (appends_writeAll le_rfl)

theorem appends_writeEvents (codec : Codec EngineEvent) (events : List EngineEvent) :
    Appends (Act.forEach (writeEvent codec) events) (codec.records events) := by
  have happends := appends_forEach (appends_writeEvent codec) events
  rwa [show events.flatMap (fun event => codec.encode event ++ [newline]) = codec.records events
    by rw [Codec.records, unlines, List.flatMap_map]] at happends

/-! ## The end of an append -/

/-- What the calls after the writes may do to the content: nothing, or one replacement. -/
def Settles (retention : Nat) (w : FileContent) (tr : FileTrace Error) (w' : FileContent) :
    Prop :=
  written tr = 0 ∧ ((replaced tr = false ∧ w' = w) ∨
    (replaced tr = true ∧ w' = some (compacted retention (w.getD []))))

theorem settles_nil (retention : Nat) (w : FileContent) : Settles retention w [] w :=
  ⟨rfl, Or.inl ⟨rfl, rfl⟩⟩

/-- Inspecting calls settle the content as it is. -/
theorem settles_of_inspects {retention : Nat} {w w' : FileContent} {tr : FileTrace Error}
    (h : ∀ e ∈ tr, e.1.Inspects) (hp : FilePath w tr w') : Settles retention w tr w' := by
  obtain ⟨rfl, hwritten, hreplaced⟩ := inspects_path h hp
  exact ⟨hwritten, Or.inl ⟨hreplaced, rfl⟩⟩

/-- Inspecting calls come before what settles the content. -/
theorem Settles.after_inspects {retention : Nat} {w mid w' : FileContent}
    {tr tr' : FileTrace Error} (h : ∀ e ∈ tr, e.1.Inspects) (hp : FilePath w tr mid)
    (hsettles : Settles retention mid tr' w') : Settles retention w (tr ++ tr') w' := by
  obtain ⟨rfl, hwritten, hreplaced⟩ := inspects_path h hp
  obtain ⟨hwritten', hsettles⟩ := hsettles
  refine ⟨by rw [written_append, hwritten, hwritten'], ?_⟩
  rw [replaced_append, hreplaced, Bool.false_or]
  exact hsettles

theorem uses_readExisting : readExisting.Uses FileCall.Inspects := by
  refine (Act.uses_perform trivial).andThen fun r => (Act.uses_ofExcept r).andThen fun content => ?_
  cases content with
  | none => exact Act.uses_fail _
  | some content => exact Act.uses_ret _

theorem uses_countLines : countLines.Uses FileCall.Inspects := by
  refine (Act.uses_perform trivial).andThen fun r => Act.uses_ite ?_ (Act.uses_ret _)
  exact uses_readExisting.andThen fun content => Act.uses_ret _

theorem readExisting_returns {w w' : FileContent} {tr : FileTrace Error} {content : Bytes}
    (h : readExisting.Returns () tr (.ok content) ()) (hp : FilePath w tr w') :
    w = some content := by
  rw [readExisting, Act.bind_eq, Act.returns_perform_andThen] at h
  obtain ⟨r, rest, rfl, h⟩ := h
  obtain ⟨mid, ⟨rfl, hread⟩, hp⟩ := filePath_cons.mp hp
  rcases r with e | (_ | content')
  · exact absurd (Act.returns_fail.mp h).2.1 nofun
  · exact absurd (Act.returns_fail.mp h).2.1 nofun
  · have heq := (Act.returns_ret.mp h).2.1
    obtain rfl := Except.ok.inj heq
    exact (hread _ rfl).symm

theorem countLines_returns {w w' : FileContent} {tr : FileTrace Error} {n : Nat}
    (h : countLines.Returns () tr (.ok n) ()) (hp : FilePath w tr w') :
    n = (lineItems (w.getD [])).length := by
  rw [countLines, Act.bind_eq, Act.returns_perform_andThen] at h
  obtain ⟨r, rest, rfl, h⟩ := h
  obtain ⟨mid, ⟨rfl, hr⟩, hrest⟩ := filePath_cons.mp hp
  split at h
  · rw [Act.bind_eq, Act.returns_andThen_ok] at h
    obtain ⟨first, second, content, _, rfl, h, h'⟩ := h
    obtain ⟨_, hrest, _⟩ := filePath_append.mp hrest
    obtain rfl := readExisting_returns h hrest
    exact Except.ok.inj (Act.returns_ret.mp h').2.1
  · rename_i hpresent
    have hnone : mid = none := by
      rw [show r = mid.isSome from hr, Bool.not_eq_true, Option.isSome_eq_false_iff] at hpresent
      exact Option.isNone_iff_eq_none.mp hpresent
    rw [hnone]
    exact Except.ok.inj (Act.returns_ret.mp h).2.1

theorem compact_performs {w w' : FileContent} {tr : FileTrace Error}
    (h : store.compact.Performs () tr) (hp : FilePath w tr w') :
    Settles store.retention w tr w' := by
  rw [compact, Act.bind_eq, Act.performs_andThen] at h
  rcases h with h | ⟨first, second, content, _, rfl, h, h'⟩
  · exact settles_of_inspects ((uses_readExisting ()).performs h) hp
  · obtain ⟨mid, hp, hp'⟩ := filePath_append.mp hp
    have hread := (uses_readExisting ()).performs h.performs
    obtain ⟨rfl, _, _⟩ := inspects_path hread hp
    refine .after_inspects hread hp ?_
    obtain rfl := readExisting_returns h hp
    split at h'
    · rw [Act.bind_eq, Act.performs_perform_andThen] at h'
      rcases h' with rfl | ⟨(e | _), rest, rfl, h'⟩
      · obtain rfl := filePath_nil.mp hp'
        exact settles_nil _ _
      · obtain rfl : rest = [] := h'
        obtain ⟨mid, rfl, hp'⟩ := filePath_cons.mp hp'
        obtain rfl := filePath_nil.mp hp'
        exact ⟨rfl, Or.inl ⟨rfl, rfl⟩⟩
      · obtain rfl : rest = [] := h'
        obtain ⟨mid, rfl, hp'⟩ := filePath_cons.mp hp'
        obtain rfl := filePath_nil.mp hp'
        exact ⟨rfl, Or.inr ⟨rfl, rfl⟩⟩
    · obtain rfl : second = [] := h'
      obtain rfl := filePath_nil.mp hp'
      exact settles_nil _ _

theorem compactIfLong_performs {w w' : FileContent} {tr : FileTrace Error}
    (h : store.compactIfLong.Performs () tr) (hp : FilePath w tr w') :
    Settles store.retention w tr w' := by
  rw [compactIfLong, Act.bind_eq, Act.performs_andThen] at h
  rcases h with h | ⟨first, second, lines, _, rfl, h, h'⟩
  · exact settles_of_inspects ((uses_countLines ()).performs h) hp
  · obtain ⟨mid, hp, hp'⟩ := filePath_append.mp hp
    refine .after_inspects ((uses_countLines ()).performs h.performs) hp ?_
    split at h'
    · exact compact_performs h' hp'
    · obtain rfl : second = [] := h'
      obtain rfl := filePath_nil.mp hp'
      exact settles_nil _ _

/-- Where the file is not compacted it holds at most twice the records to retain. -/
theorem compactIfLong_returns {w w' : FileContent} {tr : FileTrace Error}
    (h : store.compactIfLong.Returns () tr (.ok ()) ()) (hp : FilePath w tr w')
    (hrep : replaced tr = false) : (lineItems (w.getD [])).length ≤ 2 * store.retention := by
  rw [compactIfLong, Act.bind_eq, Act.returns_andThen_ok] at h
  obtain ⟨first, second, lines, _, rfl, h, h'⟩ := h
  obtain ⟨mid, hp, _⟩ := filePath_append.mp hp
  rw [← countLines_returns h hp]
  split at h'
  · -- A compaction that succeeds replaces the file.
    rw [replaced_append, Bool.or_eq_false_iff] at hrep
    rw [compact, Act.bind_eq, Act.returns_andThen_ok] at h'
    obtain ⟨first', second', content, _, rfl, _, h'⟩ := h'
    rw [replaced_append, Bool.or_eq_false_iff] at hrep
    split at h'
    · rw [Act.bind_eq, Act.returns_perform_andThen] at h'
      obtain ⟨(e | _), rest, rfl, h'⟩ := h'
      · cases (Act.returns_ofExcept.mp h').2.1
      · exact absurd hrep.2.2 (by simp [isReplacement])
    · cases (Act.returns_fail.mp h').2.1
  · rename_i hle
    refine (Nat.not_lt.mp hle).trans ((Nat.min_le_left _ _).trans ?_)
    rw [Nat.mul_comm]

/-! ## A whole append -/

/-- What an append, wherever it is cut off, leaves of the content. -/
def Grows (codec : Codec EngineEvent) (retention : Nat) (events : List EngineEvent)
    (w : FileContent) (tr : FileTrace Error) (w' : FileContent) : Prop :=
  (replaced tr = false ∧
    w'.getD [] = w.getD [] ++ (codec.records events).take (written tr)) ∨
  (replaced tr = true ∧ written tr = (codec.records events).length ∧
    w'.getD [] = compacted retention (w.getD [] ++ codec.records events))

/-- An append that is cut off before its file is open leaves everything as it is. -/
theorem grows_of_inspects {events : List EngineEvent} {w w' : FileContent} {tr : FileTrace Error}
    (h : ∀ e ∈ tr, e.1.Inspects) (hp : FilePath w tr w') :
    Grows codec store.retention events w tr w' := by
  obtain ⟨rfl, hwritten, hreplaced⟩ := inspects_path h hp
  exact Or.inl ⟨hreplaced, by rw [hwritten, List.take_zero, List.append_nil]⟩

/-- The part of an append that works on the open file. -/
theorem grows_of_open {events : List EngineEvent} {b : Bytes} {w' : FileContent}
    {tr : FileTrace Error}
    (h : (do
      Act.forEach (writeEvent codec) events
      Act.ofExcept (← Act.perform .flush)
      compactIfLong store : FileAct Unit Error Unit).Performs () tr)
    (hp : FilePath (some b) tr w') : Grows codec store.retention events (some b) tr w' := by
  have happends := appends_writeEvents codec events
  rw [Act.bind_eq, Act.performs_andThen] at h
  rcases h with h | ⟨first, second, _, _, rfl, h, h'⟩
  · obtain ⟨rfl, _, hrep⟩ := happends.performs h hp
    exact Or.inl ⟨hrep, rfl⟩
  · obtain ⟨mid, hp, hp'⟩ := filePath_append.mp hp
    obtain ⟨rfl, _, hrep⟩ := happends.performs h.performs hp
    have hall := happends.returns h hp
    rw [hall, List.take_length] at hp'
    have hsettles : Settles store.retention (some (b ++ codec.records events)) second w' := by
      rw [Act.bind_eq, Act.performs_perform_andThen] at h'
      rcases h' with rfl | ⟨(e | _), rest, rfl, h'⟩
      · obtain rfl := filePath_nil.mp hp'
        exact settles_nil _ _
      · obtain rfl : rest = [] := h'
        exact settles_of_inspects (by simp [FileCall.Inspects]) hp'
      · rw [Act.bind_eq, Act.ofExcept_ok_andThen] at h'
        obtain ⟨mid, hmid, hrest⟩ := filePath_cons.mp hp'
        obtain rfl := hmid
        have hflush : FilePath (some (b ++ codec.records events))
            ([⟨.flush, .ok ()⟩] : FileTrace Error) (some (b ++ codec.records events)) :=
          filePath_cons.mpr ⟨_, rfl, filePath_nil.mpr rfl⟩
        exact .after_inspects (by simp [FileCall.Inspects]) hflush
          (compactIfLong_performs h' hrest)
    obtain ⟨hwritten, hsettles⟩ := hsettles
    rcases hsettles with ⟨hrep', rfl⟩ | ⟨hrep', rfl⟩
    · refine Or.inl ⟨by rw [replaced_append, hrep, hrep']; rfl, ?_⟩
      rw [written_append, hall, hwritten, Nat.add_zero, List.take_length]
      rfl
    · refine Or.inr ⟨by rw [replaced_append, hrep']; simp, ?_, rfl⟩
      rw [written_append, hall, hwritten, Nat.add_zero]

/-- A call that writes nothing comes before what an append leaves. -/
theorem Grows.after_call {retention : Nat} {events : List EngineEvent} {w mid w' : FileContent}
    {e : Prog.Event (FileReply Error)} {tr : FileTrace Error} (htaken : bytesTaken e = 0)
    (hrep : isReplacement e = false) (hmid : mid.getD [] = w.getD [])
    (h : Grows codec retention events mid tr w') :
    Grows codec retention events w (e :: tr) w' := by
  rw [Grows, written_cons, replaced_cons, htaken, hrep, Nat.zero_add, Bool.false_or, ← hmid]
  exact h

/-- Every run of an append, wherever it is cut off. -/
theorem append_performs {events : List EngineEvent} {w w' : FileContent} {tr : FileTrace Error}
    (h : (append codec store events).Performs () tr) (hp : FilePath w tr w') :
    Grows codec store.retention events w tr w' := by
  rw [append] at h
  split at h
  · obtain rfl : tr = [] := h
    exact grows_of_inspects (by simp) hp
  · rw [Act.bind_eq, Act.performs_perform_andThen] at h
    rcases h with rfl | ⟨(e | _), rest, rfl, h⟩
    · exact grows_of_inspects (by simp) hp
    · obtain rfl : rest = [] := h
      exact grows_of_inspects (by simp [FileCall.Inspects]) hp
    · rw [Act.bind_eq, Act.ofExcept_ok_andThen, Act.bind_eq, Act.performs_perform_andThen] at h
      obtain ⟨mid, hmid, hopen⟩ := filePath_cons.mp hp
      obtain rfl : mid = w := hmid
      refine .after_call rfl rfl rfl ?_
      rcases h with rfl | ⟨(e | _), rest, rfl, h⟩
      · exact grows_of_inspects (by simp) hopen
      · obtain rfl : rest = [] := h
        obtain ⟨mid', hmid', hend⟩ := filePath_cons.mp hopen
        obtain rfl : mid' = mid := hmid'
        exact .after_call rfl rfl rfl (grows_of_inspects (by simp) hend)
      · obtain ⟨mid', hmid', hrest⟩ := filePath_cons.mp hopen
        obtain rfl : mid' = some (mid.getD []) := hmid'
        exact .after_call rfl rfl rfl (grows_of_open h hrest)

/-- An append that succeeds wrote all its records; it leaves at most twice the records to
retain where it does not compact the file. -/
theorem append_returns {events : List EngineEvent} {w w' : FileContent} {tr : FileTrace Error}
    (hne : events ≠ []) (h : (append codec store events).Returns () tr (.ok ()) ())
    (hp : FilePath w tr w') : written tr = (codec.records events).length ∧
      (replaced tr = false → (lineItems (w'.getD [])).length ≤ 2 * store.retention) := by
  rw [append, if_neg hne, Act.bind_eq, Act.returns_perform_andThen] at h
  obtain ⟨(e | _), rest, rfl, h⟩ := h
  · exact absurd (Act.returns_ofExcept.mp h).2.1 nofun
  rw [Act.bind_eq, Act.ofExcept_ok_andThen, Act.bind_eq, Act.returns_perform_andThen] at h
  obtain ⟨(e | _), rest, rfl, h⟩ := h
  · exact absurd (Act.returns_ofExcept.mp h).2.1 nofun
  obtain ⟨_, _, hopen⟩ := filePath_cons.mp hp
  obtain ⟨_, hmid, hrest⟩ := filePath_cons.mp hopen
  obtain rfl := hmid
  rw [Act.bind_eq, Act.ofExcept_ok_andThen, Act.bind_eq, Act.returns_andThen_ok] at h
  obtain ⟨first, second, _, _, rfl, hwrite, h⟩ := h
  obtain ⟨mid, hpw, hrest⟩ := filePath_append.mp hrest
  have hall := (appends_writeEvents codec events).returns hwrite hpw
  have hnone := (appends_writeEvents codec events).performs hwrite.performs hpw
  rw [Act.bind_eq, Act.returns_perform_andThen] at h
  obtain ⟨(e | _), rest, rfl, h⟩ := h
  · exact absurd (Act.returns_ofExcept.mp h).2.1 nofun
  rw [Act.bind_eq, Act.ofExcept_ok_andThen] at h
  obtain ⟨mid', hmid', hend⟩ := filePath_cons.mp hrest
  obtain rfl : mid' = mid := hmid'
  obtain ⟨hwritten, hsettles⟩ := compactIfLong_performs h.performs hend
  refine ⟨by simp [bytesTaken, hall, hwritten], fun hrep => ?_⟩
  have hrep' : replaced rest = false := by
    simp only [replaced_cons, replaced_append, Bool.or_eq_false_iff] at hrep
    exact hrep.2.2.2.2
  rcases hsettles with ⟨_, rfl⟩ | ⟨htrue, _⟩
  · exact compactIfLong_returns h hend hrep'
  · exact absurd (hrep'.symm.trans htrue) Bool.false_ne_true

end EventLogStore

end Watchcat
