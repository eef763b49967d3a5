import Watchcat.Correctness.RegistryRuns

/-!
# The registry after a crash

At every moment of a run the file holds the operations in memory, whichever saves
have failed. A load from this file finds all of them and no others; operations that
had not ended are interrupted.
-/

namespace Watchcat

open Watchcat.Core RetryOperationRegistry

/-- A load that fails was not given the file or could not write it. -/
theorem LoadFailure.blamed {tr : List (Prog.Event Reply)} (h : LoadFailure tr)
    {r : RetryOperationRegistry} {file : Option RetryOperationDocument}
    (hfile : FileMatches file r) (hreads : ReadsFile file tr) :
    (∃ e, (⟨.readOperations, .error e⟩ : Prog.Event Reply) ∈ tr) ∨
      ∃ document e, (⟨.writeOperations document, .error e⟩ : Prog.Event Reply) ∈ tr := by
  cases h with
  | @unread e => exact Or.inl ⟨e, List.mem_cons_self⟩
  | @unsupported document hversion =>
    have hsome := hreads (some document) List.mem_cons_self
    subst hsome
    exact absurd hfile.1 hversion
  | @unsaved content clock save r r' e hclock hsave =>
    cases hsave with
    | restored order e =>
      refine Or.inr ⟨document order.1, e, ?_⟩
      refine List.mem_cons_of_mem _ (List.mem_append.mpr (Or.inr ?_))
      exact List.mem_cons_of_mem _ List.mem_cons_self

/-- A restart leaves the identities. -/
theorem Restored.identity_eq {x y : Option RetryOperation} (h : Option.Rel Restored x y) :
    y.map RetryOperation.identity = x.map RetryOperation.identity := by
  cases h with
  | some ho => exact congrArg some ho.identity
  | none => rfl

/-- In every run a call that fails leaves the registry and its file as they were; and a load that
follows finds the operations by their identifiers, sessions and request keys, those that had ended
as they were and all others as unknown. The load fails only where its read or its save fails. -/
theorem registry_reloaded {log : List RegistryEntry} {m : RegistryMoment}
    (h : RegistryHistory log m) :
    (∀ entry ∈ log, entry.error ≠ none → entry.after.registry = entry.before.registry ∧
      entry.after.file = entry.before.file) ∧
    ∀ (tr : List (Prog.Event Reply)) (res : Except Error Unit) (r' : RetryOperationRegistry),
      loadOperations.Returns {} tr res r' → ReadsFile m.file tr →
      (res = .ok () →
        (∀ id, (r'.operations.lookup id).map RetryOperation.identity =
          (m.registry.operations.lookup id).map RetryOperation.identity) ∧
        ∀ id o o', m.registry.operations.lookup id = some o → r'.operations.lookup id = some o' →
          (o.status.isActive = false →
            o'.status = o.status ∧ o'.result = o.result ∧ o'.error = o.error) ∧
          (o.status.isActive = true → o'.status = .unknown)) ∧
      ((∃ e, res = .error e) →
        (∃ e, (⟨.readOperations, .error e⟩ : Prog.Event Reply) ∈ tr) ∨
          ∃ document e, (⟨.writeOperations document, .error e⟩ : Prog.Event Reply) ∈ tr) := by
  obtain ⟨hm, hlog⟩ := h.filed
  refine ⟨fun entry hentry herror => ?_, fun tr res r' hload hreads => ⟨?_, ?_⟩⟩
  · cases hlog entry hentry with
    | failed _ _ hregistry hfile => exact ⟨hregistry, hfile⟩
    | changed hnone _ _ => exact absurd hnone herror
  · rintro rfl
    obtain ⟨hchange, _⟩ := (loadOperations_round hload).change hm.file hm.indexed hreads
    cases hchange with
    | restarted hfound hvalues hindexed =>
      have hlookup := lookup_restored hfound hvalues hm.indexed hindexed
      refine ⟨fun id => Restored.identity_eq (hlookup id), fun id o o' ho ho' => ?_⟩
      · have hrestored := hlookup id
        rw [ho, ho'] at hrestored
        cases hrestored with
        | some hrestored =>
          cases hrestored with
          | settled hsettled =>
            refine ⟨fun _ => ⟨rfl, rfl, rfl⟩, fun hactive => ?_⟩
            rw [hsettled] at hactive
            cases hactive
          | interrupted hactive now =>
            refine ⟨fun hsettled => ?_, fun _ => rfl⟩
            rw [hactive] at hsettled
            cases hsettled
  · intro herror
    rcases loadOperations_cases hload with ⟨rfl, _⟩ | ⟨_, hfailure⟩
    · obtain ⟨e, he⟩ := herror
      cases he
    · exact hfailure.blamed hm.file hreads

/-- An accepted operation is unknown after a crash. -/
theorem registry_reloaded_opened :
    openedRegistry.operations.lookup "o₁" = some (.fresh "o₁" sampleSession "k₁" 0) ∧
      ∃ o, (reloading openingEntry.after.file).2.2.operations.lookup "o₁" = some o ∧
        o.status = .unknown := by
  have hload := ((registry_reloaded openingEntry_history).2 _ _ _ (Prog.execute_returns _ _)
    (reloading_reads _)).1 rfl
  refine ⟨rfl, _, rfl, ?_⟩
  exact (hload.2 "o₁" _ _ rfl rfl).2 rfl

end Watchcat
