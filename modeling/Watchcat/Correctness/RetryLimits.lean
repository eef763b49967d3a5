import Watchcat.Correctness.RegistryRuns

/-!
# The limits of the registry

The stored operations stay within the limits through every run, and each of them
passes through its statuses in order. A caller that is left always finds its
operation active: this is why its calls only ever move the operation forward.
-/

namespace Watchcat

open Watchcat.Core RetryOperationRegistry

/-! ## One change -/

/-- The operation of a call is as its caller left it. -/
def RegistryCall.Due (r : RetryOperationRegistry) : RegistryCall → Prop
  | .setRunning id => ∃ o, r.operations.lookup id = some o ∧ o.status = .accepted
  | .finish id _ => ∃ o, r.operations.lookup id = some o ∧ o.status.isActive = true
  | _ => True

theorem Restored.later {o o' : RetryOperation} (h : Restored o o') : o.Later o' := by
  cases h with
  | settled _ => exact .refl o
  | interrupted hactive now => exact RetryOperation.later_interrupted hactive now

/-- An eviction leaves the active operations where they are. -/
theorem lookup_evict {r : RetryOperationRegistry} {order : List RetryOperation}
    (horder : order.Perm r.operations.values)
    (hr : r.operations.Indexed RetryOperation.operationId) {id : String} {o : RetryOperation}
    (ho : r.operations.lookup id = some o) (hactive : o.status.isActive = true) :
    (evict order r).operations.lookup id = some o := by
  rcases evict_cases horder hr with heq | ⟨p, hp, hsettled, heq⟩
  · rw [heq]
    exact ho
  · have hne : id ≠ p.operationId := by
      rintro rfl
      rw [hp] at ho
      cases ho
      rw [hactive] at hsettled
      cases hsettled
    rw [heq, lookup_discard, if_neg hne]
    exact ho

/-- A stored operation is the continuation of one stored before, or the new one. -/
theorem RegistryChange.later {r r' : RetryOperationRegistry} {tr : List (Prog.Event Reply)}
    {call : RegistryCall} {answer : Option (RetryOperation × Bool)}
    (h : RegistryChange r tr call answer r') (hdue : call.Due r)
    (hr : r.operations.Indexed RetryOperation.operationId) {id : String} {o' : RetryOperation}
    (ho' : r'.operations.lookup id = some o') :
    (∃ o, r.operations.lookup id = some o ∧ o.Later o') ∨
      (tr.filterMap drawnUuid = [id] ∧ answer = some (o', true)) := by
  cases h with
  | known _ => exact Or.inl ⟨o', ho', .refl o'⟩
  | opened horder _ hdrawn =>
    rw [lookup_store] at ho'
    split at ho'
    · rename_i hid
      cases ho'
      exact Or.inr ⟨hid ▸ hdrawn, rfl⟩
    · exact Or.inl ⟨o', lookup_of_evict ho', .refl o'⟩
  | begun now =>
    obtain ⟨p, hp, haccepted⟩ := hdue
    rcases lookup_adjust_cases ho' with ⟨rfl, o, ho, rfl⟩ | ⟨_, ho⟩
    · rw [hp] at ho
      cases ho
      exact Or.inl ⟨p, hp, RetryOperation.later_started haccepted now⟩
    · exact Or.inl ⟨o', ho, .refl o'⟩
  | absent _ => exact Or.inl ⟨o', ho', .refl o'⟩
  | @ended _ result now =>
    obtain ⟨p, hp, hactive⟩ := hdue
    rcases lookup_adjust_cases ho' with ⟨rfl, o, ho, rfl⟩ | ⟨_, ho⟩
    · rw [hp] at ho
      cases ho
      exact Or.inl ⟨p, hp, RetryOperation.later_ended hactive result now⟩
    · exact Or.inl ⟨o', ho, .refl o'⟩
  | withdrawn =>
    rw [lookup_discard] at ho'
    split at ho'
    · cases ho'
    · exact Or.inl ⟨o', ho', .refl o'⟩
  | restarted hfound hvalues hindexed =>
    have hrel := lookup_restored hfound hvalues hr hindexed id
    rw [ho'] at hrel
    generalize hlookup : r.operations.lookup id = before at hrel
    cases hrel with
    | some hrestored => exact Or.inl ⟨_, rfl, hrestored.later⟩

/-- An update of a stored operation keeps the limits. -/
theorem Admissible.adjust {r : RetryOperationRegistry} {id : String} {o : RetryOperation}
    {f : RetryOperation → RetryOperation} (h : Admissible r.operations.values)
    (ho : r.operations.lookup id = some o) (hid : (f o).identity = o.identity)
    (hact : (f o).status.isActive = true → o.status.isActive = true) :
    Admissible (r.adjust id f).operations.values := by
  have hperm := Table.values_erase_perm ho
  rw [RetryOperationRegistry.adjust, ho, Table.values_insert]
  exact (h.perm hperm).replace hid hact

/-- Every change keeps the limits. -/
theorem RegistryChange.admissible {r r' : RetryOperationRegistry}
    {tr : List (Prog.Event Reply)} {call : RegistryCall}
    {answer : Option (RetryOperation × Bool)} (h : RegistryChange r tr call answer r')
    (hdue : call.Due r) (hr : r.operations.Indexed RetryOperation.operationId)
    (hlimits : Admissible r.operations.values) : Admissible r'.operations.values := by
  cases h with
  | known _ => exact hlimits
  | @opened session requestKey order id now horder hanswer _ =>
    obtain ⟨hkey, hlone⟩ := admission_none hanswer
    have hcount := horder.countP_eq fun o => o.status.isActive
    have hactive := admission_none_active hanswer
    rw [hcount] at hactive
    have hroom := evict_room horder hr hlimits.stored hactive
    -- what is left beside the new operation was stored before
    have hleft : ((evict order r).operations.erase id).values.Sublist r.operations.values := by
      refine (Table.values_erase_sublist _ _).trans ?_
      rcases evict_cases horder hr with heq | ⟨p, _, _, heq⟩
      · rw [heq]
      · rw [heq]
        exact Table.values_erase_sublist _ _
    refine (hlimits.sublist hleft).cons ?_ ?_ ?_ ?_
    · exact (Table.values_erase_sublist _ _).length_le.trans_lt hroom
    · exact hleft.countP_le.trans_lt hactive
    · exact fun p hp => findKey_none hkey p (horder.mem_iff.mpr (hleft.subset hp))
    · rintro p hp ⟨-, hpactive, hprovider, hsession⟩
      have hother := findActive_none hlone p (horder.mem_iff.mpr (hleft.subset hp)) hpactive
      have hsame : p.isFor session = true :=
        (p.isFor_iff session).mpr ⟨hprovider.symm, hsession.symm⟩
      rw [hsame] at hother
      cases hother
  | begun now =>
    obtain ⟨o, ho, haccepted⟩ := hdue
    refine hlimits.adjust ho (o.started_identity now) fun _ => ?_
    rw [haccepted]
    rfl
  | absent _ => exact hlimits
  | @ended _ result now =>
    obtain ⟨o, ho, hactive⟩ := hdue
    exact hlimits.adjust ho (o.ended_identity result now) fun _ => hactive
  | withdrawn => exact hlimits.sublist (Table.values_erase_sublist _ _)
  | restarted hfound hvalues _ =>
    refine Admissible.perm (.of_settled ?_ ?_ ?_) hvalues.symm
    · rw [← hfound.length_eq]
      exact hlimits.stored
    · have hkeys := congrArg (List.map RetryOperation.Identity.requestKey)
        (Restored.map_identity hfound)
      rw [List.map_map, List.map_map] at hkeys
      exact hkeys.symm ▸ hlimits.keys
    · intro o ho
      obtain ⟨p, _, hp⟩ := Restored.of_mem hfound ho
      exact hp.settled_after

/-! ## One call -/

/-- Every caller that is left finds its operation active, a handler finds it not yet started. -/
def RegistryMoment.Attended (m : RegistryMoment) : Prop :=
  ∀ id caller, m.callers id = some caller → ∃ o, m.registry.operations.lookup id = some o ∧
    o.status.isActive = true ∧ (caller = .handler → o.status = .accepted)

/-- A caller's own operation is given, the others are as before. -/
theorem RegistryMoment.Attended.update {m : RegistryMoment} (h : m.Attended)
    {r : RetryOperationRegistry} {file : Option RetryOperationDocument} {id : String}
    {caller : Option RetryCaller}
    (hother : ∀ k o, k ≠ id → m.registry.operations.lookup k = some o →
      o.status.isActive = true → r.operations.lookup k = some o)
    (hown : ∀ c, caller = some c → ∃ o, r.operations.lookup id = some o ∧
      o.status.isActive = true ∧ (c = .handler → o.status = .accepted)) :
    RegistryMoment.Attended ⟨r, file, Function.update m.callers id caller⟩ := by
  intro k c hc
  change Function.update m.callers id caller k = some c at hc
  rw [Function.update_apply] at hc
  split at hc
  · rename_i hk
    subst hk
    exact hown c hc
  · rename_i hk
    obtain ⟨o, ho, hactive, hhandler⟩ := h k c hc
    exact ⟨o, hother k o hk ho hactive, hactive, hhandler⟩

theorem lookup_adjust_ne {r : RetryOperationRegistry} {id k : String}
    {f : RetryOperation → RetryOperation} (hk : k ≠ id) :
    (r.adjust id f).operations.lookup k = r.operations.lookup k := by
  rw [lookup_adjust, if_neg hk]

/-- The caller of a call finds its operation as it left it. -/
theorem RegistryEntry.Happens.due {entry : RegistryEntry} (h : entry.Happens)
    (hm : entry.before.Attended) : entry.call.Due entry.before.registry := by
  cases h with
  | begun hcaller _ =>
    obtain ⟨o, ho, _, hhandler⟩ := hm _ _ hcaller
    exact ⟨o, ho, hhandler rfl⟩
  | ended hcaller _ =>
    obtain ⟨c, hc⟩ := Option.ne_none_iff_exists'.mp hcaller
    obtain ⟨o, ho, hactive, _⟩ := hm _ _ hc
    exact ⟨o, ho, hactive⟩
  | _ => trivial

/-- Every call leaves the operations of the remaining callers active. -/
theorem RegistryEntry.Happens.attended {entry : RegistryEntry} (h : entry.Happens)
    (hs : entry.Settles) (hm : entry.before.Attended)
    (hr : entry.before.registry.operations.Indexed RetryOperation.operationId) :
    entry.after.Attended := by
  cases h with
  | @accepted m session requestKey tr answer r' h =>
    cases hs with
    | failed herror _ _ _ => cases herror
    | changed _ hchange _ =>
      dsimp only at hchange
      cases hchange with
      | known _ => exact hm
      | @opened _ _ order id now horder _ _ =>
        refine hm.update (fun k o hk ho hactive => ?_) ?_
        · rw [lookup_store, if_neg hk]
          exact lookup_evict horder hr ho hactive
        · rintro c ⟨⟩
          refine ⟨.fresh id session requestKey now, ?_, rfl, fun _ => rfl⟩
          rw [lookup_store]
          exact if_pos rfl
  | refused h =>
    cases hs with
    | failed _ _ hregistry _ =>
      dsimp only at hregistry
      subst hregistry
      exact hm
    | changed herror _ _ => cases herror
  | @begun m id tr res r' hcaller h =>
    obtain ⟨p, hp, hactive, _⟩ := hm _ _ hcaller
    cases hs with
    | failed _ _ hregistry _ =>
      dsimp only at hregistry
      subst hregistry
      refine hm.update (fun k o _ ho _ => ho) ?_
      rintro c ⟨⟩
      exact ⟨p, hp, hactive, fun hhandler => nomatch hhandler⟩
    | changed _ hchange _ =>
      dsimp only at hchange
      cases hchange with
      | begun now =>
        refine hm.update (fun k o hk ho _ => (lookup_adjust_ne hk).trans ho) ?_
        rintro c ⟨⟩
        refine ⟨p.started now, ?_, rfl, fun hhandler => nomatch hhandler⟩
        rw [lookup_adjust, if_pos rfl, hp, Option.map_some]
  | @ended m id result tr res r' hcaller h =>
    refine hm.update (fun k o hk ho _ => ?_) (fun c hc => nomatch hc)
    cases hs with
    | failed _ _ hregistry _ =>
      dsimp only at hregistry
      subst hregistry
      exact ho
    | changed _ hchange _ =>
      dsimp only at hchange
      cases hchange with
      | absent _ => exact ho
      | ended now => exact (lookup_adjust_ne hk).trans ho
  | @withdrawn m id tr res r' hcaller h =>
    refine hm.update (fun k o hk ho _ => ?_) (fun c hc => nomatch hc)
    cases hs with
    | failed _ _ hregistry _ =>
      dsimp only at hregistry
      subst hregistry
      exact ho
    | changed _ hchange _ =>
      dsimp only at hchange
      cases hchange with
      | withdrawn =>
        rw [lookup_discard, if_neg hk]
        exact ho
  | restarted _ _ => exact fun _ _ hc => nomatch hc
  | stopped _ _ => exact fun _ _ hc => nomatch hc

/-! ## Runs -/

/-- What a call adds to the operations to be started is the identifier it has drawn, and that
operation is stored. -/
theorem RegistryEntry.Settles.started {entry : RegistryEntry} (h : entry.Settles) :
    startedIds [entry] = [] ∨ ∃ o, entry.answer = some (o, true) ∧
      startedIds [entry] = [o.operationId] ∧
        entry.calls.filterMap drawnUuid = [o.operationId] := by
  cases h with
  | failed _ hanswer _ _ =>
    refine Or.inl ?_
    rw [startedIds, List.filterMap_cons, hanswer]
    rfl
  | changed _ hchange _ =>
    generalize hanswer : entry.answer = answer at hchange
    generalize entry.call = call at hchange
    generalize entry.after.registry = r' at hchange
    have hids : startedIds [entry] = ((answer.bind fun answer =>
        if answer.2 then some answer.1.operationId else none).toList) := by
      rw [startedIds, List.filterMap_cons, hanswer]
      split <;> rename_i h <;> rw [h] <;> rfl
    rw [hids]
    cases hchange with
    | opened _ _ hdrawn => exact Or.inr ⟨_, rfl, rfl, hdrawn⟩
    | _ => exact Or.inl rfl

/-- An answer names a stored operation. -/
theorem RegistryChange.answered {r r' : RetryOperationRegistry} {tr : List (Prog.Event Reply)}
    {call : RegistryCall} {answer : RetryOperation × Bool}
    (h : RegistryChange r tr call (some answer) r')
    (hr : r.operations.Indexed RetryOperation.operationId) :
    ∃ o, r'.operations.lookup answer.1.operationId = some o := by
  cases h with
  | known ho => exact ⟨_, hr.lookup_mem ho⟩
  | @opened session requestKey _ id now _ _ _ =>
    refine ⟨.fresh id session requestKey now, ?_⟩
    rw [lookup_store]
    exact if_pos rfl

/-- What a run with fresh identifiers keeps. -/
structure Lawful (log : List RegistryEntry) (m : RegistryMoment) : Prop where
  filed : m.Filed
  limits : Admissible m.registry.operations.values
  attended : m.Attended
  drawn : ∀ id ∈ startedIds log, id ∈ drawnIds log
  once : (startedIds log).Nodup
  stored : ∀ id o, m.registry.operations.lookup id = some o → id ∈ startedIds log
  later : ∀ entry ∈ log, ∀ id o, entry.before.registry.operations.lookup id = some o →
    id ∈ startedIds log ∧ ∀ o', m.registry.operations.lookup id = some o' → o.Later o'
  answered : ∀ entry ∈ log, ∀ answer ∈ entry.answer, answer.1.operationId ∈ startedIds log

/-- An operation stored after a call was stored before it, or is the one to be started. -/
theorem RegistryEntry.Settles.later {entry : RegistryEntry} (h : entry.Settles)
    (hdue : entry.call.Due entry.before.registry)
    (hr : entry.before.registry.operations.Indexed RetryOperation.operationId)
    {id : String} {o' : RetryOperation}
    (ho' : entry.after.registry.operations.lookup id = some o') :
    (∃ o, entry.before.registry.operations.lookup id = some o ∧ o.Later o') ∨
      (entry.calls.filterMap drawnUuid = [id] ∧ startedIds [entry] = [id]) := by
  cases h with
  | failed _ _ hregistry _ =>
    rw [hregistry] at ho'
    exact Or.inl ⟨o', ho', .refl o'⟩
  | changed herror hchange hfile =>
    refine (hchange.later hdue hr ho').imp_right fun ⟨hdrawn, hanswer⟩ => ⟨hdrawn, ?_⟩
    rcases RegistryEntry.Settles.started (.changed herror hchange hfile) with
      hnone | ⟨o, ho, hstarted, hdrawn'⟩
    · rw [startedIds, List.filterMap_cons, hanswer] at hnone
      cases hnone
    · rw [hstarted, ← hdrawn', hdrawn]

/-- One call keeps what a run with fresh identifiers keeps. -/
theorem Lawful.step {log : List RegistryEntry} {entry : RegistryEntry}
    (h : Lawful log entry.before) (hentry : entry.Happens)
    (hfresh : ∀ id ∈ entry.calls.filterMap drawnUuid, id ∉ drawnIds log) :
    Lawful (log ++ [entry]) entry.after := by
  have hsettles := hentry.settles h.filed.file h.filed.indexed
  have hdue := hentry.due h.attended
  have hstarted := hsettles.started
  have hold : ∀ {id : String}, id ∈ startedIds log → id ∈ startedIds (log ++ [entry]) := by
    intro id hid
    rw [startedIds_append]
    exact List.mem_append.mpr (Or.inl hid)
  have hstored : ∀ id o, entry.after.registry.operations.lookup id = some o →
      id ∈ startedIds (log ++ [entry]) := by
    intro id o' ho'
    rcases hsettles.later hdue h.filed.indexed ho' with ⟨o, ho, _⟩ | ⟨_, hids⟩
    · exact hold (h.stored id o ho)
    · rw [startedIds_append, hids]
      exact List.mem_append.mpr (Or.inr (List.mem_singleton.mpr rfl))
  refine ⟨hsettles.filed h.filed, ?_, hentry.attended hsettles h.attended h.filed.indexed,
    ?_, ?_, hstored, ?_, ?_⟩
  · cases hsettles with
    | failed _ _ hregistry _ =>
      rw [hregistry]
      exact h.limits
    | changed _ hchange _ => exact hchange.admissible hdue h.filed.indexed h.limits
  · intro id hid
    rw [startedIds_append] at hid
    rw [drawnIds_append]
    rcases List.mem_append.mp hid with hid | hid
    · exact List.mem_append.mpr (Or.inl (h.drawn id hid))
    · rcases hstarted with hnone | ⟨o, _, hids, hdrawn⟩
      · rw [hnone] at hid
        cases hid
      · rw [hids, ← hdrawn] at hid
        exact List.mem_append.mpr (Or.inr hid)
  · rw [startedIds_append]
    rcases hstarted with hnone | ⟨o, _, hids, hdrawn⟩
    · rw [hnone, List.append_nil]
      exact h.once
    · rw [hids]
      have hnew : o.operationId ∉ drawnIds log :=
        hfresh _ (hdrawn ▸ List.mem_singleton.mpr rfl)
      refine List.nodup_append.mpr ⟨h.once, List.nodup_singleton _, ?_⟩
      intro id hid _ hid' heq
      rw [List.mem_singleton.mp hid'] at heq
      exact hnew (heq ▸ h.drawn id hid)
  · intro e he id o ho
    -- an operation stored at an earlier moment is not the one to be started
    have hbefore : ∀ o', entry.before.registry.operations.lookup id = some o' →
        id ∈ startedIds log := fun o' => h.stored id o'
    have hearlier : id ∈ startedIds log ∧ ∀ o₁,
        entry.before.registry.operations.lookup id = some o₁ → o.Later o₁ := by
      rcases List.mem_append.mp he with he | he
      · exact h.later e he id o ho
      · rw [List.mem_singleton.mp he] at ho
        refine ⟨hbefore o ho, fun o₁ ho₁ => ?_⟩
        rw [ho] at ho₁
        cases ho₁
        exact .refl o
    refine ⟨hold hearlier.1, fun o' ho' => ?_⟩
    rcases hsettles.later hdue h.filed.indexed ho' with ⟨o₁, ho₁, hlater⟩ | ⟨hdrawn, _⟩
    · exact (hearlier.2 o₁ ho₁).trans hlater
    · have hnew := hfresh id (hdrawn ▸ List.mem_singleton.mpr rfl)
      exact absurd (h.drawn id hearlier.1) hnew
  · intro e he answer hanswer
    rcases List.mem_append.mp he with he | he
    · exact hold (h.answered e he answer hanswer)
    · rw [List.mem_singleton.mp he] at hanswer
      cases hsettles with
      | failed _ hnone _ _ =>
        rw [hnone] at hanswer
        cases hanswer
      | changed _ hchange _ =>
        rw [Option.mem_def.mp hanswer] at hchange
        obtain ⟨o, ho⟩ := hchange.answered h.filed.indexed
        exact hstored _ o ho

theorem RegistryHistory.lawful {log : List RegistryEntry} {m : RegistryMoment}
    (h : RegistryHistory log m) (hfresh : (drawnIds log).Nodup) : Lawful log m := by
  induction h with
  | start =>
    exact ⟨⟨Table.indexed_empty _, rfl⟩, .nil, fun _ _ hc => (nomatch hc),
      fun _ hid => absurd hid List.not_mem_nil, List.nodup_nil, fun _ _ ho => (nomatch ho),
      fun _ he => absurd he List.not_mem_nil, fun _ he => absurd he List.not_mem_nil⟩
  | @step log entry _ hentry ih =>
    rw [drawnIds_append, List.nodup_append] at hfresh
    exact (ih hfresh.1).step hentry fun id hid hold => hfresh.2.2 id hold id hid rfl

/-- The moments before each call of a run. -/
theorem RegistryHistory.pairwise {log : List RegistryEntry} {m : RegistryMoment}
    (h : RegistryHistory log m) (hfresh : (drawnIds log).Nodup) :
    (log.map RegistryEntry.before ++ [m]).Pairwise fun m m' => ∀ id o o',
      m.registry.operations.lookup id = some o → m'.registry.operations.lookup id = some o' →
        o.Later o' := by
  induction h with
  | start => exact List.pairwise_singleton _ _
  | @step log entry hrun hentry ih =>
    have hlawful := (hrun.step hentry).lawful hfresh
    rw [drawnIds_append, List.nodup_append] at hfresh
    have hearlier := ih hfresh.1
    rw [List.map_append, List.map_cons, List.map_nil]
    refine List.pairwise_append.mpr ⟨hearlier, List.pairwise_singleton _ _, ?_⟩
    intro m hm m' hm' id o o' ho ho'
    rw [List.mem_singleton.mp hm'] at ho'
    obtain ⟨e, he, rfl⟩ : ∃ e ∈ log ++ [entry], e.before = m := by
      rw [← List.map_singleton, ← List.map_append] at hm
      exact List.mem_map.mp hm
    exact (hlawful.later e he id o ho).2 o' ho'

/-- A restart ends the active operations as unknown. -/
theorem RegistryHistory.restarts {log : List RegistryEntry} {m : RegistryMoment}
    (h : RegistryHistory log m) : ∀ entry ∈ log, entry.call = .restart → entry.error = none →
      ∀ {id : String} {o : RetryOperation},
        entry.before.registry.operations.lookup id = some o → o.status.isActive = true →
          ∃ o', entry.after.registry.operations.lookup id = some o' ∧ o'.status = .unknown := by
  induction h with
  | start => exact fun _ he => absurd he List.not_mem_nil
  | @step log entry hrun hentry ih =>
    intro e he hcall hok id o ho hactive
    rcases List.mem_append.mp he with he | he
    · exact ih e he hcall hok ho hactive
    · rw [List.mem_singleton.mp he] at hcall hok ho ⊢
      have hfiled := hrun.filed.1
      cases hentry.settles hfiled.file hfiled.indexed with
      | failed herror _ _ _ =>
        rw [hok] at herror
        cases herror
      | changed _ hchange _ =>
        rw [hcall] at hchange
        generalize entry.answer = answer at hchange
        cases hchange with
        | restarted hfound hvalues hindexed =>
          have hrel := lookup_restored hfound hvalues hfiled.indexed hindexed id
          rw [ho] at hrel
          generalize hafter : entry.after.registry.operations.lookup id = after at hrel ⊢
          cases hrel with
          | some hrestored =>
            cases hrestored with
            | settled hsettled =>
              rw [hactive] at hsettled
              cases hsettled
            | interrupted _ now => exact ⟨_, rfl, rfl⟩

/-- In every run with fresh identifiers at most 256 operations are stored and at most 32 active,
no session has two active ones, request keys and identifiers differ; the work of each operation is
started once; and between any two moments a stored operation only moves on, through accepted and
running to an end in which it stays. A restart ends the active ones as unknown. -/
theorem registry_limits {log : List RegistryEntry} {m : RegistryMoment}
    (h : RegistryHistory log m) (hfresh : (drawnIds log).Nodup) :
    m.registry.operations.size ≤ 256 ∧
    (m.registry.operations.values.countP fun o => o.status.isActive) ≤ 32 ∧
    (m.registry.operations.values.Pairwise fun o p => ¬ (o.status.isActive = true ∧
      p.status.isActive = true ∧ o.provider = p.provider ∧ o.sessionId = p.sessionId)) ∧
    (m.registry.operations.values.map RetryOperation.requestKey).Nodup ∧
    (m.registry.operations.values.map RetryOperation.operationId).Nodup ∧
    (startedIds log).Nodup ∧
    (∀ o ∈ m.registry.operations.values, o.operationId ∈ startedIds log) ∧
    (∀ entry ∈ log, ∀ answer ∈ entry.answer, answer.1.operationId ∈ startedIds log) ∧
    ((log.map RegistryEntry.before ++ [m]).Pairwise fun m m' => ∀ id o o',
      m.registry.operations.lookup id = some o → m'.registry.operations.lookup id = some o' →
        o.status.rank ≤ o'.status.rank ∧ (o.status.isActive = false → o' = o)) ∧
    (∀ entry ∈ log, entry.call = .restart → entry.error = none → ∀ id o,
      entry.before.registry.operations.lookup id = some o → o.status.isActive = true →
        ∃ o', entry.after.registry.operations.lookup id = some o' ∧ o'.status = .unknown) := by
  have hlawful := h.lawful hfresh
  have hlimits := hlawful.limits
  have hindexed := hlawful.filed.indexed
  refine ⟨?_, hlimits.active, hlimits.lone, hlimits.keys, hindexed.nodup, hlawful.once, ?_,
    hlawful.answered, ?_, ?_⟩
  · rw [Table.size, ← List.length_map Sigma.snd]
    exact hlimits.stored
  · exact fun o ho => hlawful.stored _ o (hindexed.lookup_mem ho)
  · refine (h.pairwise hfresh).imp fun hlater id o o' ho ho' => ?_
    have hmoved := hlater id o o' ho ho'
    exact ⟨hmoved.forward, hmoved.settled⟩
  · exact fun entry hentry hcall hok id o ho hactive =>
      h.restarts entry hentry hcall hok ho hactive

/-- More requests are served than can be stored, and one more is started before a restart. -/
theorem registry_limits_served : ∃ log m, RegistryHistory log m ∧
    (startedIds log).length = 258 ∧ m.registry.operations.size ≤ 256 ∧
    ∃ entry ∈ log, entry.call = .restart ∧
      ∃ o, entry.after.registry.operations.lookup (sampleKey 257) = some o ∧
        o.status = .unknown := by
  obtain ⟨log, m, hrun, hserved, hdrawn, hstarted⟩ := exists_served 257
  obtain ⟨accepted, haccepted, rfl, ⟨order, at₁, hopened⟩, hhandler, hdrawn₁, hstarted₁⟩ :=
    exists_accepted hserved
  obtain ⟨begun, hbegun, hbefore₂, ⟨at₂, hstored⟩, -, hdrawn₂, hstarted₂⟩ := exists_begun hhandler
  have hrun₁ := hrun.step haccepted
  rw [← hbefore₂] at hrun₁
  have hrun₂ := hrun₁.step hbegun
  obtain ⟨restarted, hrestarted, hbefore₃, hcall, hok, hdrawn₃, hstarted₃⟩ :=
    exists_restarted hrun₂.filed.1
  rw [← hbefore₃] at hrun₂
  have hdrawnAll : drawnIds (log ++ [accepted] ++ [begun] ++ [restarted]) =
      (List.range 258).map sampleKey := by
    rw [drawnIds_append, drawnIds_append, drawnIds_append, hdrawn, hdrawn₁, hdrawn₂, hdrawn₃,
      List.range_succ (n := 257), List.map_append]
    simp
  have hfresh : (drawnIds (log ++ [accepted] ++ [begun] ++ [restarted])).Nodup :=
    hdrawnAll ▸ List.nodup_range.map sampleKey_injective
  obtain ⟨hsize, _, _, _, _, _, _, _, _, hends⟩ := registry_limits (hrun₂.step hrestarted) hfresh
  have hmem : restarted ∈ log ++ [accepted] ++ [begun] ++ [restarted] :=
    List.mem_append_right _ (List.mem_singleton_self _)
  have hactive : restarted.before.registry.operations.lookup (sampleKey 257) =
      some ((RetryOperation.fresh (sampleKey 257) sampleSession (sampleKey 257) at₁).started
        at₂) := by
    rw [hbefore₃, hstored, hopened, lookup_adjust, if_pos rfl, lookup_store]
    exact congrArg (Option.map _) (if_pos rfl)
  refine ⟨_, _, hrun₂.step hrestarted, ?_, hsize, restarted, hmem, hcall,
    hends _ hmem hcall hok _ _ hactive rfl⟩
  rw [startedIds_append, startedIds_append, startedIds_append, hstarted, hstarted₁, hstarted₂,
    hstarted₃]
  simp

end Watchcat
