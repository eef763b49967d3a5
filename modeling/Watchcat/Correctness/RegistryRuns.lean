import Watchcat.State.RetryLedger
import Watchcat.Correctness.Idempotence

/-!
# The registry and its callers

Each operation has one caller: the handler that opened it, which may withdraw it
again, and then the task that starts and ends it. A run interleaves the callers of
any number of operations with restarts. Every call leaves the registry and its file
as they were, or makes one change to both.
-/

namespace Watchcat

open Watchcat.Core RetryOperationRegistry

/-! ## Runs -/

/-- A call of the registry. -/
inductive RegistryCall
  | accept (session : SessionRef) (requestKey : String)
  | setRunning (id : String)
  | finish (id : String) (result : Except Error ResumeReceipt)
  | rollback (id : String)
  | restart

/-- How far the caller of an operation has come: its handler has not yet answered, or its task is
at work. -/
inductive RetryCaller
  | handler
  | task
  deriving DecidableEq, Repr

/-- The registry in memory, its file, and the callers that are left. -/
structure RegistryMoment where
  registry : RetryOperationRegistry := {}
  file : Option RetryOperationDocument := none
  callers : String → Option RetryCaller := fun _ => none

/-- A call with what was before and after it. -/
structure RegistryEntry where
  call : RegistryCall
  before : RegistryMoment
  calls : List (Prog.Event Reply)
  answer : Option (RetryOperation × Bool) := none
  error : Option Error := none
  after : RegistryMoment

/-- The error of a result. -/
def failure {α : Type} : Except Error α → Option Error
  | .ok _ => none
  | .error e => some e

/-- The callers after an answer of `accept`: the handler that is to start the work is one. -/
def RegistryMoment.admitted (m : RegistryMoment) (answer : RetryOperation × Bool) :
    String → Option RetryCaller :=
  if answer.2 then Function.update m.callers answer.1.operationId (some .handler) else m.callers

/-- The entry is one call by a caller that may make it. A task may end an operation that it has
not started. A restart leaves no callers, and if it fails there is nothing but the file. -/
inductive RegistryEntry.Happens : RegistryEntry → Prop
  | accepted {m : RegistryMoment} {session : SessionRef} {requestKey : String}
      {tr : List (Prog.Event Reply)} {answer : RetryOperation × Bool}
      {r' : RetryOperationRegistry}
      (h : (accept session requestKey).Returns m.registry tr (.ok answer) r') :
      Happens ⟨.accept session requestKey, m, tr, some answer, none,
        ⟨r', operationsFile m.file tr, m.admitted answer⟩⟩
  | refused {m : RegistryMoment} {session : SessionRef} {requestKey : String}
      {tr : List (Prog.Event Reply)} {e : Error} {r' : RetryOperationRegistry}
      (h : (accept session requestKey).Returns m.registry tr (.error e) r') :
      Happens ⟨.accept session requestKey, m, tr, none, some e,
        ⟨r', operationsFile m.file tr, m.callers⟩⟩
  | begun {m : RegistryMoment} {id : String} {tr : List (Prog.Event Reply)}
      {res : Except Error Unit} {r' : RetryOperationRegistry}
      (hcaller : m.callers id = some .handler)
      (h : (setRunning id).Returns m.registry tr res r') :
      Happens ⟨.setRunning id, m, tr, none, failure res,
        ⟨r', operationsFile m.file tr, Function.update m.callers id (some .task)⟩⟩
  | ended {m : RegistryMoment} {id : String} {result : Except Error ResumeReceipt}
      {tr : List (Prog.Event Reply)} {res : Except Error (Option RetryOperation)}
      {r' : RetryOperationRegistry} (hcaller : m.callers id ≠ none)
      (h : (finish id result).Returns m.registry tr res r') :
      Happens ⟨.finish id result, m, tr, none, failure res,
        ⟨r', operationsFile m.file tr, Function.update m.callers id none⟩⟩
  | withdrawn {m : RegistryMoment} {id : String} {tr : List (Prog.Event Reply)}
      {res : Except Error Unit} {r' : RetryOperationRegistry}
      (hcaller : m.callers id = some .handler)
      (h : (rollback id).Returns m.registry tr res r') :
      Happens ⟨.rollback id, m, tr, none, failure res,
        ⟨r', operationsFile m.file tr, Function.update m.callers id none⟩⟩
  | restarted {m : RegistryMoment} {tr : List (Prog.Event Reply)} {r' : RetryOperationRegistry}
      (h : loadOperations.Returns {} tr (.ok ()) r') (hreads : ReadsFile m.file tr) :
      Happens ⟨.restart, m, tr, none, none, ⟨r', operationsFile m.file tr, fun _ => none⟩⟩
  | stopped {m : RegistryMoment} {tr : List (Prog.Event Reply)} {e : Error}
      {r' : RetryOperationRegistry} (h : loadOperations.Returns {} tr (.error e) r')
      (hreads : ReadsFile m.file tr) :
      Happens ⟨.restart, m, tr, none, some e,
        ⟨m.registry, operationsFile m.file tr, fun _ => none⟩⟩

/-- A run from an empty registry. -/
inductive RegistryHistory : List RegistryEntry → RegistryMoment → Prop
  | start : RegistryHistory [] {}
  | step {log : List RegistryEntry} {entry : RegistryEntry}
      (h : RegistryHistory log entry.before) (hentry : entry.Happens) :
      RegistryHistory (log ++ [entry]) entry.after

/-- The identifiers drawn in a run. -/
def drawnIds (log : List RegistryEntry) : List String :=
  log.flatMap fun entry => entry.calls.filterMap drawnUuid

/-- The operations whose work callers were told to start. -/
def startedIds (log : List RegistryEntry) : List String :=
  log.filterMap fun entry => entry.answer.bind fun answer =>
    if answer.2 then some answer.1.operationId else none

theorem drawnIds_append (log : List RegistryEntry) (entry : RegistryEntry) :
    drawnIds (log ++ [entry]) = drawnIds log ++ entry.calls.filterMap drawnUuid := by
  simp only [drawnIds, List.flatMap_append, List.flatMap_cons, List.flatMap_nil, List.append_nil]

theorem startedIds_append (log : List RegistryEntry) (entry : RegistryEntry) :
    startedIds (log ++ [entry]) = startedIds log ++ startedIds [entry] :=
  List.filterMap_append

/-! ## Changes -/

/-- The file is a document of the operations of the registry. -/
def FileMatches (file : Option RetryOperationDocument) (r : RetryOperationRegistry) : Prop :=
  match file with
  | none => r.operations.values = []
  | some document => document.version = 1 ∧ document.operations.Perm r.operations.values

/-- What a call that succeeds makes of the registry. -/
inductive RegistryChange (r : RetryOperationRegistry) (tr : List (Prog.Event Reply)) :
    RegistryCall → Option (RetryOperation × Bool) → RetryOperationRegistry → Prop
  | known {session : SessionRef} {requestKey : String} {o : RetryOperation}
      (ho : o ∈ r.operations.values) :
      RegistryChange r tr (.accept session requestKey) (some (o, false)) r
  | opened {session : SessionRef} {requestKey : String} {order : List RetryOperation}
      {id : String} {now : Int} (horder : order.Perm r.operations.values)
      (hdue : admission order session requestKey = .ok none)
      (hdrawn : tr.filterMap drawnUuid = [id]) :
      RegistryChange r tr (.accept session requestKey)
        (some (.fresh id session requestKey now, true))
        ((evict order r).store (.fresh id session requestKey now))
  | begun {id : String} (now : Int) :
      RegistryChange r tr (.setRunning id) none (r.adjust id fun o => o.started now)
  | absent {id : String} {result : Except Error ResumeReceipt}
      (hnone : r.operations.lookup id = none) : RegistryChange r tr (.finish id result) none r
  | ended {id : String} {result : Except Error ResumeReceipt} (now : Int) :
      RegistryChange r tr (.finish id result) none (r.adjust id fun o => o.ended result now)
  | withdrawn {id : String} : RegistryChange r tr (.rollback id) none (r.discard id)
  | restarted {found : List RetryOperation} {r' : RetryOperationRegistry}
      (hfound : List.Forall₂ Restored r.operations.values found)
      (hvalues : r'.operations.values.Perm found)
      (hindexed : r'.operations.Indexed RetryOperation.operationId) :
      RegistryChange r tr .restart none r'

/-- A call that fails leaves the registry and the file, one that succeeds changes both. -/
inductive RegistryEntry.Settles (entry : RegistryEntry) : Prop
  | failed {e : Error} (herror : entry.error = some e) (hanswer : entry.answer = none)
      (hregistry : entry.after.registry = entry.before.registry)
      (hfile : entry.after.file = entry.before.file)
  | changed (herror : entry.error = none)
      (hchange : RegistryChange entry.before.registry entry.calls entry.call entry.answer
        entry.after.registry)
      (hfile : FileMatches entry.after.file entry.after.registry)

theorem fileMatches_document {r : RetryOperationRegistry} {order : List RetryOperation}
    (horder : order.Perm r.operations.values) : FileMatches (some (document order)) r :=
  ⟨rfl, (List.perm_insertionSort _ order).trans horder⟩

/-- A save writes the operations, or puts back the registry. -/
theorem SaveRound.settles {previous r r' : RetryOperationRegistry}
    {tr : List (Prog.Event Reply)} {res : Except Error Unit} (h : SaveRound previous r tr res r')
    (file : Option RetryOperationDocument) :
    (res = .ok () ∧ r' = r ∧ FileMatches (operationsFile file tr) r') ∨
    ((∃ e, res = .error e) ∧ r' = previous ∧ operationsFile file tr = file) := by
  cases h with
  | saved order => exact Or.inl ⟨rfl, rfl, fileMatches_document order.2⟩
  | restored order e => exact Or.inr ⟨⟨e, rfl⟩, rfl, rfl⟩

/-- A load finds the operations of the registry whose file it reads. -/
theorem LoadRound.change {r r' : RetryOperationRegistry} {tr : List (Prog.Event Reply)}
    (h : LoadRound tr r') {file : Option RetryOperationDocument} (hfile : FileMatches file r)
    (hr : r.operations.Indexed RetryOperation.operationId) (hreads : ReadsFile file tr) :
    RegistryChange r tr .restart none r' ∧ FileMatches (operationsFile file tr) r' := by
  cases h with
  | created hsave =>
    have hnone := hreads none List.mem_cons_self
    subst hnone
    rcases hsave.settles none with ⟨_, rfl, hmatches⟩ | ⟨⟨e, he⟩, _⟩
    · have hempty : r.operations.values = [] := hfile
      have hfound : List.Forall₂ Restored r.operations.values [] := by
        rw [hempty]
        exact .nil
      exact ⟨.restarted hfound (List.Perm.refl _) (Table.indexed_empty _), hmatches⟩
    · cases he
  | @loaded document clock save restored _ _ _ hclock hrestored heq hsave =>
    have hsome := hreads (some document) List.mem_cons_self
    subst hsome heq
    obtain ⟨_, hperm⟩ := hfile
    have hquiet : operationsFile (some document) (⟨.readOperations, .ok (some document)⟩ ::
        (clock ++ save)) = operationsFile (some document) save :=
      operationsFile_clock _ hclock save
    have hnodup : (document.operations.map RetryOperation.operationId).Nodup :=
      (hperm.map _).nodup_iff.mpr hr.nodup
    -- the operations of the file, in the order of the registry
    obtain ⟨found, hfound, hsame⟩ := List.perm_comp_forall₂ hperm.symm hrestored
    rcases hsave.settles (some document) with ⟨_, rfl, hmatches⟩ | ⟨⟨e, he⟩, _⟩
    · refine ⟨.restarted hfound ?_ (view_restored hnodup hrestored).1, hquiet ▸ hmatches⟩
      exact (values_restored hnodup hrestored).trans hsame.symm
    · cases he

/-- A load that fails writes nothing. -/
theorem LoadFailure.unwritten {tr : List (Prog.Event Reply)} (h : LoadFailure tr)
    (file : Option RetryOperationDocument) : operationsFile file tr = file := by
  cases h with
  | unread => rfl
  | unsupported _ => rfl
  | @unsaved content clock save r r' e hclock hsave =>
    have hquiet : operationsFile file (⟨.readOperations, .ok content⟩ :: (clock ++ save)) =
        operationsFile file save := operationsFile_clock file hclock save
    rw [hquiet]
    rcases hsave.settles file with ⟨hok, _⟩ | ⟨_, _, hsame⟩
    · cases hok
    · exact hsame

theorem AcceptRound.settles {session : SessionRef} {requestKey : String}
    {r r' : RetryOperationRegistry} {tr : List (Prog.Event Reply)}
    {res : Except Error (RetryOperation × Bool)} (h : AcceptRound session requestKey r tr res r')
    {file : Option RetryOperationDocument} (hfile : FileMatches file r) :
    (∃ answer, res = .ok answer ∧
      RegistryChange r tr (.accept session requestKey) (some answer) r' ∧
        FileMatches (operationsFile file tr) r') ∨
    ((∃ e, res = .error e) ∧ r' = r ∧ operationsFile file tr = file) := by
  cases h with
  | refused _ => exact Or.inr ⟨⟨_, rfl⟩, rfl, rfl⟩
  | @known order o hanswer =>
    have ho := order.2.mem_iff.mp (admission_some hanswer).1
    exact Or.inl ⟨_, rfl, .known ho, hfile⟩
  | @opened order id now save _ hanswer hsave =>
    have hdrawn : (⟨.operationOrder r.operations.values, order⟩ :: ⟨.newUuid, id⟩ ::
        ⟨.now, now⟩ :: save : List (Prog.Event Reply)).filterMap drawnUuid = [id] := by
      have hquiet : id :: save.filterMap drawnUuid = [id] := by rw [saveRound_quiet hsave]
      exact hquiet
    rcases hsave.settles file with ⟨_, rfl, hmatches⟩ | ⟨⟨e, he⟩, _⟩
    · exact Or.inl ⟨_, rfl, .opened order.2 hanswer hdrawn, hmatches⟩
    · cases he
  | @unsaved order id now save e _ hsave =>
    rcases hsave.settles file with ⟨hok, _⟩ | ⟨_, rfl, hsame⟩
    · cases hok
    · exact Or.inr ⟨⟨e, rfl⟩, rfl, hsame⟩

/-- Every call of a run fails and leaves the registry and the file, or changes both. -/
theorem RegistryEntry.Happens.settles {entry : RegistryEntry} (h : entry.Happens)
    (hfile : FileMatches entry.before.file entry.before.registry)
    (hr : entry.before.registry.operations.Indexed RetryOperation.operationId) :
    entry.Settles := by
  cases h with
  | accepted h =>
    rcases (accept_round h).settles hfile with ⟨answer, ⟨⟩, hchange, hmatches⟩ | ⟨⟨e, he⟩, _⟩
    · exact .changed rfl hchange hmatches
    · cases he
  | refused h =>
    rcases (accept_round h).settles hfile with ⟨answer, he, _⟩ | ⟨_, hregistry, hsame⟩
    · cases he
    · exact .failed rfl rfl hregistry hsame
  | @begun m id tr res r' hcaller h =>
    obtain ⟨now, clock, save, rfl, hclock, hsave⟩ := setRunning_saves h
    have hquiet : operationsFile m.file (clock ++ save) = operationsFile m.file save := by
      rcases hclock with rfl | rfl <;> rfl
    rcases hsave.settles m.file with ⟨rfl, rfl, hmatches⟩ | ⟨⟨e, rfl⟩, hregistry, hsame⟩
    · exact .changed rfl (.begun now) (hquiet ▸ hmatches)
    · exact .failed rfl rfl hregistry (hquiet.trans hsame)
  | @ended m id result tr res r' hcaller h =>
    rcases finish_saves h with ⟨hnone, rfl, rfl, rfl⟩ | ⟨now, save, o, saved, rfl, rfl, hsave⟩
    · exact .changed rfl (.absent hnone) hfile
    · rcases hsave.settles m.file with ⟨rfl, rfl, hmatches⟩ | ⟨⟨e, rfl⟩, hregistry, hsame⟩
      · exact .changed rfl (.ended now) hmatches
      · exact .failed rfl rfl hregistry hsame
  | @withdrawn m id tr res r' hcaller h =>
    rcases (rollback_saves h).settles m.file with
      ⟨rfl, rfl, hmatches⟩ | ⟨⟨e, rfl⟩, hregistry, hsame⟩
    · exact .changed rfl .withdrawn hmatches
    · exact .failed rfl rfl hregistry hsame
  | restarted h hreads =>
    obtain ⟨hchange, hmatches⟩ := (loadOperations_round h).change hfile hr hreads
    exact .changed rfl hchange hmatches
  | @stopped m tr e r' h hreads =>
    rcases loadOperations_cases h with ⟨he, _⟩ | ⟨_, hfailure⟩
    · cases he
    · exact .failed rfl rfl rfl (hfailure.unwritten m.file)

/-! ## What a change keeps -/

/-- A value of an updated registry is the updated one, or one of before. -/
theorem lookup_adjust_cases {r : RetryOperationRegistry} {id k : String}
    {f : RetryOperation → RetryOperation} {o' : RetryOperation}
    (h : (r.adjust id f).operations.lookup k = some o') :
    (k = id ∧ ∃ o, r.operations.lookup k = some o ∧ o' = f o) ∨
      (k ≠ id ∧ r.operations.lookup k = some o') := by
  rw [lookup_adjust] at h
  split at h
  · rename_i hk
    subst hk
    obtain ⟨o, ho, rfl⟩ := Option.map_eq_some_iff.mp h
    exact Or.inl ⟨rfl, o, ho, rfl⟩
  · rename_i hk
    exact Or.inr ⟨hk, h⟩

theorem RegistryChange.indexed {r r' : RetryOperationRegistry} {tr : List (Prog.Event Reply)}
    {call : RegistryCall} {answer : Option (RetryOperation × Bool)}
    (h : RegistryChange r tr call answer r')
    (hr : r.operations.Indexed RetryOperation.operationId) :
    r'.operations.Indexed RetryOperation.operationId := by
  cases h with
  | known _ => exact hr
  | opened horder _ _ =>
    rcases evict_cases horder hr with heq | ⟨o, _, _, heq⟩
    · rw [heq]
      exact hr.insert _
    · rw [heq]
      exact (hr.erase _).insert _
  | begun now => exact indexed_adjust hr _ fun o => o.started_identity now
  | absent _ => exact hr
  | @ended _ result now => exact indexed_adjust hr _ fun o => o.ended_identity result now
  | withdrawn => exact hr.erase _
  | restarted _ _ hindexed => exact hindexed

/-- Searching by identifier finds an operation exactly where it was before a restart. -/
theorem find?_restored {ops found : List RetryOperation} (h : List.Forall₂ Restored ops found)
    (id : String) : Option.Rel Restored (ops.find? fun o => o.operationId == id)
      (found.find? fun o => o.operationId == id) := by
  induction h with
  | nil => exact .none
  | @cons o o' _ _ ho _ ih =>
    have hid : o'.operationId = o.operationId :=
      congrArg RetryOperation.Identity.operationId ho.identity
    rw [List.find?_cons, List.find?_cons, hid]
    split
    · exact .some ho
    · exact ih

/-- A restart finds every operation again under its identifier, and no other. -/
theorem lookup_restored {r r' : RetryOperationRegistry} {found : List RetryOperation}
    (hfound : List.Forall₂ Restored r.operations.values found)
    (hvalues : r'.operations.values.Perm found)
    (hr : r.operations.Indexed RetryOperation.operationId)
    (hr' : r'.operations.Indexed RetryOperation.operationId) (id : String) :
    Option.Rel Restored (r.operations.lookup id) (r'.operations.lookup id) := by
  rw [hr.lookup_eq_find?, hr'.lookup_eq_find?, Table.find?_perm hvalues hr'.nodup]
  exact find?_restored hfound id

/-! ## What every run keeps -/

/-- The registry is indexed, and the file holds its operations. -/
structure RegistryMoment.Filed (m : RegistryMoment) : Prop where
  indexed : m.registry.operations.Indexed RetryOperation.operationId
  file : FileMatches m.file m.registry

theorem RegistryEntry.Settles.filed {entry : RegistryEntry} (h : entry.Settles)
    (hm : entry.before.Filed) : entry.after.Filed := by
  cases h with
  | failed _ _ hregistry hfile =>
    refine ⟨?_, ?_⟩
    · rw [hregistry]
      exact hm.indexed
    · rw [hregistry, hfile]
      exact hm.file
  | changed _ hchange hfile => exact ⟨hchange.indexed hm.indexed, hfile⟩

/-- Every moment of a run is filed, and every call of it settles. -/
theorem RegistryHistory.filed {log : List RegistryEntry} {m : RegistryMoment}
    (h : RegistryHistory log m) : m.Filed ∧ ∀ entry ∈ log, entry.Settles := by
  induction h with
  | start => exact ⟨⟨Table.indexed_empty _, rfl⟩, fun _ he => absurd he List.not_mem_nil⟩
  | @step log entry _ hentry ih =>
    obtain ⟨hm, hlog⟩ := ih
    have hsettles := hentry.settles hm.file hm.indexed
    refine ⟨hsettles.filed hm, fun e he => ?_⟩
    rcases List.mem_append.mp he with he | he
    · exact hlog e he
    · rw [List.mem_singleton.mp he]
      exact hsettles

/-! ## A run of one call -/

/-- A request that is accepted on an empty registry. -/
def openingEntry : RegistryEntry where
  call := .accept sampleSession "k₁"
  before := {}
  calls := (acceptance "o₁" "k₁" {}).1
  answer := some (.fresh "o₁" sampleSession "k₁" 0, true)
  after := ⟨openedRegistry, operationsFile none (acceptance "o₁" "k₁" {}).1,
    RegistryMoment.admitted {} (.fresh "o₁" sampleSession "k₁" 0, true)⟩

theorem openingEntry_history : RegistryHistory [openingEntry] openingEntry.after := by
  have hhappens : openingEntry.Happens := .accepted (Prog.execute_returns _ _)
  have hrun : RegistryHistory ([] ++ [openingEntry]) openingEntry.after := .step .start hhappens
  exact hrun

/-! ## Requests served one after another -/

/-- A save that is answered with success. -/
theorem SaveRound.of_answered {previous r r' : RetryOperationRegistry}
    {tr : List (Prog.Event Reply)} {res : Except Error Unit} (h : SaveRound previous r tr res r')
    {provider : SampleProvider} (htr : ∀ e ∈ tr, e.2 = provider.answer e.1) :
    res = .ok () ∧ r' = r := by
  cases h with
  | saved order => exact ⟨rfl, rfl⟩
  | restored order e =>
    have hwritten := htr _ (List.mem_cons_of_mem _ (List.mem_singleton_self _))
    cases hwritten

/-- A request that is due is accepted, under the identifier that is drawn. -/
theorem acceptance_opens {uuid requestKey : String} {r : RetryOperationRegistry}
    (hdue : ∀ order : Arrangement r.operations.values,
      admission order.1 sampleSession requestKey = .ok none) :
    ∃ (order : Arrangement r.operations.values) (now : Int),
      (acceptance uuid requestKey r).2 = (.ok (.fresh uuid sampleSession requestKey now, true),
        (evict order.1 r).store (.fresh uuid sampleSession requestKey now)) ∧
      (acceptance uuid requestKey r).1.filterMap drawnUuid = [uuid] := by
  have hround : AcceptRound sampleSession requestKey r (acceptance uuid requestKey r).1
      (acceptance uuid requestKey r).2.1 (acceptance uuid requestKey r).2.2 :=
    accept_round (Prog.execute_returns _ _)
  have hanswered : ∀ e ∈ (acceptance uuid requestKey r).1,
      e.2 = SampleProvider.answer { uuid := uuid } e.1 := Prog.execute_answered
  generalize acceptance uuid requestKey r = run at hround hanswered
  obtain ⟨tr, res, r'⟩ := run
  dsimp only at hround hanswered ⊢
  cases hround with
  | @refused order _ hrefused =>
    rw [hdue order] at hrefused
    cases hrefused
  | @known order _ hanswer =>
    rw [hdue order] at hanswer
    cases hanswer
  | @opened order id now save _ _ hsave =>
    have hid : id = uuid :=
      hanswered ⟨.newUuid, id⟩ (List.mem_cons_of_mem _ List.mem_cons_self)
    have hdrawn : id :: save.filterMap drawnUuid = [uuid] := by rw [saveRound_quiet hsave, hid]
    obtain ⟨_, rfl⟩ := hsave.of_answered fun e he => hanswered e
      (List.mem_cons_of_mem _ (List.mem_cons_of_mem _ (List.mem_cons_of_mem _ he)))
    exact ⟨order, now, by rw [hid], hdrawn⟩
  | unsaved hsave =>
    obtain ⟨hok, _⟩ := hsave.of_answered fun e he => hanswered e
      (List.mem_cons_of_mem _ (List.mem_cons_of_mem _ (List.mem_cons_of_mem _ he)))
    cases hok

/-- Starting the operation of an identifier. -/
def starting (id : String) (r : RetryOperationRegistry) :
    List (Prog.Event Reply) × Except Error Unit × RetryOperationRegistry :=
  (setRunning id r).execute (SampleProvider.answer {})

theorem starting_begins (id : String) (r : RetryOperationRegistry) :
    (∃ now : Int, (starting id r).2.2 = r.adjust id fun o => o.started now) ∧
      (starting id r).1.filterMap drawnUuid = [] := by
  have hanswered : ∀ e ∈ (starting id r).1, e.2 = SampleProvider.answer {} e.1 :=
    Prog.execute_answered
  obtain ⟨now, clock, save, htr, hclock, hsave⟩ :=
    setRunning_saves (Prog.execute_returns (SampleProvider.answer {}) (setRunning id r))
  change (starting id r).1 = clock ++ save at htr
  rw [htr] at hanswered ⊢
  refine ⟨⟨now, (hsave.of_answered fun e he => hanswered e (List.mem_append_right _ he)).2⟩, ?_⟩
  rw [List.filterMap_append, saveRound_quiet hsave]
  rcases hclock with rfl | rfl <;> rfl

theorem settling_ends {id : String} {r : RetryOperationRegistry} {o : RetryOperation}
    (ho : r.operations.lookup id = some o) :
    (∃ now : Int, (settling id r).2.2 =
        r.adjust id fun o => o.ended (.ok (sampleReceipt "r")) now) ∧
      (settling id r).1.filterMap drawnUuid = [] := by
  have hanswered : ∀ e ∈ (settling id r).1, e.2 = SampleProvider.answer {} e.1 :=
    Prog.execute_answered
  rcases finish_saves (Prog.execute_returns (SampleProvider.answer {})
    (finish id (.ok (sampleReceipt "r")) r)) with ⟨hnone, _⟩ | ⟨now, save, _, _, htr, _, hsave⟩
  · rw [ho] at hnone
    cases hnone
  · change (settling id r).1 = ⟨.now, now⟩ :: save at htr
    rw [htr] at hanswered ⊢
    refine ⟨⟨now, (hsave.of_answered fun e he => hanswered e (List.mem_cons_of_mem _ he)).2⟩, ?_⟩
    have hquiet : save.filterMap drawnUuid = [] := saveRound_quiet hsave
    exact hquiet

/-- A request key for every number, which is drawn as the identifier as well. -/
def sampleKey (i : Nat) : String := String.ofList (List.replicate (i + 1) 'k')

theorem isBlank_sampleKey (i : Nat) : isBlank (sampleKey i) = false := by
  rw [isBlank, sampleKey, String.toList_ofList, List.replicate_succ, List.all_cons]
  rfl

theorem sampleKey_injective : Function.Injective sampleKey := by
  intro i j h
  have hlength := congrArg (fun text => text.toList.length) h
  simpa [sampleKey] using hlength

/-- All operations have ended, and their request keys are among the first ones. -/
def Served (n : Nat) (r : RetryOperationRegistry) : Prop :=
  ∀ id o, r.operations.lookup id = some o →
    o.status.isActive = false ∧ ∃ i < n, o.requestKey = sampleKey i

/-- The next request is due. -/
theorem Served.due {n : Nat} {r : RetryOperationRegistry} (h : Served n r)
    (order : Arrangement r.operations.values) :
    admission order.1 sampleSession (sampleKey n) = .ok none := by
  have hops : ∀ o ∈ order.1, o.status.isActive = false ∧ o.requestKey ≠ sampleKey n := by
    intro o ho
    obtain ⟨id, hlookup⟩ := Table.mem_values.mp (order.2.mem_iff.mp ho)
    obtain ⟨hended, i, hi, hkey⟩ := h id o hlookup
    exact ⟨hended, fun heq => hi.ne (sampleKey_injective (hkey.symm.trans heq))⟩
  have hkey : findKey order.1 (sampleKey n) = none :=
    List.find?_eq_none.mpr fun o ho => by simpa using (hops o ho).2
  have hactive : findActive order.1 sampleSession = none :=
    List.find?_eq_none.mpr fun o ho => by simp [(hops o ho).1]
  have hcount : (order.1.countP fun o => o.status.isActive) = 0 :=
    List.countP_eq_zero.mpr fun o ho => by simp [(hops o ho).1]
  rw [admission, isBlank_sampleKey, hkey, hactive, hcount]
  rfl

/-- A request is served: its operation is accepted, started and ended. -/
theorem Served.succ {n : Nat} {r : RetryOperationRegistry} (h : Served n r)
    (order : List RetryOperation) (accepted begun ended : Int) :
    Served (n + 1) (((((evict order r).store
      (.fresh (sampleKey n) sampleSession (sampleKey n) accepted)).adjust (sampleKey n)
        fun o => o.started begun).adjust (sampleKey n)
          fun o => o.ended (.ok (sampleReceipt "r")) ended)) := by
  intro id o ho
  rcases lookup_adjust_cases ho with ⟨rfl, o₁, ho₁, rfl⟩ | ⟨hne, ho⟩
  · refine ⟨RetryOperation.ended_settled _ _ _, n, Nat.lt_succ_self n, ?_⟩
    rcases lookup_adjust_cases ho₁ with ⟨_, o₂, ho₂, rfl⟩ | ⟨hne, _⟩
    · rw [lookup_store] at ho₂
      obtain rfl := Option.some.inj ((if_pos rfl).symm.trans ho₂)
      rfl
    · exact absurd rfl hne
  · rcases lookup_adjust_cases ho with ⟨rfl, _⟩ | ⟨_, ho⟩
    · exact absurd rfl hne
    · rw [lookup_store] at ho
      have hkept := lookup_of_evict ((if_neg hne).symm.trans ho)
      obtain ⟨hended, i, hi, hkey⟩ := h id o hkept
      exact ⟨hended, i, hi.trans (Nat.lt_succ_self n), hkey⟩

/-- The next request opens an operation for its handler. -/
theorem exists_accepted {n : Nat} {m : RegistryMoment} (h : Served n m.registry) :
    ∃ entry : RegistryEntry, entry.Happens ∧ entry.before = m ∧
      (∃ order now, entry.after.registry = (evict order m.registry).store
        (.fresh (sampleKey n) sampleSession (sampleKey n) now)) ∧
      entry.after.callers (sampleKey n) = some .handler ∧
      entry.calls.filterMap drawnUuid = [sampleKey n] ∧ startedIds [entry] = [sampleKey n] := by
  obtain ⟨order, now, hopened, hdrawn⟩ := @acceptance_opens (sampleKey n) _ _ h.due
  have hreturns : (accept sampleSession (sampleKey n)).Returns m.registry
      (acceptance (sampleKey n) (sampleKey n) m.registry).1
      (acceptance (sampleKey n) (sampleKey n) m.registry).2.1
      (acceptance (sampleKey n) (sampleKey n) m.registry).2.2 := Prog.execute_returns _ _
  rw [hopened] at hreturns
  refine ⟨_, .accepted hreturns, rfl, ⟨order.1, now, rfl⟩, ?_, hdrawn, rfl⟩
  exact Function.update_self _ _ _

/-- A handler starts its operation. -/
theorem exists_begun {m : RegistryMoment} {id : String} (hcaller : m.callers id = some .handler) :
    ∃ entry : RegistryEntry, entry.Happens ∧ entry.before = m ∧
      (∃ now : Int, entry.after.registry = m.registry.adjust id fun o => o.started now) ∧
      entry.after.callers id = some .task ∧
      entry.calls.filterMap drawnUuid = [] ∧ startedIds [entry] = [] := by
  obtain ⟨hbegun, hdrawn⟩ := starting_begins id m.registry
  refine ⟨_, .begun hcaller (Prog.execute_returns (SampleProvider.answer {}) _), rfl, hbegun, ?_,
    hdrawn, rfl⟩
  exact Function.update_self _ _ _

/-- A task ends its operation. -/
theorem exists_ended {m : RegistryMoment} {id : String} {o : RetryOperation}
    (hcaller : m.callers id ≠ none) (ho : m.registry.operations.lookup id = some o) :
    ∃ entry : RegistryEntry, entry.Happens ∧ entry.before = m ∧
      (∃ now : Int, entry.after.registry =
        m.registry.adjust id fun o => o.ended (.ok (sampleReceipt "r")) now) ∧
      entry.calls.filterMap drawnUuid = [] ∧ startedIds [entry] = [] := by
  obtain ⟨hended, hdrawn⟩ := settling_ends ho
  exact ⟨_, .ended hcaller (Prog.execute_returns (SampleProvider.answer {}) _), rfl, hended,
    hdrawn, rfl⟩

/-- A restart finds the operations of the file. -/
theorem exists_restarted {m : RegistryMoment} (hm : m.Filed) :
    ∃ entry : RegistryEntry, entry.Happens ∧ entry.before = m ∧ entry.call = .restart ∧
      entry.error = none ∧ entry.calls.filterMap drawnUuid = [] ∧ startedIds [entry] = [] := by
  have hreturns : loadOperations.Returns {} (reloading m.file).1 (reloading m.file).2.1
      (reloading m.file).2.2 := Prog.execute_returns _ _
  have hanswered : ∀ e ∈ (reloading m.file).1,
      e.2 = SampleProvider.answer { operations := m.file } e.1 := Prog.execute_answered
  generalize reloading m.file = run at hreturns hanswered
  obtain ⟨tr, res, r'⟩ := run
  dsimp only at hreturns hanswered
  have hreads : ReadsFile m.file tr := fun content hread => Except.ok.inj (hanswered _ hread)
  rcases loadOperations_cases hreturns with ⟨rfl, hround⟩ | ⟨_, hfailure⟩
  · refine ⟨_, .restarted hreturns hreads, rfl, rfl, rfl, ?_, rfl⟩
    cases hround with
    | @created save _ hsave =>
      have hquiet : save.filterMap drawnUuid = [] := saveRound_quiet hsave
      exact hquiet
    | @loaded document clock save _ _ _ _ hclock _ _ hsave =>
      have hquiet : (clock ++ save).filterMap drawnUuid = [] := by
        rw [List.filterMap_append, saveRound_quiet hsave, List.append_nil]
        refine List.filterMap_eq_nil_iff.mpr fun e he => ?_
        obtain ⟨op, answer⟩ := e
        obtain rfl : op = .now := hclock _ he
        rfl
      exact hquiet
  · cases hfailure with
    | @unread e =>
      have hread := hanswered _ (List.mem_singleton_self _)
      cases hread
    | @unsupported document hversion =>
      have hfile := hm.file
      rw [← hreads _ (List.mem_singleton_self _)] at hfile
      exact absurd hfile.1 hversion
    | @unsaved content clock save _ _ _ hclock hsave =>
      obtain ⟨hok, _⟩ := hsave.of_answered fun e he =>
        hanswered e (List.mem_cons_of_mem _ (List.mem_append_right _ he))
      cases hok

/-- Requests are served, one after another. -/
theorem exists_served (n : Nat) : ∃ log m, RegistryHistory log m ∧ Served n m.registry ∧
    drawnIds log = (List.range n).map sampleKey ∧
    startedIds log = (List.range n).map sampleKey := by
  induction n with
  | zero =>
    refine ⟨[], {}, .start, ?_, rfl, rfl⟩
    intro id o ho
    cases ho
  | succ n ih =>
    obtain ⟨log, m, hrun, hserved, hdrawn, hstarted⟩ := ih
    obtain ⟨accepted, haccepted, rfl, ⟨order, at₁, hopened⟩, hhandler, hdrawn₁, hstarted₁⟩ :=
      exists_accepted hserved
    obtain ⟨begun, hbegun, hbefore₂, ⟨at₂, hstored⟩, htask, hdrawn₂, hstarted₂⟩ :=
      exists_begun hhandler
    have hlookup : begun.after.registry.operations.lookup (sampleKey n) =
        some ((RetryOperation.fresh (sampleKey n) sampleSession (sampleKey n) at₁).started
          at₂) := by
      rw [hstored, hopened, lookup_adjust, if_pos rfl, lookup_store]
      exact congrArg (Option.map _) (if_pos rfl)
    obtain ⟨ended, hended, hbefore₃, ⟨at₃, hsettled⟩, hdrawn₃, hstarted₃⟩ :=
      exists_ended (htask ▸ Option.some_ne_none _) hlookup
    have hrun₁ := hrun.step haccepted
    rw [← hbefore₂] at hrun₁
    have hrun₂ := hrun₁.step hbegun
    rw [← hbefore₃] at hrun₂
    refine ⟨_, _, hrun₂.step hended, ?_, ?_, ?_⟩
    · rw [hsettled, hstored, hopened]
      exact hserved.succ order at₁ at₂ at₃
    · rw [drawnIds_append, drawnIds_append, drawnIds_append, hdrawn, hdrawn₁, hdrawn₂, hdrawn₃,
        List.range_succ, List.map_append]
      simp
    · rw [startedIds_append, startedIds_append, startedIds_append, hstarted, hstarted₁, hstarted₂,
        hstarted₃, List.range_succ, List.map_append]
      simp

end Watchcat
