import Watchcat.Daemon.Retries
import Watchcat.Service.Sample

/-!
# Answers to repeated retry requests

Runs of the registry over any number of operations and restarts. What is kept
through all of them is the identity of each stored operation and that no two
stored operations share a request key; an answer given by its request key then
stays the answer for that key.
-/

namespace Watchcat

open Watchcat.Core RetryOperationRegistry

/-! ## Runs -/

/-- One operation on the registry; a reload replaces it by what the file holds. -/
inductive RegistryOp
  | accept (session : SessionRef) (requestKey : String)
  | findRequest (session : SessionRef) (requestKey : String)
  | setRunning (id : String)
  | finish (id : String) (result : Except Error ResumeReceipt)
  | reload

/-- A successful answer to a request, and whether its caller is to start the work. -/
structure RetryAnswer where
  session : SessionRef
  requestKey : String
  operation : RetryOperation
  starts : Bool

/-- An operation that was executed. -/
structure RegistryRecord where
  op : RegistryOp
  before : RetryOperationRegistry
  calls : List (Prog.Event Reply)
  answer : Option RetryAnswer := none

/-- The record is one execution of its operation and leaves the registry. -/
inductive RegistryRecord.Executes : RegistryRecord → RetryOperationRegistry → Prop
  | accepted {session : SessionRef} {requestKey : String} {r r' : RetryOperationRegistry}
      {tr : List (Prog.Event Reply)} {o : RetryOperation} {starts : Bool}
      (h : (accept session requestKey).Returns r tr (.ok (o, starts)) r') :
      Executes ⟨.accept session requestKey, r, tr, some ⟨session, requestKey, o, starts⟩⟩ r'
  | refused {session : SessionRef} {requestKey : String} {r r' : RetryOperationRegistry}
      {tr : List (Prog.Event Reply)} {e : Error}
      (h : (accept session requestKey).Returns r tr (.error e) r') :
      Executes ⟨.accept session requestKey, r, tr, none⟩ r'
  | found {session : SessionRef} {requestKey : String} {r r' : RetryOperationRegistry}
      {tr : List (Prog.Event Reply)} {o : RetryOperation}
      (h : (findRequest session requestKey).Returns r tr (.ok (some o)) r') :
      Executes ⟨.findRequest session requestKey, r, tr, some ⟨session, requestKey, o, false⟩⟩ r'
  | missed {session : SessionRef} {requestKey : String} {r r' : RetryOperationRegistry}
      {tr : List (Prog.Event Reply)} {res : Except Error (Option RetryOperation)}
      (h : (findRequest session requestKey).Returns r tr res r') (hres : ∀ o, res ≠ .ok (some o)) :
      Executes ⟨.findRequest session requestKey, r, tr, none⟩ r'
  | setRunning {id : String} {r r' : RetryOperationRegistry} {tr : List (Prog.Event Reply)}
      {res : Except Error Unit} (h : (Watchcat.setRunning id).Returns r tr res r') :
      Executes ⟨.setRunning id, r, tr, none⟩ r'
  | finish {id : String} {result : Except Error ResumeReceipt} {r r' : RetryOperationRegistry}
      {tr : List (Prog.Event Reply)} {res : Except Error (Option RetryOperation)}
      (h : (Watchcat.finish id result).Returns r tr res r') :
      Executes ⟨.finish id result, r, tr, none⟩ r'
  | reload {r r' : RetryOperationRegistry} {tr : List (Prog.Event Reply)}
      (h : loadOperations.Returns {} tr (.ok ()) r') : Executes ⟨.reload, r, tr, none⟩ r'

/-- The registry file after the calls: a write that succeeds replaces it. -/
def operationsFile (file : Option RetryOperationDocument) (tr : List (Prog.Event Reply)) :
    Option RetryOperationDocument :=
  tr.foldl (fun file e =>
    match e with
    | ⟨.writeOperations document, .ok ()⟩ => some document
    | _ => file) file

/-- What is read is the file. -/
def ReadsFile (file : Option RetryOperationDocument) (tr : List (Prog.Event Reply)) : Prop :=
  ∀ content, (⟨.readOperations, .ok content⟩ : Prog.Event Reply) ∈ tr → content = file

/-- A run of the registry from its first start, with the file it leaves. -/
inductive RegistryRun :
    List RegistryRecord → RetryOperationRegistry → Option RetryOperationDocument → Prop
  | start : RegistryRun [] {} none
  | step {log : List RegistryRecord} {record : RegistryRecord} {r r' : RetryOperationRegistry}
      {file : Option RetryOperationDocument} (hrun : RegistryRun log r file)
      (hb : record.before = r) (hx : record.Executes r') (hfile : ReadsFile file record.calls) :
      RegistryRun (log ++ [record]) r' (operationsFile file record.calls)

/-- The successful answers of a run. -/
def answers (log : List RegistryRecord) : List RetryAnswer := log.filterMap RegistryRecord.answer

/-- The identifier a call draws. -/
def drawnUuid : Prog.Event Reply → Option String
  | ⟨.newUuid, id⟩ => some id
  | _ => none

/-- The identifiers drawn in a run. -/
def uuids (log : List RegistryRecord) : List String :=
  log.flatMap fun record => record.calls.filterMap drawnUuid

/-- A request that would be answered by the active operation of another request. -/
def RegistryRecord.Aliases (record : RegistryRecord) : Prop :=
  match record.op with
  | .accept session requestKey => isBlank requestKey = false ∧
    (∀ o ∈ record.before.operations.values, o.requestKey ≠ requestKey) ∧
      ∃ o ∈ record.before.operations.values, o.status.isActive = true ∧ o.isFor session = true
  | _ => False

instance : DecidablePred RegistryRecord.Aliases
  | ⟨.accept session requestKey, before, _, _⟩ => inferInstanceAs (Decidable
      (isBlank requestKey = false ∧ (∀ o ∈ before.operations.values, o.requestKey ≠ requestKey) ∧
        ∃ o ∈ before.operations.values, o.status.isActive = true ∧ o.isFor session = true))
  | ⟨.findRequest _ _, _, _, _⟩ => inferInstanceAs (Decidable False)
  | ⟨.setRunning _, _, _, _⟩ => inferInstanceAs (Decidable False)
  | ⟨.finish _ _, _, _, _⟩ => inferInstanceAs (Decidable False)
  | ⟨.reload, _, _, _⟩ => inferInstanceAs (Decidable False)

/-! ## Identities -/

/-- The identities under which operations are stored. -/
def RetryOperationRegistry.view (r : RetryOperationRegistry) (id : String) :
    Option RetryOperation.Identity := (r.operations.lookup id).map RetryOperation.identity

/-- The identities a file holds. -/
def documentView (document : RetryOperationDocument) (id : String) :
    Option RetryOperation.Identity :=
  (document.operations.find? fun o => o.operationId == id).map RetryOperation.identity

/-- The file holds the operations of the registry. -/
def FileHolds (file : Option RetryOperationDocument) (r : RetryOperationRegistry) : Prop :=
  match file with
  | none => r.view = fun _ => none
  | some document => (document.operations.map RetryOperation.operationId).Nodup ∧
      documentView document = r.view

theorem view_adjust (r : RetryOperationRegistry) (id : String)
    {f : RetryOperation → RetryOperation} (hf : ∀ o, (f o).identity = o.identity) :
    (r.adjust id f).view = r.view := by
  funext k
  rw [view, lookup_adjust]
  split
  · rename_i hk
    subst hk
    rw [view, Option.map_map]
    cases r.operations.lookup k with
    | none => rfl
    | some o => exact congrArg some (hf o)
  · rfl

theorem indexed_adjust {r : RetryOperationRegistry}
    (hr : r.operations.Indexed RetryOperation.operationId) (id : String)
    {f : RetryOperation → RetryOperation} (hf : ∀ o, (f o).identity = o.identity) :
    (r.adjust id f).operations.Indexed RetryOperation.operationId := by
  intro k o ho
  rw [lookup_adjust] at ho
  split at ho
  · rename_i hk
    obtain ⟨p, hp, rfl⟩ := Option.map_eq_some_iff.mp ho
    have hid : (f p).operationId = p.operationId :=
      congrArg RetryOperation.Identity.operationId (hf p)
    rw [hid, hr id p hp, hk]
  · exact hr k o ho

theorem view_store (r : RetryOperationRegistry) (o : RetryOperation) :
    (r.store o).view = Function.update r.view o.operationId (some o.identity) := by
  funext k
  rw [view, store, Table.lookup_insert]
  by_cases hk : k = o.operationId
  · subst hk
    rw [if_pos rfl, Function.update_self]
    rfl
  · rw [if_neg hk, Function.update_of_ne hk]
    rfl

/-- The file a save writes holds the operations of the registry. -/
theorem fileHolds_document {r : RetryOperationRegistry}
    (hr : r.operations.Indexed RetryOperation.operationId) {order : List RetryOperation}
    (horder : order.Perm r.operations.values) : FileHolds (some (document order)) r := by
  have hperm : (document order).operations.Perm r.operations.values :=
    (List.perm_insertionSort _ order).trans horder
  have hnodup := (hperm.map RetryOperation.operationId).nodup_iff.mpr hr.nodup
  refine ⟨hnodup, ?_⟩
  funext id
  rw [documentView, view, hr.lookup_eq_find?, Table.find?_perm hperm hnodup]

/-- No two stored operations share a request key, and every stored identifier was drawn. -/
structure Assigned (r : RetryOperationRegistry) (ids : List String) : Prop where
  indexed : r.operations.Indexed RetryOperation.operationId
  keys {id id' : String} {i i' : RetryOperation.Identity} (h : r.view id = some i)
    (h' : r.view id' = some i') (hkey : i.requestKey = i'.requestKey) : id = id'
  drawn {id : String} {i : RetryOperation.Identity} (h : r.view id = some i) : id ∈ ids

namespace Assigned

variable {r r' : RetryOperationRegistry} {ids : List String}

theorem empty (ids : List String) : Assigned {} ids :=
  ⟨Table.indexed_empty _, nofun, nofun⟩

/-- Only the identities matter. -/
theorem of_view (h : Assigned r ids) (hr : r'.operations.Indexed RetryOperation.operationId)
    (hview : r'.view = r.view) (more : List String) : Assigned r' (ids ++ more) := by
  refine ⟨hr, fun h₁ h₂ => ?_, fun h₁ => ?_⟩
  · rw [hview] at h₁ h₂
    exact h.keys h₁ h₂
  · rw [hview] at h₁
    exact List.mem_append.mpr (Or.inl (h.drawn h₁))

/-- A stored operation is viewed under its identifier. -/
theorem view_mem (h : Assigned r ids) {o : RetryOperation} (ho : o ∈ r.operations.values) :
    r.view o.operationId = some o.identity := by
  rw [view, h.indexed.lookup_mem ho]
  rfl

/-- Storing an operation with a request key that no stored one has. -/
theorem store (h : Assigned r ids) {o : RetryOperation}
    (hkey : ∀ p ∈ r.operations.values, p.requestKey ≠ o.requestKey) :
    Assigned (r.store o) (ids ++ [o.operationId]) := by
  have hother : ∀ {id : String} {i : RetryOperation.Identity}, r.view id = some i →
      i.requestKey ≠ o.requestKey := by
    intro id i hi
    obtain ⟨p, hp, rfl⟩ := Option.map_eq_some_iff.mp hi
    exact hkey p (Table.mem_values.mpr ⟨id, hp⟩)
  refine ⟨h.indexed.insert o, fun {id id' i i'} h₁ h₂ hkeys => ?_, fun {id i} h₁ => ?_⟩
  · rw [view_store, Function.update_apply] at h₁ h₂
    split at h₁ <;> split at h₂
    · rename_i hid hid'
      rw [hid, hid']
    · cases h₁
      exact absurd hkeys.symm (hother h₂)
    · cases h₂
      exact absurd hkeys (hother h₁)
    · exact h.keys h₁ h₂ hkeys
  · rw [view_store, Function.update_apply] at h₁
    split at h₁
    · rename_i hid
      exact List.mem_append.mpr (Or.inr (by rw [hid]; exact List.mem_singleton.mpr rfl))
    · exact List.mem_append.mpr (Or.inl (h.drawn h₁))

end Assigned

/-! ## Steps -/

/-- The answer is the stored operation of its request key. -/
def Recorded (r : RetryOperationRegistry) (a : RetryAnswer) : Prop :=
  ∃ i, r.view a.operation.operationId = some i ∧ i.requestKey = a.requestKey

/-- What one operation keeps: the file, the assigned keys and the recorded answers. -/
structure KeepsAssigned (ids drawn : List String) (r r' : RetryOperationRegistry)
    (file file' : Option RetryOperationDocument) : Prop where
  assigned : Assigned r' (ids ++ drawn)
  filed : FileHolds file' r'
  recorded {a : RetryAnswer} (h : Recorded r a) : Recorded r' a

theorem saveRound_quiet {previous r r' : RetryOperationRegistry} {tr : List (Prog.Event Reply)}
    {res : Except Error Unit} (h : SaveRound previous r tr res r') :
    tr.filterMap drawnUuid = [] := by
  cases h <;> rfl

/-- A save writes the operations, or leaves the file and puts back the registry. -/
theorem SaveRound.kept {previous r r' : RetryOperationRegistry} {tr : List (Prog.Event Reply)}
    {res : Except Error Unit} (h : SaveRound previous r tr res r')
    (file : Option RetryOperationDocument) :
    (res = .ok () ∧ r' = r ∧ (r.operations.Indexed RetryOperation.operationId →
      FileHolds (operationsFile file tr) r')) ∨
    ((∃ e, res = .error e) ∧ r' = previous ∧ operationsFile file tr = file) := by
  cases h with
  | saved order => exact Or.inl ⟨rfl, rfl, fun hr => fileHolds_document hr order.2⟩
  | restored order e => exact Or.inr ⟨⟨e, rfl⟩, rfl, rfl⟩

theorem KeepsAssigned.refl {r : RetryOperationRegistry} {ids : List String}
    {file : Option RetryOperationDocument} (h : Assigned r ids) (hfile : FileHolds file r)
    (drawn : List String) : KeepsAssigned ids drawn r r file file :=
  ⟨h.of_view h.indexed rfl drawn, hfile, fun ha => ha⟩

/-- An update that leaves the identities keeps what is assigned. -/
theorem AdjustRound.keeps {id : String} {r r' : RetryOperationRegistry}
    {tr : List (Prog.Event Reply)} (h : AdjustRound id r tr r') {ids : List String}
    {file : Option RetryOperationDocument} (hr : Assigned r ids) (hfile : FileHolds file r) :
    KeepsAssigned ids (tr.filterMap drawnUuid) r r' file (operationsFile file tr) := by
  cases h with
  | unchanged => exact .refl hr hfile _
  | @adjusted f clock tr res _ hclock hf hsave =>
    have hquiet : operationsFile file (clock ++ tr) = operationsFile file tr := by
      rcases hclock with rfl | ⟨now, rfl⟩ <;> rfl
    have hindexed := indexed_adjust hr.indexed id hf
    rw [hquiet]
    rcases hsave.kept file with ⟨_, rfl, hheld⟩ | ⟨_, rfl, hsame⟩
    · refine ⟨hr.of_view hindexed (view_adjust r id hf) _, hheld hindexed, ?_⟩
      rintro a ⟨i, hi, hkey⟩
      exact ⟨i, by rw [view_adjust r id hf]; exact hi, hkey⟩
    · rw [hsame]
      exact .refl hr hfile _

/-- A restored operation has its identity. -/
theorem Restored.identity {o o' : RetryOperation} (h : Restored o o') :
    o'.identity = o.identity := by
  cases h <;> rfl

theorem Restored.map_identity {ops restored : List RetryOperation}
    (h : List.Forall₂ Restored ops restored) :
    restored.map RetryOperation.identity = ops.map RetryOperation.identity := by
  induction h with
  | nil => rfl
  | cons ho _ ih => rw [List.map_cons, List.map_cons, ho.identity, ih]

/-- Searching by identifier sees only the identities. -/
theorem find?_identity {ops ops' : List RetryOperation}
    (h : ops'.map RetryOperation.identity = ops.map RetryOperation.identity) (id : String) :
    (ops'.find? fun o => o.operationId == id).map RetryOperation.identity =
      (ops.find? fun o => o.operationId == id).map RetryOperation.identity := by
  have hsplit : ∀ l : List RetryOperation,
      (l.find? fun o => o.operationId == id).map RetryOperation.identity =
        (l.map RetryOperation.identity).find? fun i => i.operationId == id := fun l => by
    rw [List.find?_map]
    rfl
  rw [hsplit, hsplit, h]

theorem Restored.map_operationId {ops restored : List RetryOperation}
    (h : List.Forall₂ Restored ops restored) :
    restored.map RetryOperation.operationId = ops.map RetryOperation.operationId := by
  have hidentities := congrArg (List.map RetryOperation.Identity.operationId)
    (Restored.map_identity h)
  rw [List.map_map, List.map_map] at hidentities
  exact hidentities

theorem operations_foldl_store (l : List RetryOperation) (r : RetryOperationRegistry) :
    (l.foldl store r).operations =
      l.foldl (fun t o => t.insert o.operationId o) r.operations := by
  induction l generalizing r with
  | nil => rfl
  | cons o l ih => exact ih (r.store o)

/-- A load finds the operations of the file again. -/
theorem view_restored {document : RetryOperationDocument} {restored : List RetryOperation}
    (hnodup : (document.operations.map RetryOperation.operationId).Nodup)
    (h : List.Forall₂ Restored document.operations restored) :
    (restored.foldl store {}).operations.Indexed RetryOperation.operationId ∧
      (restored.foldl store {}).view = documentView document := by
  have hlookup : ∀ id, (restored.foldl store {}).operations.lookup id =
      restored.find? fun o => o.operationId == id := by
    intro id
    rw [operations_foldl_store, Table.lookup_foldl_insert RetryOperation.operationId
      (Restored.map_operationId h ▸ hnodup)]
    exact Option.or_none
  refine ⟨fun id o ho => ?_, ?_⟩
  · rw [hlookup] at ho
    exact (Table.find?_key ho).2
  · funext id
    rw [view, hlookup, documentView, find?_identity (Restored.map_identity h)]

/-- A load holds exactly the operations it finds. -/
theorem values_restored {document : RetryOperationDocument} {restored : List RetryOperation}
    (hnodup : (document.operations.map RetryOperation.operationId).Nodup)
    (h : List.Forall₂ Restored document.operations restored) :
    (restored.foldl store {}).operations.values.Perm restored := by
  have hvalues := Table.values_foldl_insert RetryOperation.operationId
    (Restored.map_operationId h ▸ hnodup) (t := .empty) fun o _ => Table.lookup_empty _
  have hempty : restored ++ (Table.empty : Table String RetryOperation).values = restored :=
    List.append_nil restored
  rw [hempty] at hvalues
  rw [operations_foldl_store]
  exact hvalues

theorem operationsFile_clock (file : Option RetryOperationDocument)
    {clock : List (Prog.Event Reply)} (hclock : ∀ e ∈ clock, e.1 = Call.now)
    (tr : List (Prog.Event Reply)) :
    operationsFile file (clock ++ tr) = operationsFile file tr := by
  induction clock with
  | nil => rfl
  | cons e clock ih =>
    obtain ⟨op, t⟩ := e
    obtain rfl : op = .now := hclock ⟨op, t⟩ List.mem_cons_self
    exact ih fun e he => hclock e (List.mem_cons_of_mem _ he)

/-- A load keeps what is assigned. -/
theorem LoadRound.keeps {r r' : RetryOperationRegistry} {tr : List (Prog.Event Reply)}
    (h : LoadRound tr r') {ids : List String} {file : Option RetryOperationDocument}
    (hr : Assigned r ids) (hfile : FileHolds file r) (hreads : ReadsFile file tr) :
    KeepsAssigned ids (tr.filterMap drawnUuid) r r' file (operationsFile file tr) := by
  -- The loaded registry has the identities of the file, and saving it writes them again.
  have hsaved : ∀ {mid r' : RetryOperationRegistry} {save : List (Prog.Event Reply)},
      mid.operations.Indexed RetryOperation.operationId → mid.view = r.view →
      SaveRound mid mid save (.ok ()) r' → ∀ drawn,
      KeepsAssigned ids drawn r r' file (operationsFile file save) := by
    intro mid r' save hindexed hview hsave drawn
    rcases hsave.kept file with ⟨_, rfl, hheld⟩ | ⟨⟨e, he⟩, _⟩
    · refine ⟨hr.of_view hindexed hview drawn, hheld hindexed, ?_⟩
      rintro a ⟨i, hi, hkey⟩
      exact ⟨i, by rw [hview]; exact hi, hkey⟩
    · cases he
  cases h with
  | created hsave =>
    have hnone := hreads none List.mem_cons_self
    subst hnone
    exact hsaved (Table.indexed_empty _) hfile.symm hsave _
  | @loaded document clock tr _ _ _ _ hclock hrestored heq hsave =>
    have hsome := hreads (some document) List.mem_cons_self
    subst hsome heq
    obtain ⟨hnodup, hview⟩ := hfile
    obtain ⟨hindexed, hrestored⟩ := view_restored hnodup hrestored
    have hquiet : operationsFile (some document) (⟨.readOperations, .ok (some document)⟩ ::
        (clock ++ tr)) = operationsFile (some document) tr := operationsFile_clock _ hclock tr
    rw [hquiet]
    exact hsaved hindexed (hrestored.trans hview) hsave _

/-- Accepting a request keeps what is assigned; the answer is recorded under its request key, and
work is started only for a key that no stored operation has. -/
theorem AcceptRound.keeps {session : SessionRef} {requestKey : String}
    {r r' : RetryOperationRegistry} {tr : List (Prog.Event Reply)}
    {res : Except Error (RetryOperation × Bool)} (h : AcceptRound session requestKey r tr res r')
    {ids : List String} {file : Option RetryOperationDocument} (hr : Assigned r ids)
    (hfile : FileHolds file r) (hfresh : ∀ id ∈ tr.filterMap drawnUuid, id ∉ ids)
    (hroom : r.operations.size < 256)
    (hdirect : ¬ (isBlank requestKey = false ∧
      (∀ o ∈ r.operations.values, o.requestKey ≠ requestKey) ∧
        ∃ o ∈ r.operations.values, o.status.isActive = true ∧ o.isFor session = true)) :
    KeepsAssigned ids (tr.filterMap drawnUuid) r r' file (operationsFile file tr) ∧
      ∀ o starts, res = .ok (o, starts) →
        Recorded r' ⟨session, requestKey, o, starts⟩ ∧ (starts = true →
          ∀ id i, r.view id = some i → i.requestKey ≠ requestKey) := by
  cases h with
  | refused order => exact ⟨.refl hr hfile _, fun _ _ h => by cases h⟩
  | @known order o hanswer =>
    refine ⟨.refl hr hfile _, ?_⟩
    rintro _ _ ⟨⟩
    obtain ⟨ho, hfor, hkey | ⟨hnokey, hactive⟩⟩ := admission_some hanswer
    · exact ⟨⟨_, hr.view_mem (order.2.mem_iff.mp ho), hkey⟩, fun h => by cases h⟩
    · exact absurd ⟨isBlank_of_admission hanswer, fun p hp => hnokey p (order.2.mem_iff.mpr hp),
        o, order.2.mem_iff.mp ho, hactive, hfor⟩ hdirect
  | @opened order id now tr _ hanswer hsave =>
    have hnokey : ∀ p ∈ r.operations.values, p.requestKey ≠ requestKey := fun p hp =>
      findKey_none (admission_none hanswer).1 p (order.2.mem_iff.mpr hp)
    rw [evict_of_lt hroom] at hsave
    have hstored := hr.store (o := .fresh id session requestKey now) hnokey
    have hdrawn : (⟨.operationOrder r.operations.values, order⟩ :: ⟨.newUuid, id⟩ ::
        ⟨.now, now⟩ :: tr : List (Prog.Event Reply)).filterMap drawnUuid = [id] := by
      have hquiet : id :: tr.filterMap drawnUuid = [id] := by rw [saveRound_quiet hsave]
      exact hquiet
    rw [hdrawn] at hfresh ⊢
    have hnew : id ∉ ids := hfresh id (List.mem_singleton.mpr rfl)
    rcases hsave.kept file with ⟨_, rfl, hheld⟩ | ⟨⟨e, he⟩, _⟩
    · refine ⟨⟨hstored, hheld hstored.indexed, ?_⟩, ?_⟩
      · rintro a ⟨i, hi, hkey⟩
        refine ⟨i, ?_, hkey⟩
        have hne : a.operation.operationId ≠ id := fun heq => hnew (heq ▸ hr.drawn hi)
        rw [view_store]
        exact (Function.update_of_ne hne _ _).trans hi
      · rintro _ _ ⟨⟩
        refine ⟨⟨⟨id, requestKey, session.provider, session.sessionId⟩, ?_, rfl⟩,
          fun _ id' i hi => ?_⟩
        · rw [view_store]
          exact Function.update_self _ _ _
        · obtain ⟨p, hp, rfl⟩ := Option.map_eq_some_iff.mp hi
          exact hnokey p (Table.mem_values.mpr ⟨id', hp⟩)
    · cases he
  | @unsaved order id now tr _ _ hsave =>
    refine ⟨?_, fun _ _ h => by cases h⟩
    rcases hsave.kept file with ⟨hok, _⟩ | ⟨_, rfl, hsame⟩
    · cases hok
    · have hunwritten : operationsFile file (⟨.operationOrder r'.operations.values, order⟩ ::
          ⟨.newUuid, id⟩ :: ⟨.now, now⟩ :: tr) = file := hsame
      rw [hunwritten]
      exact .refl hr hfile _

/-- What one operation of a run keeps, and what its answer is. -/
theorem RegistryRecord.Executes.keeps {record : RegistryRecord} {r' : RetryOperationRegistry}
    (h : record.Executes r') {ids : List String} {file : Option RetryOperationDocument}
    (hr : Assigned record.before ids) (hfile : FileHolds file record.before)
    (hreads : ReadsFile file record.calls)
    (hfresh : ∀ id ∈ record.calls.filterMap drawnUuid, id ∉ ids)
    (hroom : record.before.operations.size < 256) (hdirect : ¬ record.Aliases) :
    KeepsAssigned ids (record.calls.filterMap drawnUuid) record.before r' file
        (operationsFile file record.calls) ∧
      ∀ a ∈ record.answer, Recorded r' a ∧ (a.starts = true →
        ∀ id i, record.before.view id = some i → i.requestKey ≠ a.requestKey) := by
  cases h with
  | accepted h =>
    obtain ⟨hkeeps, hanswer⟩ := (accept_round h).keeps hr hfile hfresh hroom hdirect
    refine ⟨hkeeps, ?_⟩
    rintro _ ⟨⟩
    exact hanswer _ _ rfl
  | refused h =>
    exact ⟨((accept_round h).keeps hr hfile hfresh hroom hdirect).1, fun _ ha => by cases ha⟩
  | found h =>
    obtain ⟨rfl, order, rfl, hres⟩ := findRequest_round h
    refine ⟨.refl hr hfile _, ?_⟩
    rintro _ ⟨⟩
    obtain ⟨ho, hkey⟩ := findRequest_some hres.symm
    exact ⟨⟨_, hr.view_mem (order.2.mem_iff.mp ho), hkey⟩, fun hs => by cases hs⟩
  | missed h =>
    obtain ⟨rfl, order, rfl, _⟩ := findRequest_round h
    exact ⟨.refl hr hfile _, fun _ ha => by cases ha⟩
  | setRunning h => exact ⟨(setRunning_round h).keeps hr hfile, fun _ ha => by cases ha⟩
  | finish h => exact ⟨(finish_round h).keeps hr hfile, fun _ ha => by cases ha⟩
  | reload h => exact ⟨(loadOperations_round h).keeps hr hfile hreads, fun _ ha => by cases ha⟩

/-! ## The answers of a run -/

/-- Two answers for one session and request key name one operation, and at most one of them
starts it. -/
def Agree (a b : RetryAnswer) : Prop :=
  a.session = b.session → a.requestKey = b.requestKey →
    a.operation.operationId = b.operation.operationId ∧ ¬ (a.starts = true ∧ b.starts = true)

/-- Everything a run keeps. -/
structure Settled (log : List RegistryRecord) (r : RetryOperationRegistry)
    (file : Option RetryOperationDocument) : Prop where
  assigned : Assigned r (uuids log)
  filed : FileHolds file r
  recorded : ∀ a ∈ answers log, Recorded r a
  agreed : (answers log).Pairwise Agree

theorem run_settled {log : List RegistryRecord} {r : RetryOperationRegistry}
    {file : Option RetryOperationDocument} (h : RegistryRun log r file)
    (hfresh : (uuids log).Nodup) (hroom : ∀ record ∈ log, record.before.operations.size < 256)
    (hdirect : ∀ record ∈ log, ¬ record.Aliases) : Settled log r file := by
  induction h with
  | start => exact ⟨.empty _, rfl, nofun, .nil⟩
  | @step log record r r' file hrun hb hx hreads ih =>
    subst hb
    have huuids : uuids (log ++ [record]) = uuids log ++ record.calls.filterMap drawnUuid := by
      simp only [uuids, List.flatMap_append, List.flatMap_cons, List.flatMap_nil, List.append_nil]
    have hanswers : answers (log ++ [record]) = answers log ++ record.answer.toList := by
      simp only [answers, List.filterMap_append, List.filterMap_cons, List.filterMap_nil]
      cases record.answer <;> rfl
    rw [huuids, List.nodup_append] at hfresh
    have hmem : record ∈ log ++ [record] :=
      List.mem_append.mpr (Or.inr (List.mem_singleton.mpr rfl))
    have hsettled := ih hfresh.1 (fun record hr => hroom record (List.mem_append.mpr (Or.inl hr)))
      fun record hr => hdirect record (List.mem_append.mpr (Or.inl hr))
    obtain ⟨hkeeps, hanswer⟩ := hx.keeps hsettled.assigned hsettled.filed hreads
      (fun id hid hold => hfresh.2.2 id hold id hid rfl) (hroom record hmem) (hdirect record hmem)
    refine ⟨by rw [huuids]; exact hkeeps.assigned, hkeeps.filed, ?_, ?_⟩
    · rw [hanswers]
      intro a ha
      rcases List.mem_append.mp ha with ha | ha
      · exact hkeeps.recorded (hsettled.recorded a ha)
      · exact (hanswer a (Option.mem_toList.mp ha)).1
    · rw [hanswers]
      refine List.pairwise_append.mpr ⟨hsettled.agreed, ?_, ?_⟩
      · cases record.answer with
        | none => exact .nil
        | some a => exact List.pairwise_singleton _ _
      · intro a ha b hb _ hkey
        obtain ⟨⟨j, hj, hjkey⟩, hstarts⟩ := hanswer b (Option.mem_toList.mp hb)
        have hold := hsettled.recorded a ha
        obtain ⟨i, hi, hikey⟩ := hkeeps.recorded hold
        refine ⟨hkeeps.assigned.keys hi hj (hikey.trans (hkey.trans hjkey.symm)), ?_⟩
        rintro ⟨-, hb⟩
        obtain ⟨i, hi, hikey⟩ := hold
        exact hstarts hb _ i hi (hikey.trans hkey)

/-- In every run in which no request is answered by the active operation of another one, the
successful answers for a session and a request key agree. -/
theorem retry_answers_agree {log : List RegistryRecord} {r : RetryOperationRegistry}
    {file : Option RetryOperationDocument} (h : RegistryRun log r file)
    (hfresh : (uuids log).Nodup) (hroom : ∀ record ∈ log, record.before.operations.size < 256)
    (hdirect : ∀ record ∈ log, ¬ record.Aliases) :
    (answers log).Pairwise fun a b => a.session = b.session → a.requestKey = b.requestKey →
      a.operation.operationId = b.operation.operationId ∧ ¬ (a.starts = true ∧ b.starts = true) :=
  (run_settled h hfresh hroom hdirect).agreed

/-! ## A key that was answered by another key's operation -/

/-- The session of the requests. -/
def sampleSession : SessionRef := ⟨"codex", "s"⟩

/-- A request for the session, accepted where the identifier is drawn. -/
def acceptance (uuid requestKey : String) (r : RetryOperationRegistry) :
    List (Prog.Event Reply) × Except Error (RetryOperation × Bool) × RetryOperationRegistry :=
  (accept sampleSession requestKey r).execute (SampleProvider.answer { uuid := uuid })

/-- The record of an acceptance that succeeds. -/
def acceptanceRecord (uuid requestKey : String) (r : RetryOperationRegistry) : RegistryRecord where
  op := .accept sampleSession requestKey
  before := r
  calls := (acceptance uuid requestKey r).1
  answer := match (acceptance uuid requestKey r).2.1 with
    | .ok (o, starts) => some ⟨sampleSession, requestKey, o, starts⟩
    | .error _ => none

theorem acceptance_executes (uuid requestKey : String) (r : RetryOperationRegistry) :
    (acceptanceRecord uuid requestKey r).Executes (acceptance uuid requestKey r).2.2 := by
  have hr : (accept sampleSession requestKey).Returns r (acceptance uuid requestKey r).1
      (acceptance uuid requestKey r).2.1 (acceptance uuid requestKey r).2.2 :=
    Prog.execute_returns _ _
  unfold acceptanceRecord
  cases hres : (acceptance uuid requestKey r).2.1 with
  | ok answer =>
    rw [hres] at hr
    exact .accepted hr
  | error e =>
    rw [hres] at hr
    exact .refused hr

/-- Settling the operation of an identifier. -/
def settling (id : String) (r : RetryOperationRegistry) : List (Prog.Event Reply) ×
    Except Error (Option RetryOperation) × RetryOperationRegistry :=
  (finish id (.ok (sampleReceipt "r")) r).execute (SampleProvider.answer {})

/-- The record of a settled operation. -/
def settlingRecord (id : String) (r : RetryOperationRegistry) : RegistryRecord where
  op := .finish id (.ok (sampleReceipt "r"))
  before := r
  calls := (settling id r).1

theorem settling_executes (id : String) (r : RetryOperationRegistry) :
    (settlingRecord id r).Executes (settling id r).2.2 :=
  .finish (Prog.execute_returns _ _)

/-- The calls read no file. -/
def readsNothing (tr : List (Prog.Event Reply)) : Bool :=
  tr.all fun e => match e.1 with
    | .readOperations => false
    | _ => true

theorem readsFile_of_nothing {file : Option RetryOperationDocument}
    {tr : List (Prog.Event Reply)} (h : readsNothing tr = true) : ReadsFile file tr := by
  intro content hread
  have hnone := List.all_eq_true.mp h _ hread
  cases hnone

/-- The registry after the first request. -/
def openedRegistry : RetryOperationRegistry := (acceptance "o₁" "k₁" {}).2.2

/-- The registry after the work of the first request. -/
def settledRegistry : RetryOperationRegistry := (settling "o₁" openedRegistry).2.2

/-- A request is answered by the active operation of another one, and repeated after that
operation has ended. -/
def aliasedLog : List RegistryRecord :=
  [acceptanceRecord "o₁" "k₁" {}, acceptanceRecord "o₂" "k₂" openedRegistry,
    settlingRecord "o₁" openedRegistry, acceptanceRecord "o₂" "k₂" settledRegistry]

theorem aliasedLog_run : ∃ r file, RegistryRun aliasedLog r file := by
  have h₁ : RegistryRun ([] ++ [acceptanceRecord "o₁" "k₁" {}]) openedRegistry _ :=
    .step .start rfl (acceptance_executes _ _ _) (readsFile_of_nothing (by decide))
  have h₂ : RegistryRun (_ ++ [acceptanceRecord "o₂" "k₂" openedRegistry]) openedRegistry _ :=
    .step h₁ rfl (acceptance_executes _ _ _) (readsFile_of_nothing (by decide))
  have h₃ : RegistryRun (_ ++ [settlingRecord "o₁" openedRegistry]) settledRegistry _ :=
    .step h₂ rfl (settling_executes _ _) (readsFile_of_nothing (by decide))
  exact ⟨_, _, .step h₃ rfl (acceptance_executes _ _ _) (readsFile_of_nothing (by decide))⟩

/-- The repeated request names another operation and starts it. -/
theorem retry_answers_differ : ¬ ∀ (log : List RegistryRecord) (r : RetryOperationRegistry)
    (file : Option RetryOperationDocument), RegistryRun log r file → (uuids log).Nodup →
    (∀ record ∈ log, record.before.operations.size < 256) →
    (answers log).Pairwise fun a b => a.session = b.session → a.requestKey = b.requestKey →
      a.operation.operationId = b.operation.operationId ∧
        ¬ (a.starts = true ∧ b.starts = true) := by
  intro hagree
  obtain ⟨r, file, hrun⟩ := aliasedLog_run
  have hpairs := hagree aliasedLog r file hrun (by decide) (by decide)
  revert hpairs
  decide

/-- A load of the operations in a file. -/
def reloading (file : Option RetryOperationDocument) :
    List (Prog.Event Reply) × Except Error Unit × RetryOperationRegistry :=
  (loadOperations {}).execute (SampleProvider.answer { operations := file })

/-- The record of a restart with that file. -/
def reloadRecord (file : Option RetryOperationDocument) (r : RetryOperationRegistry) :
    RegistryRecord where
  op := .reload
  before := r
  calls := (reloading file).1

theorem reload_executes {file : Option RetryOperationDocument} (hok : (reloading file).2.1 = .ok ())
    (r : RetryOperationRegistry) : (reloadRecord file r).Executes (reloading file).2.2 := by
  have hr : loadOperations.Returns {} (reloading file).1 (reloading file).2.1
      (reloading file).2.2 := Prog.execute_returns _ _
  rw [hok] at hr
  exact .reload hr

theorem reloading_reads (file : Option RetryOperationDocument) :
    ReadsFile file (reloading file).1 := fun _ hread =>
  Except.ok.inj (Prog.execute_answered _ hread)

/-- A request that is repeated after its operation has ended. -/
def repeatedLog : List RegistryRecord :=
  [acceptanceRecord "o₁" "k₁" {}, settlingRecord "o₁" openedRegistry,
    acceptanceRecord "o₂" "k₁" settledRegistry]

/-- The file that these requests leave. -/
def repeatedFile : Option RetryOperationDocument :=
  repeatedLog.foldl (fun file record => operationsFile file record.calls) none

/-- The registry that is loaded from that file. -/
def reloadedRegistry : RetryOperationRegistry := (reloading repeatedFile).2.2

/-- The request is repeated once more after a restart. -/
def reloadedLog : List RegistryRecord :=
  repeatedLog ++ [reloadRecord repeatedFile settledRegistry] ++
    [acceptanceRecord "o₃" "k₁" reloadedRegistry]

theorem retry_answers_agree_repeated : (answers reloadedLog).length = 3 ∧
    (answers reloadedLog).Pairwise fun a b => a.session = b.session →
      a.requestKey = b.requestKey → a.operation.operationId = b.operation.operationId ∧
        ¬ (a.starts = true ∧ b.starts = true) := by
  have h₁ : RegistryRun ([] ++ [acceptanceRecord "o₁" "k₁" {}]) openedRegistry _ :=
    .step .start rfl (acceptance_executes _ _ _) (readsFile_of_nothing (by decide))
  have h₂ : RegistryRun (_ ++ [settlingRecord "o₁" openedRegistry]) settledRegistry _ :=
    .step h₁ rfl (settling_executes _ _) (readsFile_of_nothing (by decide))
  have h₃ : RegistryRun (_ ++ [acceptanceRecord "o₂" "k₁" settledRegistry]) settledRegistry
      repeatedFile := .step h₂ rfl (acceptance_executes _ _ _) (readsFile_of_nothing (by decide))
  have h₄ : RegistryRun (_ ++ [reloadRecord repeatedFile settledRegistry]) reloadedRegistry _ :=
    .step h₃ rfl (reload_executes rfl _) (reloading_reads _)
  have h₅ : RegistryRun reloadedLog (acceptance "o₃" "k₁" reloadedRegistry).2.2 _ :=
    .step h₄ rfl (acceptance_executes _ _ _) (readsFile_of_nothing (by decide))
  exact ⟨by decide, retry_answers_agree h₅ (by decide) (by decide) (by decide)⟩

end Watchcat
