import Watchcat.Providers.CodexErrors

/-!
# Error classification and the status of another entry

A structured error is mapped to a registered condition, and to another one than
the unknown failure only by a known code. The HTTP status of a failed connection
is searched for in every entry of the error information, so it is the one of the
connection's entry exactly as long as no entry before it has another.
-/

namespace Watchcat

/-! ## Codes -/

/-- One of the codes of the protocol. -/
def IsKnownCode (code : String) : Prop := code ∈ knownErrorCodes.map Prod.fst

instance : DecidablePred IsKnownCode := fun code =>
  inferInstanceAs (Decidable (code ∈ knownErrorCodes.map Prod.fst))

/-- The error information is a known code, or an object with exactly one key that is one. -/
def ReportsKnownCode : Option Value → Prop
  | some (.str code) => IsKnownCode code
  | some (.obj fields) => fields.countP (fun field => decide (IsKnownCode field.1)) = 1
  | _ => False

/-- An unknown code, and only that, has no canonical name. -/
theorem canonicalErrorCode_eq_other {code : String} :
    canonicalErrorCode code = "Other" ↔ ¬ IsKnownCode code := by
  constructor
  · intro h hknown
    have hnames : ∀ key ∈ knownErrorCodes.map Prod.fst, canonicalErrorCode key ≠ "Other" := by
      decide
    exact hnames code hknown h
  · intro hunknown
    have hnone : knownErrorCodes.lookup code = none := by
      rw [List.lookup_eq_none_iff]
      intro entry hentry
      have hne : code ≠ entry.1 := fun heq => hunknown (heq ▸ List.mem_map_of_mem hentry)
      simpa using hne
    rw [canonicalErrorCode, hnone, Option.getD_none]

/-- Only one code names the failed HTTP connection. -/
theorem canonicalErrorCode_eq_httpConnectionFailed {code : String}
    (h : canonicalErrorCode code = "HttpConnectionFailed") : code = "httpConnectionFailed" := by
  have hnames : ∀ key ∈ knownErrorCodes.map Prod.fst,
      canonicalErrorCode key = "HttpConnectionFailed" → key = "httpConnectionFailed" := by decide
  refine hnames code (not_not.mp fun hunknown => ?_) h
  rw [canonicalErrorCode_eq_other.mpr hunknown] at h
  exact absurd h (by decide)

/-- The fields whose keys are known codes. -/
def knownFields (fields : List (String × Value)) : List (String × Value) :=
  fields.filter fun field => decide (IsKnownCode field.1)

/-- An object has the code of its only field with a known one. -/
theorem codexErrorCode_obj (fields : List (String × Value)) :
    codexErrorCode (some (.obj fields)) = match knownFields fields with
      | [field] => canonicalErrorCode field.1
      | _ => "Other" := by
  have hcodes : (fields.map fun field => canonicalErrorCode field.1).filter (· ≠ "Other") =
      (knownFields fields).map fun field => canonicalErrorCode field.1 := by
    rw [List.filter_map, knownFields]
    congr 2
    funext field
    simp [canonicalErrorCode_eq_other]
  rw [codexErrorCode]
  simp only [hcodes]
  rcases knownFields fields with _ | ⟨field, _ | ⟨field', rest⟩⟩ <;> rfl

/-- An object with the code of a failed HTTP connection has one field with a known code, the
connection's. -/
theorem knownFields_of_httpConnectionFailed {fields : List (String × Value)}
    (h : codexErrorCode (some (.obj fields)) = "HttpConnectionFailed") :
    ∃ before v after, fields = before ++ ("httpConnectionFailed", v) :: after ∧
      (∀ field ∈ before, ¬ IsKnownCode field.1) ∧ ∀ field ∈ after, ¬ IsKnownCode field.1 := by
  rw [codexErrorCode_obj] at h
  rcases hknown : knownFields fields with _ | ⟨⟨key, v⟩, _ | ⟨field', rest⟩⟩
  · rw [hknown] at h
    exact absurd h (by decide)
  · rw [hknown] at h
    obtain rfl := canonicalErrorCode_eq_httpConnectionFailed h
    obtain ⟨before, after, rfl, hbefore, -, hafter⟩ := List.filter_eq_cons_iff.mp hknown
    refine ⟨before, v, after, rfl, fun field hfield => by simpa using hbefore field hfield, ?_⟩
    simpa using List.filter_eq_nil_iff.mp hafter
  · rw [hknown] at h
    have hother : "Other" = "HttpConnectionFailed" := h
    exact absurd hother (by decide)

/-- The connection's entry is the only one with its key. -/
theorem get_httpConnectionFailed {before after : List (String × Value)} {v : Value}
    (hbefore : ∀ field ∈ before, ¬ IsKnownCode field.1) :
    (Value.obj (before ++ ("httpConnectionFailed", v) :: after)).get "httpConnectionFailed" =
      some v := by
  have hnone : before.find? (fun field => field.1 == "httpConnectionFailed") = none := by
    rw [List.find?_eq_none]
    intro field hfield heq
    exact hbefore field hfield (eq_of_beq heq ▸ by decide)
  rw [Value.get, List.find?_append, hnone, Option.none_or]
  simp

/-! ## Conditions -/

theorem isKnown_httpConnectionCondition (status : Option Nat) :
    isKnown (httpConnectionCondition status).1 = true := by
  unfold httpConnectionCondition
  split <;> first | decide | (split <;> [decide; (split <;> decide)])

/-- Every code has a registered condition. -/
theorem isKnown_codeCondition (code : String) (status : Option Nat) :
    isKnown (codeCondition code status).1 = true := by
  unfold codeCondition
  split <;> first | decide | exact isKnown_httpConnectionCondition status

/-- Without a code the failure is unknown. -/
theorem codeCondition_other (status : Option Nat) :
    codeCondition "Other" status = ("failure.unknown", none) := by
  simp [codeCondition]

/-- The status of the object itself, or of the connection's entry. -/
def connectionStatus : Option Value → Option Nat
  | some (.obj fields) => (Value.obj fields).httpStatusCode.or
      (((Value.obj fields).get "httpConnectionFailed").bind Value.httpStatusCode)
  | _ => none

/-- The entry of the object that `http_status` takes its status from, where the object has no status
itself. -/
def statusEntry : Option Value → Option (String × Value)
  | some (.obj fields) =>
    if (Value.obj fields).httpStatusCode.isSome then none
    else fields.find? fun field => field.2.httpStatusCode.isSome
  | _ => none

/-- What classifying an error promises. -/
structure FailsClosed (error : Value) : Prop where
  registered : isKnown (classifyCodexError error).condition = true
  known : (classifyCodexError error).condition ≠ "failure.unknown" →
    ReportsKnownCode (error.get "codexErrorInfo")
  status : codexErrorCode (error.get "codexErrorInfo") = "HttpConnectionFailed" →
    (classifyCodexError error).condition =
        (httpConnectionCondition (httpStatus (error.get "codexErrorInfo"))).1 ∧
      httpStatus (error.get "codexErrorInfo") = connectionStatus (error.get "codexErrorInfo")
  entry : codexErrorCode (error.get "codexErrorInfo") = "HttpConnectionFailed" →
    ∀ field, statusEntry (error.get "codexErrorInfo") = some field →
      field.1 = "httpConnectionFailed"

/-- The first entry with a status, where the object has none itself, is the connection's. -/
def StatusFromConnection (info : Option Value) : Prop :=
  ∀ fields, info = some (.obj fields) → codexErrorCode info = "HttpConnectionFailed" →
    (Value.obj fields).httpStatusCode = none →
      ∀ before key v after, fields = before ++ (key, v) :: after →
        (∀ field ∈ before, field.2.httpStatusCode = none) → v.httpStatusCode ≠ none →
          key = "httpConnectionFailed"

/-! ## Where the status comes from -/

theorem findSome?_eq_find?_bind {α β : Type} (f : α → Option β) (l : List α) :
    l.findSome? f = (l.find? fun a => (f a).isSome).bind f := by
  induction l with
  | nil => rfl
  | cons a l ih =>
    rw [List.findSome?_cons, List.find?_cons]
    cases ha : f a with
    | none => exact ih
    | some b => exact ha.symm

/-- The status is the object's own or that of the entry found. -/
theorem httpStatus_eq (fields : List (String × Value)) :
    httpStatus (some (.obj fields)) = (Value.obj fields).httpStatusCode.or
      ((statusEntry (some (.obj fields))).bind fun field => field.2.httpStatusCode) := by
  rw [httpStatus, statusEntry]
  cases (Value.obj fields).httpStatusCode with
  | some status => rfl
  | none => exact findSome?_eq_find?_bind _ fields

theorem statusEntry_eq_some {fields : List (String × Value)} {field : String × Value} :
    statusEntry (some (.obj fields)) = some field ↔ (Value.obj fields).httpStatusCode = none ∧
      ∃ before after, fields = before ++ field :: after ∧
        (∀ field' ∈ before, field'.2.httpStatusCode = none) ∧
        field.2.httpStatusCode ≠ none := by
  rw [statusEntry]
  cases (Value.obj fields).httpStatusCode with
  | some status => simp
  | none =>
    simp only [Option.isSome_none, Bool.false_eq_true, if_false, true_and,
      List.find?_eq_some_iff_append, Option.isSome_iff_ne_none, Bool.not_eq_true',
      Option.isSome_eq_false_iff, Option.isNone_iff_eq_none]
    constructor
    · rintro ⟨hfound, before, after, rfl, hbefore⟩
      exact ⟨before, after, rfl, hbefore, hfound⟩
    · rintro ⟨before, after, rfl, hbefore, hfound⟩
      exact ⟨hfound, before, after, rfl, hbefore⟩

/-- The condition on an error, read at the entry found. -/
theorem statusFromConnection_iff {info : Option Value} :
    StatusFromConnection info ↔ (codexErrorCode info = "HttpConnectionFailed" →
      ∀ field, statusEntry info = some field → field.1 = "httpConnectionFailed") := by
  constructor
  · intro h hcode field hfield
    match info with
    | none | some .null | some (.bool _) | some (.int _) | some (.float _) | some (.arr _)
    | some (.str _) => cases hfield
    | some (.obj fields) =>
      obtain ⟨hown, before, after, rfl, hbefore, hfound⟩ := statusEntry_eq_some.mp hfield
      exact h _ rfl hcode hown before field.1 field.2 after rfl hbefore hfound
  · rintro h fields rfl hcode hown before key v after rfl hbefore hfound
    exact h hcode (key, v) (statusEntry_eq_some.mpr ⟨hown, before, after, rfl, hbefore, hfound⟩)

/-- An entry that is found under the connection's key is the connection's. -/
theorem get_of_mem_httpConnectionFailed {fields : List (String × Value)} {v : Value}
    (hcode : codexErrorCode (some (.obj fields)) = "HttpConnectionFailed")
    (hmem : ("httpConnectionFailed", v) ∈ fields) :
    (Value.obj fields).get "httpConnectionFailed" = some v := by
  obtain ⟨front, w, back, rfl, hfront, hback⟩ := knownFields_of_httpConnectionFailed hcode
  have hcodeKnown : IsKnownCode "httpConnectionFailed" := by decide
  rw [get_httpConnectionFailed hfront]
  rcases List.mem_append.mp hmem with hmem | hmem
  · exact absurd hcodeKnown (hfront _ hmem)
  · rcases List.mem_cons.mp hmem with heq | hmem
    · rw [(Prod.mk.inj heq).2]
    · exact absurd hcodeKnown (hback _ hmem)

/-- A status that comes from the connection is the one of the object or of the connection's
entry. -/
theorem httpStatus_eq_connectionStatus {info : Option Value}
    (hcode : codexErrorCode info = "HttpConnectionFailed") (hfrom : StatusFromConnection info) :
    httpStatus info = connectionStatus info := by
  match info with
  | none | some .null | some (.bool _) | some (.int _) | some (.float _) | some (.arr _)
  | some (.str _) => rfl
  | some (.obj fields) =>
    rw [httpStatus_eq, connectionStatus]
    cases hown : (Value.obj fields).httpStatusCode with
    | some status => rfl
    | none =>
      rw [Option.none_or, Option.none_or]
      cases hentry : statusEntry (some (.obj fields)) with
      | some field =>
        obtain ⟨_, before, after, hfields, _⟩ := statusEntry_eq_some.mp hentry
        have hkey := statusFromConnection_iff.mp hfrom hcode field hentry
        have hmem : ("httpConnectionFailed", field.2) ∈ fields := by
          rw [hfields, ← hkey]
          exact List.mem_append_right _ List.mem_cons_self
        rw [get_of_mem_httpConnectionFailed hcode hmem]
        rfl
      | none =>
        -- no entry has a status, so neither has the connection's
        have hnone : ∀ field ∈ fields, field.2.httpStatusCode = none := by
          rw [statusEntry, hown] at hentry
          simpa using hentry
        refine (Option.bind_eq_none_iff.mpr fun v hv => ?_).symm
        rw [Value.get] at hv
        obtain ⟨field, hfind, rfl⟩ := Option.map_eq_some_iff.mp hv
        exact hnone field (List.mem_of_find?_eq_some hfind)

/-! ## Failing closed -/

/-- Only a known code stands for a known condition. -/
theorem reportsKnownCode_of_ne_other {info : Option Value} (h : codexErrorCode info ≠ "Other") :
    ReportsKnownCode info := by
  match info with
  | none | some .null | some (.bool _) | some (.int _) | some (.float _) | some (.arr _) =>
    exact absurd rfl h
  | some (.str code) =>
    exact not_not.mp fun hunknown => h (canonicalErrorCode_eq_other.mpr hunknown)
  | some (.obj fields) =>
    rw [codexErrorCode_obj] at h
    rw [ReportsKnownCode, List.countP_eq_length_filter, ← knownFields]
    rcases hknown : knownFields fields with _ | ⟨field, _ | ⟨field', rest⟩⟩
    · rw [hknown] at h
      exact absurd rfl h
    · rfl
    · rw [hknown] at h
      exact absurd rfl h

/-- Classifying an error fails closed exactly if the status comes from the connection. -/
theorem failsClosed_iff (error : Value) :
    FailsClosed error ↔ StatusFromConnection (error.get "codexErrorInfo") := by
  have hregistered : isKnown (classifyCodexError error).condition = true :=
    isKnown_codeCondition _ _
  have hknown : (classifyCodexError error).condition ≠ "failure.unknown" →
      ReportsKnownCode (error.get "codexErrorInfo") := by
    intro hcondition
    refine reportsKnownCode_of_ne_other fun hother => hcondition ?_
    have hcode := codeCondition_other (httpStatus (error.get "codexErrorInfo"))
    rw [classifyCodexError]
    dsimp only
    rw [hother, hcode]
  have hstatus (hcode : codexErrorCode (error.get "codexErrorInfo") = "HttpConnectionFailed") :
      (classifyCodexError error).condition =
        (httpConnectionCondition (httpStatus (error.get "codexErrorInfo"))).1 := by
    rw [classifyCodexError]
    dsimp only
    rw [hcode]
    rfl
  constructor
  · exact fun h => statusFromConnection_iff.mpr h.entry
  · intro hfrom
    exact ⟨hregistered, hknown,
      fun hcode => ⟨hstatus hcode, httpStatus_eq_connectionStatus hcode hfrom⟩,
      statusFromConnection_iff.mp hfrom⟩

/-! ## Added entries -/

/-- The fields without those whose keys were added. -/
def withoutAdded (added : String → Bool) (fields : List (String × Value)) :
    List (String × Value) := fields.filter fun field => !added field.1

/-- The keys are neither known codes nor that of the status. -/
def AddsNothingKnown (added : String → Bool) : Prop :=
  ∀ key, added key = true → ¬ IsKnownCode key ∧ key ≠ "httpStatusCode"

variable {added : String → Bool}

theorem codexErrorCode_withoutAdded (hadded : AddsNothingKnown added)
    (fields : List (String × Value)) :
    codexErrorCode (some (.obj (withoutAdded added fields))) =
      codexErrorCode (some (.obj fields)) := by
  have hknown : knownFields (withoutAdded added fields) = knownFields fields := by
    rw [knownFields, withoutAdded, List.filter_filter, knownFields]
    refine List.filter_congr fun field _ => ?_
    cases hkey : added field.1 with
    | false => simp
    | true => simp [(hadded field.1 hkey).1]
  rw [codexErrorCode_obj, hknown, codexErrorCode_obj]

theorem get_withoutAdded {key : String} (hkey : added key = false)
    (fields : List (String × Value)) :
    (Value.obj (withoutAdded added fields)).get key = (Value.obj fields).get key := by
  rw [Value.get, Value.get, withoutAdded, List.find?_filter]
  congr 2
  funext field
  by_cases heq : field.1 = key
  · simp [heq, hkey]
  · simp [heq]

theorem connectionStatus_withoutAdded (hadded : AddsNothingKnown added)
    (fields : List (String × Value)) :
    connectionStatus (some (.obj (withoutAdded added fields))) =
      connectionStatus (some (.obj fields)) := by
  have hstatus : added "httpStatusCode" = false :=
    Bool.eq_false_iff.mpr fun h => (hadded _ h).2 rfl
  have hconnection : added "httpConnectionFailed" = false :=
    Bool.eq_false_iff.mpr fun h => (hadded _ h).1 (by decide)
  rw [connectionStatus, connectionStatus, Value.httpStatusCode, get_withoutAdded hstatus,
    get_withoutAdded hconnection, Value.httpStatusCode]

/-- Only for a failed HTTP connection does the status matter. -/
theorem codeCondition_eq_of_ne {code : String} (h : code ≠ "HttpConnectionFailed")
    (status status' : Option Nat) : codeCondition code status = codeCondition code status' := by
  unfold codeCondition
  split <;> first | rfl | exact absurd rfl h

/-- A status that comes from the connection does so without the added entries. -/
theorem StatusFromConnection.withoutAdded (hadded : AddsNothingKnown added)
    {fields : List (String × Value)} (h : StatusFromConnection (some (.obj fields))) :
    StatusFromConnection (some (.obj (withoutAdded added fields))) := by
  have hstatus : added "httpStatusCode" = false :=
    Bool.eq_false_iff.mpr fun h => (hadded _ h).2 rfl
  have hconnection : added "httpConnectionFailed" = false :=
    Bool.eq_false_iff.mpr fun h => (hadded _ h).1 (by decide)
  rw [statusFromConnection_iff, codexErrorCode_withoutAdded hadded]
  intro hcode field hfield
  obtain ⟨hown, before, after, hfields, hbefore, hfound⟩ := statusEntry_eq_some.mp hfield
  rw [Value.httpStatusCode, get_withoutAdded hstatus, ← Value.httpStatusCode] at hown
  have hmem : field ∈ fields := List.mem_of_mem_filter
    (hfields ▸ List.mem_append_right before List.mem_cons_self)
  cases hentry : statusEntry (some (.obj fields)) with
  | none =>
    rw [statusEntry, hown] at hentry
    have hnone : ∀ field ∈ fields, field.2.httpStatusCode = none := by simpa using hentry
    exact absurd (hnone field hmem) hfound
  | some first =>
    have hkey := statusFromConnection_iff.mp h hcode first hentry
    obtain ⟨_, front, back, rfl, hfront, hfirst⟩ := statusEntry_eq_some.mp hentry
    -- the first entry with a status is kept, and nothing before it has one
    have hkept : Watchcat.withoutAdded added (front ++ first :: back) =
        Watchcat.withoutAdded added front ++ first :: Watchcat.withoutAdded added back := by
      rw [Watchcat.withoutAdded, List.filter_append, List.filter_cons_of_pos]
      · rfl
      · rw [hkey, hconnection, Bool.not_false]
    have hagain : statusEntry (some (.obj (Watchcat.withoutAdded added (front ++ first :: back)))) =
        some first := by
      refine statusEntry_eq_some.mpr ⟨?_, _, _, hkept, fun field' hfield' => ?_, hfirst⟩
      · rwa [Value.httpStatusCode, get_withoutAdded hstatus, ← Value.httpStatusCode]
      · exact hfront field' (List.mem_of_mem_filter hfield')
    rw [hfield] at hagain
    exact Option.some.inj hagain ▸ hkey

/-- Entries with unknown keys do not change the condition, as long as the status comes from the
connection with them. -/
theorem condition_withoutAdded (hadded : AddsNothingKnown added) {error error' : Value}
    {fields : List (String × Value)}
    (hinfo : error.get "codexErrorInfo" = some (.obj (withoutAdded added fields)))
    (hinfo' : error'.get "codexErrorInfo" = some (.obj fields))
    (hfrom' : StatusFromConnection (error'.get "codexErrorInfo")) :
    (classifyCodexError error').condition = (classifyCodexError error).condition := by
  have hcode := codexErrorCode_withoutAdded hadded fields
  have hfrom : StatusFromConnection (error.get "codexErrorInfo") := by
    rw [hinfo]
    exact (hinfo' ▸ hfrom').withoutAdded hadded
  by_cases hconnection : codexErrorCode (some (.obj fields)) = "HttpConnectionFailed"
  · obtain ⟨hleft, hleft'⟩ :=
      ((failsClosed_iff error').mpr hfrom').status (by rw [hinfo', hconnection])
    obtain ⟨hright, hright'⟩ :=
      ((failsClosed_iff error).mpr hfrom).status (by rw [hinfo, hcode, hconnection])
    rw [hleft, hleft', hright, hright', hinfo, hinfo', connectionStatus_withoutAdded hadded]
  · rw [classifyCodexError, classifyCodexError]
    dsimp only
    rw [hinfo, hinfo', hcode]
    exact congrArg Prod.fst (codeCondition_eq_of_ne hconnection _ _)

/-- The error information of a refused connection. -/
def refusedFields : List (String × Value) :=
  [("httpConnectionFailed", .obj [("httpStatusCode", .int 401)])]

/-- An entry of an unknown key with a status of its own. -/
def limitedField (key : String) : String × Value := (key, .obj [("httpStatusCode", .int 429)])

end Watchcat
