import Watchcat.Base.Clock
import Watchcat.Base.Error
import Watchcat.Settings.Conditions

/-!
# JSON values

Parsed JSON as the source's accessors see it, and the decoding of records from
it. Integers outside the machine ranges and fractions are floats, which no
record here accepts.
-/

namespace Watchcat

/-- `serde_json::Value`. -/
inductive Value
  | null
  | bool (b : Bool)
  | int (n : Int)
  | float (text : String)
  | str (text : String)
  | arr (items : List Value)
  | obj (fields : List (String × Value))

namespace Value

/-- `value.get(key)` for a text key: the member of an object. -/
def get (key : String) : Value → Option Value
  | obj fields => (fields.find? fun field => field.1 == key).map Prod.snd
  | _ => none

/-- `Value::as_str`. -/
def asStr : Value → Option String
  | str text => some text
  | _ => none

/-- `Value::as_bool`. -/
def asBool : Value → Option Bool
  | bool b => some b
  | _ => none

/-- `Value::as_u64`. -/
def asU64 : Value → Option Nat
  | int n => if 0 ≤ n ∧ n.toNat ≤ u64Max then some n.toNat else none
  | _ => none

/-- `Value::as_i64`. -/
def asI64 : Value → Option Int
  | int n => if -(i64Max : Int) - 1 ≤ n ∧ n ≤ i64Max then some n else none
  | _ => none

/-- `Value::as_array`. -/
def asArray : Value → Option (List Value)
  | arr items => some items
  | _ => none

/-- Whether the value is an object. -/
def isObject : Value → Bool
  | obj _ => true
  | _ => false

/-- `value.pointer("/a/b")` for names, which never index an array. -/
def pointer : List String → Value → Option Value
  | [], v => some v
  | key :: keys, v => (v.get key).bind (pointer keys)

/-- How the decoder names a value it did not expect. -/
def unexpected : Value → String
  | null => "null"
  | bool b => "boolean `" ++ toString b ++ "`"
  | int n => "integer `" ++ toString n ++ "`"
  | float text => "floating point `" ++ text ++ "`"
  | str text => "string \"" ++ text ++ "\""
  | arr _ => "sequence"
  | obj _ => "map"

/-! ## Decoding -/

/-- A value of the wrong type. -/
def invalidType (expected : String) (v : Value) : Error :=
  .message ("invalid type: " ++ v.unexpected ++ ", expected " ++ expected)

/-- A value that is no number of a type: an integer is outside its range. -/
def invalidNumber (expected : String) : Value → Error
  | int n => .message ("invalid value: " ++ (int n).unexpected ++ ", expected " ++ expected)
  | v => v.invalidType expected

/-- A text. -/
def decodeString (v : Value) : Except Error String :=
  match v.asStr with
  | some text => .ok text
  | none => .error (v.invalidType "a string")

/-- A truth value. -/
def decodeBool (v : Value) : Except Error Bool :=
  match v.asBool with
  | some b => .ok b
  | none => .error (v.invalidType "a boolean")

/-- An unsigned 64-bit number of the type with that name. -/
def decodeUnsigned (expected : String) (v : Value) : Except Error Nat :=
  match v.asU64 with
  | some n => .ok n
  | none => .error (v.invalidNumber expected)

/-- A `u64`. -/
def decodeU64 : Value → Except Error Nat := decodeUnsigned "u64"

/-- A `usize`. -/
def decodeUsize : Value → Except Error Nat := decodeUnsigned "usize"

/-- A signed 64-bit number. -/
def decodeI64 (v : Value) : Except Error Int :=
  match v.asI64 with
  | some n => .ok n
  | none => .error (v.invalidNumber "i64")

/-- An optional value; `null` is absence. -/
def decodeOption {α : Type} (decode : Value → Except Error α) : Value → Except Error (Option α)
  | null => .ok none
  | v => (decode v).map some

/-- The members of a record; a sequence lists them in their declared order. -/
def decodeFields (record : String) (names : List String) :
    Value → Except Error (List (String × Value))
  | obj fields => .ok fields
  | arr items =>
    if items.length ≤ names.length then .ok (names.zip items)
    else .error (.message ("invalid length " ++ toString items.length ++
      ", expected fewer elements in array"))
  | v => .error (v.invalidType ("struct " ++ record))

/-- The listing of the known members of a record. -/
def oneOf : List String → String
  | [a] => "`" ++ a ++ "`"
  | [a, b] => "`" ++ a ++ "` or `" ++ b ++ "`"
  | names => "one of " ++ String.intercalate ", " (names.map fun name => "`" ++ name ++ "`")

/-- The members of a record that refuses unknown ones. -/
def decodeKnownFields (record : String) (names : List String) (v : Value) :
    Except Error (List (String × Value)) := do
  let fields ← decodeFields record names v
  match fields.find? fun field => !names.contains field.1 with
  | some field =>
    .error (.message ("unknown field `" ++ field.1 ++ "`, expected " ++ oneOf names))
  | none => .ok fields

/-- A required member of an object. -/
def required {α : Type} (fields : List (String × Value)) (name : String)
    (decode : Value → Except Error α) : Except Error α :=
  match (obj fields).get name with
  | some v => decode v
  | none => .error (.message ("missing field `" ++ name ++ "`"))

/-- A required member of a record with these members: a sequence misses an element. -/
def requiredOf {α : Type} (record : String) (names : List String) (v : Value)
    (fields : List (String × Value)) (name : String) (decode : Value → Except Error α) :
    Except Error α :=
  match (obj fields).get name with
  | some member => decode member
  | none =>
    if v.isObject then .error (.message ("missing field `" ++ name ++ "`"))
    else .error (.message ("invalid length " ++ toString (names.idxOf name) ++
      ", expected struct " ++ record ++ " with " ++ toString names.length ++ " elements"))

/-- A member with a default. -/
def defaulted {α : Type} (fields : List (String × Value)) (name : String) (default : α)
    (decode : Value → Except Error α) : Except Error α :=
  match (obj fields).get name with
  | some v => decode v
  | none => .ok default

/-- An enumeration by the names of its variants. -/
def decodeVariant {α : Type} (variants : List (String × α)) (v : Value) : Except Error α := do
  let text ← v.decodeString
  match variants.find? fun entry => entry.1 == text with
  | some entry => .ok entry.2
  | none => .error (.message ("unknown variant `" ++ text ++ "`, expected " ++
      oneOf (variants.map Prod.fst)))

/-- `PolicyAction` by name. -/
def decodePolicyAction : Value → Except Error PolicyAction :=
  decodeVariant [("retry", .retry), ("skip", .skip)]

/-- `BackoffKind` by name. -/
def decodeBackoffKind : Value → Except Error BackoffKind :=
  decodeVariant [("fixed", .fixed), ("exponential", .exponential)]

end Value

end Watchcat
