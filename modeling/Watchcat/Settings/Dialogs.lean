import Watchcat.Base.Error
import Watchcat.Base.Text
import Watchcat.Core.Table
import Mathlib.Data.List.Sort

/-!
# Dialog rules

The configured window rules and their validation. Maps keyed by name are walked
in name order, so the first invalid rule is the one reported.
-/

namespace Watchcat

open Watchcat.Core

/-- `DIRECTORY_RULE`: the built-in rule. -/
def directoryRule : String := "directory-access"

/-- One window rule. -/
structure DialogRule where
  enabled : Bool := true
  app : Option String := none
  title : Option String := none
  text : Option String := none
  button : Option String := none
  deriving DecidableEq, Repr

/-- The configured window rules by name. -/
structure DialogSettings where
  rules : Table String DialogRule := Table.empty.insert directoryRule {}

/-- The entries of a map in key order. -/
def inKeyOrder {β : Type} (t : Table String β) : List (String × β) :=
  (t.entries.map fun e => (e.1, e.2)).insertionSort fun a b => a.1 ≤ b.1

/-- The entries are walked each once. -/
theorem mem_inKeyOrder {β : Type} {t : Table String β} {k : String} {b : β} :
    (k, b) ∈ inKeyOrder t ↔ t.lookup k = some b := by
  rw [inKeyOrder, List.mem_insertionSort, List.mem_map]
  constructor
  · rintro ⟨⟨k', b'⟩, he, heq⟩
    obtain ⟨rfl, rfl⟩ := Prod.mk.inj heq
    exact AList.mem_lookup_iff.mpr he
  · intro h
    exact ⟨⟨k, b⟩, AList.mem_lookup_iff.mp h, rfl⟩

/-- The match values of a rule must be nonempty single-line texts of bounded size. -/
def DialogRule.valueInvalid (value : String) : Bool :=
  isBlank value || value.utf8ByteSize > 512 || value.toList.any isControl

/-- `app` must be an absolute path or look like an exact bundle identifier. -/
def DialogRule.appInvalid (app : String) : Bool :=
  !startsWithChar app '/' && (!containsAny app ['.'] || containsAny app ['*', '?', ' '])

/-- The checks of one named rule, in the order the source makes them. -/
def DialogRule.validate (name : String) (rule : DialogRule) : Except Error Unit :=
  if name.isEmpty || name.utf8ByteSize > 80 ||
      !name.toList.all fun c => c.isAlphanum || ['-', '_', '.'].contains c then
    .error (.message ("invalid dialog rule name: " ++ name))
  else if [rule.app, rule.title, rule.text, rule.button].any fun value =>
      value.any DialogRule.valueInvalid then
    .error (.message ("dialog rule " ++ name ++
      " requires nonempty, single-line match values (up to 512 bytes)"))
  else if name = directoryRule then
    if rule.app.isSome || rule.title.isSome || rule.text.isSome || rule.button.isSome then
      .error (.message "directory-access is built in; only enabled can be changed")
    else .ok ()
  else if rule.app.isNone || rule.button.isNone || (rule.title.isNone && rule.text.isNone) then
    .error (.message ("dialog rule " ++ name ++ " requires app, button, and title or text"))
  else if rule.app.any DialogRule.appInvalid then
    .error (.message ("dialog rule " ++ name ++
      ": app must be an exact bundle ID or absolute executable path"))
  else .ok ()

/-- `DialogSettings::validate`. -/
def DialogSettings.validate (s : DialogSettings) : Except Error Unit :=
  if s.rules.size > 100 then .error (.message "at most 100 dialog rules are supported")
  else (inKeyOrder s.rules).forM fun entry => entry.2.validate entry.1

end Watchcat
