import Watchcat.Base.Clock
import Watchcat.OsPermissions.Accessibility

/-!
# The inspection of a window

A window is walked depth first for its text and its enabled buttons. The walk is
bounded: by the handles it has visited, its depth, its text and its time. A rule
and a button are chosen only where both are unambiguous.
-/

namespace Watchcat

open Watchcat.Core Desktop

variable {σ : Type}

/-- `MatchedButton`. -/
structure MatchedButton where
  button : Element
  signature : String
  rule : String
  label : String
  deriving DecidableEq, Repr

/-- What the walk has found so far. -/
structure Inspection where
  text : String := ""
  heading : Option String := none
  buttons : List (Element × String) := []
  visited : List Nat := []

/-- A read whose failure has the given reason. -/
def readOr {α : Type} (reason : String) (m : Desktop σ AxError α) : Desktop σ String α :=
  Act.mapError (fun _ => reason) m

/-- An enabled button is noted with its label. -/
def inspectButton (element : Element) (seen : Inspection) : Desktop σ String Inspection := do
  let title ← readOr "cannot read button title" (string element "AXTitle")
  let label ← if title.isEmpty then
      readOr "cannot read button label" (string element "AXDescription")
    else pure title
  match ← perform (.attribute element "AXEnabled") with
  | .error _ => Act.fail "cannot read button state"
  | .ok (.boolean enabled) =>
    if enabled then return { seen with buttons := seen.buttons ++ [(element, label)] }
    else return seen
  | .ok _ => Act.fail "invalid button state"

/-- A text is added, and is the heading if it is the first one. -/
def inspectText (element : Element) (seen : Inspection) : Desktop σ String Inspection := do
  let value ← readOr "cannot read dialog text" (string element "AXValue")
  let value ← if isBlank value then
      readOr "cannot read dialog text" (string element "AXTitle")
    else pure value
  if isBlank value then return seen
  else return { seen with
    heading := some (seen.heading.getD value)
    text := seen.text ++ value ++ "\n" }

/-- What an element is by its role. -/
def inspectElement (element : Element) (seen : Inspection) : Desktop σ String Inspection := do
  let role ← readOr "cannot read element role" (string element "AXRole")
  if role = "AXTextField" || role = "AXTextArea" then
    Act.fail "window contains editable or credential fields"
  else
    let seen ← if role = "AXButton" then inspectButton element seen
      else if role = "AXStaticText" || role = "AXHeading" then inspectText element seen
      else pure seen
    if 16384 < seen.text.utf8ByteSize then Act.fail "window text exceeds inspection limit"
    else return seen

/-- The children of an element; an element may have none. -/
def childrenOf (element : Element) : Desktop σ String (List Element) := do
  match ← Act.attempt (elements element "AXChildren") with
  | .ok children => return children
  | .error .attributeUnsupported => return []
  | .error .noValue => return []
  | .error _ => Act.fail "cannot read complete window tree"

/-- The walk has used up its budget. -/
def overBudget (deadline : Int) (seen : Inspection) (depth : Nat) : Desktop σ String Bool := do
  if 256 ≤ seen.visited.length || 20 < depth then return true
  else return deadline ≤ (← perform .now)

/-- Take elements off the stack up to the first one whose handle is new. -/
def popUnvisited (deadline : Int) (seen : Inspection)
    (visit : Element → Nat → List (Element × Nat) → Desktop σ String Inspection) :
    List (Element × Nat) → Desktop σ String Inspection
  | [] => return seen
  | (element, depth) :: stack => do
    if !(← perform .readPermit) then Act.fail "monitor stopped"
    else if ← overBudget deadline seen depth then Act.fail "window inspection budget exceeded"
    else if seen.visited.contains element.address then popUnvisited deadline seen visit stack
    else visit element depth stack

/-- The loop of `matching_button`; the count is what is left of the 256 handles, so that the walk
is over its budget where it is zero. -/
def walkWindow (deadline : Int) :
    Nat → Inspection → List (Element × Nat) → Desktop σ String Inspection
  | 0, seen, stack => popUnvisited deadline seen (fun _ _ _ => Act.ret seen) stack
  | n + 1, seen, stack =>
    popUnvisited deadline seen (fun element depth stack => do
      let seen ← inspectElement element { seen with visited := element.address :: seen.visited }
      let children ← childrenOf element
      walkWindow deadline n seen ((children.map fun child => (child, depth + 1)) ++ stack)) stack

/-- The button of the one rule that matches. -/
def chooseButton [Lowercase] (rules : DialogSettings) (identity : String × String) (title : String)
    (seen : Inspection) : Except String MatchedButton :=
  match rules.matching identity.1 identity.2 title (seen.heading.getD "") with
  | [] => .error "no enabled rule matches this window"
  | [(rule, selectors)] =>
    match seen.buttons.filter fun entry =>
        if rule = directoryRule then isAllowButton entry.2
        else selectors.button == some entry.2 with
    | [(button, label)] =>
      .ok ⟨button, title ++ "\n" ++ seen.text ++ "\n" ++ label, rule, label⟩
    | _ => .error "expected exactly one enabled matching button"
  | _ => .error "multiple rules match; make selectors more specific"

/-- `matching_button`. -/
def matchingButton [Lowercase] (window : Element) (rules : DialogSettings)
    (identity : String × String) : Desktop σ String MatchedButton := do
  let title ← readOr "cannot read window title" (string window "AXTitle")
  let deadline := (← perform .now) + seconds 1
  let seen ← walkWindow deadline 256 {} [(window, 0)]
  Act.ofExcept (chooseButton rules identity title seen)

end Watchcat
