import Watchcat.Core.Forest
import Watchcat.OsPermissions.Inspection

/-!
# The tree under a window

A window is a finite tree of elements, of which the monitor reads attributes
through handles. An inspection that succeeds is a depth-first walk over the tree,
marked by the addresses of the handles, and notes of each element it visits what
the element shows.
-/

namespace Watchcat

open Watchcat.Core Desktop

/-! ## What an element shows -/

/-- An element: its identity and the attributes it answers with. -/
structure AxNode where
  id : Nat
  attributes : String → Except AxError AxValue

/-- A window with everything in it. -/
abbrev AxTree : Type := RoseTree AxNode

/-- The text in the answer of an attribute; an attribute without a value has an empty text. -/
def textOf : Except AxError AxValue → Option String
  | .ok (.string text) => some text
  | .ok _ => some ""
  | .error .attributeUnsupported => some ""
  | .error .noValue => some ""
  | .error _ => none

namespace AxNode

/-- The text of an attribute. -/
def text (n : AxNode) (name : String) : String := (textOf (n.attributes name)).getD ""

/-- The role of the element. -/
def role (n : AxNode) : String := n.text "AXRole"

/-- The element takes text from the user. -/
def isField (n : AxNode) : Prop := n.role = "AXTextField" ∨ n.role = "AXTextArea"

/-- The label of a button. -/
def label (n : AxNode) : String :=
  if (n.text "AXTitle").isEmpty then n.text "AXDescription" else n.text "AXTitle"

/-- The element is a button that can be pressed. -/
def isEnabledButton (n : AxNode) : Bool :=
  n.role == "AXButton" && n.attributes "AXEnabled" = .ok (.boolean true)

/-- The text of a static text or a heading, where it is not blank. -/
def said (n : AxNode) : Option String :=
  if n.role = "AXStaticText" ∨ n.role = "AXHeading" then
    let value := if isBlank (n.text "AXValue") then n.text "AXTitle" else n.text "AXValue"
    if isBlank value then none else some value
  else none

end AxNode

/-- What the inspection has noted after an element that it has reached through the handle. -/
def Inspection.note (seen : Inspection) (visit : Element × AxNode) : Inspection where
  text := match visit.2.said with
    | some value => seen.text ++ value ++ "\n"
    | none => seen.text
  heading := seen.heading.or visit.2.said
  buttons :=
    if visit.2.isEnabledButton then seen.buttons ++ [(visit.1, visit.2.label)] else seen.buttons
  visited := visit.1.address :: seen.visited

/-! ## Answers of the tree -/

/-- The element fails to answer. -/
def Unanswered (answer : Except AxError AxValue) : Prop := textOf answer = none

/-- What an element may answer for an attribute: its value, handles of its children, or a
failure. -/
def AnswersFor (t : AxTree) (name : String) (answer : Except AxError AxValue) : Prop :=
  Unanswered answer ∨
    if name = "AXChildren" then
      (∃ items, answer = .ok (.array items) ∧
        (items.filterMap id).map Element.id = t.children.map fun c => c.label.id) ∨
      t.children = [] ∧ (answer = .error .attributeUnsupported ∨ answer = .error .noValue)
    else answer = t.label.attributes name

/-- Every attribute that is read is answered by the element of the tree. -/
def Shows (window : AxTree) (tr : List (Prog.Event DesktopReply)) : Prop :=
  ∀ e name answer, (⟨.attribute e name, answer⟩ : Prog.Event DesktopReply) ∈ tr →
    ∀ t ∈ window.subtrees, t.label.id = e.id → AnswersFor t name answer

/-- The handle of an element whose role is read. -/
def roleRead : Prog.Event DesktopReply → Option Element
  | ⟨.attribute e name, _⟩ => if name = "AXRole" then some e else none
  | _ => none

/-- The handles of the elements that are inspected: every inspection begins with the role. -/
def inspected (tr : List (Prog.Event DesktopReply)) : List Element := tr.filterMap roleRead

/-- The elements of an array. -/
def elementsOf : Except AxError AxValue → List Element
  | .ok (.array items) => items.filterMap id
  | _ => []

/-- The handles that an answer brings. -/
def handlesIn : Prog.Event DesktopReply → List Element
  | ⟨.attribute _ name, answer⟩ => if name = "AXChildren" then elementsOf answer else []
  | _ => []

/-- The handles that were fetched. -/
def fetched (tr : List (Prog.Event DesktopReply)) : List Element := tr.flatMap handlesIn

section

variable {window : AxTree} {tr tr' : List (Prog.Event DesktopReply)}

theorem Shows.append : Shows window (tr ++ tr') ↔ Shows window tr ∧ Shows window tr' := by
  constructor
  · exact fun h => ⟨fun e name answer hmem => h e name answer (List.mem_append_left _ hmem),
      fun e name answer hmem => h e name answer (List.mem_append_right _ hmem)⟩
  · rintro ⟨h, h'⟩ e name answer hmem
    rcases List.mem_append.mp hmem with hmem | hmem
    · exact h e name answer hmem
    · exact h' e name answer hmem

@[simp] theorem inspected_append : inspected (tr ++ tr') = inspected tr ++ inspected tr' :=
  List.filterMap_append

@[simp] theorem fetched_append : fetched (tr ++ tr') = fetched tr ++ fetched tr' :=
  List.flatMap_append

end

/-! ## Reads of one element -/

section Reads

variable {σ : Type} {s s' : σ} {window : AxTree} {tr : List (Prog.Event DesktopReply)}
  {e : Element} {t : AxTree}

theorem string_returns {name text : String}
    (h : (string e name : Desktop σ AxError String).Returns s tr (.ok text) s') :
    ∃ answer, tr = [⟨.attribute e name, answer⟩] ∧ textOf answer = some text := by
  simp only [string, perform, Act.bind_eq, Act.returns_andThen_ok, Act.returns_perform] at h
  obtain ⟨_, _, answer, _, rfl, ⟨_, rfl, heq, rfl⟩, h⟩ := h
  obtain rfl := Except.ok.inj heq
  refine ⟨answer, ?_⟩
  rcases answer with e | v
  · cases e <;> simp_all [textOf, Act.returns_ret, Act.returns_fail]
  · cases v <;> simp_all [textOf, Act.returns_ret]

/-- The read of an attribute brings no handles; only that of the role begins an inspection. -/
theorem string_quiet {name text : String} (hchildren : name ≠ "AXChildren")
    (h : (string e name : Desktop σ AxError String).Returns s tr (.ok text) s') :
    fetched tr = [] ∧ inspected tr = if name = "AXRole" then [e] else [] := by
  obtain ⟨answer, rfl, _⟩ := string_returns h
  refine ⟨by simp [fetched, handlesIn, hchildren], ?_⟩
  by_cases hrole : name = "AXRole" <;> simp [inspected, roleRead, hrole]

/-- The elements of an array attribute are those of its answer. -/
theorem elements_returns {name : String} {r : Except AxError (List Element)}
    (h : (elements e name : Desktop σ AxError (List Element)).Returns s tr r s') :
    ∃ answer, tr = [⟨.attribute e name, answer⟩] ∧
      ((∃ items, answer = .ok (.array items) ∧ r = .ok (items.filterMap id)) ∨
        (∃ err, answer = .error err ∧ r = .error err) ∨ r = .error .failure) := by
  simp only [elements, perform, Act.bind_eq, Act.returns_andThen, Act.returns_perform] at h
  obtain ⟨_, rfl, _, _, heq, _⟩ | ⟨_, _, answer, _, rfl, ⟨_, rfl, heq, rfl⟩, h⟩ := h
  · cases heq
  · obtain rfl := Except.ok.inj heq
    refine ⟨answer, ?_⟩
    rcases answer with err | (_ | _ | items | _) <;>
      simp_all [Act.returns_ret, Act.returns_fail]

variable (hshown : Shows window tr) (ht : t ∈ window.subtrees) (hid : t.label.id = e.id)

include hshown ht hid

theorem string_shows {name text : String} (hchildren : name ≠ "AXChildren")
    (h : (string e name : Desktop σ AxError String).Returns s tr (.ok text) s') :
    text = t.label.text name := by
  obtain ⟨answer, rfl, htext⟩ := string_returns h
  rcases hshown e name answer List.mem_cons_self t ht hid with hfails | hanswer
  · rw [Unanswered, htext] at hfails
    cases hfails
  · rw [if_neg hchildren] at hanswer
    rw [AxNode.text, ← hanswer, htext]
    rfl

/-- The state of a button is read, and the button noted where it is enabled. -/
theorem noteEnabled_returns {seen out : Inspection} {label : String}
    (h : (do
      match ← perform (.attribute e "AXEnabled") with
      | .error _ => Act.fail "cannot read button state"
      | .ok (.boolean enabled) =>
        if enabled then return { seen with buttons := seen.buttons ++ [(e, label)] }
        else return seen
      | .ok _ => Act.fail "invalid button state" : Desktop σ String Inspection).Returns s tr
        (.ok out) s') :
    out = { seen with buttons :=
      if t.label.attributes "AXEnabled" = .ok (.boolean true) then
        seen.buttons ++ [(e, label)] else seen.buttons } ∧
    fetched tr = [] ∧ inspected tr = [] := by
  simp only [perform, Act.bind_eq, Act.pure_eq, Act.returns_andThen_ok, Act.returns_perform] at h
  obtain ⟨_, _, answer, _, rfl, ⟨_, rfl, heq, rfl⟩, h⟩ := h
  obtain rfl := Except.ok.inj heq
  have hanswers := hshown e "AXEnabled" answer List.mem_cons_self t ht hid
  rcases answer with err | (_ | enabled | _ | _)
  · simp [Act.returns_fail] at h
  · simp [Act.returns_fail] at h
  · rcases hanswers with hfails | hanswer
    · cases hfails
    · rw [if_neg (by decide)] at hanswer
      cases enabled <;> simp only [Bool.false_eq_true, if_false, if_true, Act.returns_ret] at h <;>
        obtain ⟨rfl, hout, rfl⟩ := h <;>
        simp [← hanswer, Except.ok.inj hout, fetched, handlesIn, inspected, roleRead]
  · simp [Act.returns_fail] at h
  · simp [Act.returns_fail] at h

/-- A button is noted with its label where it is enabled. -/
theorem inspectButton_returns {seen out : Inspection}
    (h : (inspectButton e seen : Desktop σ String Inspection).Returns s tr (.ok out) s') :
    out = { seen with buttons :=
      if t.label.attributes "AXEnabled" = .ok (.boolean true) then
        seen.buttons ++ [(e, t.label.label)] else seen.buttons } ∧
    fetched tr = [] ∧ inspected tr = [] := by
  rw [inspectButton, readOr, Act.bind_eq, Act.returns_andThen_ok] at h
  obtain ⟨first, rest, title, _, rfl, htitle, h⟩ := h
  obtain ⟨hshown, hrest⟩ := Shows.append.mp hshown
  rw [Act.returns_mapError_ok] at htitle
  have htext := string_shows hshown ht hid (by decide) htitle
  obtain ⟨hfetched, hinspected⟩ := string_quiet (by decide) htitle
  rw [fetched_append, inspected_append, hfetched, hinspected, AxNode.label, ← htext]
  by_cases hempty : title.isEmpty = true
  · rw [if_pos hempty, readOr, Act.bind_eq, Act.returns_andThen_ok] at h
    obtain ⟨second, third, label, _, rfl, hlabel, h⟩ := h
    obtain ⟨hshown, hrest⟩ := Shows.append.mp hrest
    rw [Act.returns_mapError_ok] at hlabel
    obtain ⟨hout, hfetched, hinspected⟩ := noteEnabled_returns hrest ht hid h
    have hquiet := string_quiet (by decide) hlabel
    rw [fetched_append, inspected_append, hquiet.1, hquiet.2, hfetched, hinspected, if_pos hempty,
      ← string_shows hshown ht hid (by decide) hlabel]
    exact ⟨hout, rfl, rfl⟩
  · rw [if_neg hempty] at h
    obtain ⟨hout, hfetched, hinspected⟩ := noteEnabled_returns hrest ht hid h
    rw [hfetched, hinspected, if_neg hempty]
    exact ⟨hout, rfl, rfl⟩

/-- A text is noted where it is not blank. -/
theorem inspectText_returns {seen out : Inspection}
    (hrole : t.label.role = "AXStaticText" ∨ t.label.role = "AXHeading")
    (h : (inspectText e seen : Desktop σ String Inspection).Returns s tr (.ok out) s') :
    out = { seen with
      text := match t.label.said with
        | some value => seen.text ++ value ++ "\n"
        | none => seen.text
      heading := seen.heading.or t.label.said } ∧
    fetched tr = [] ∧ inspected tr = [] := by
  have hnote : ∀ {value : String} {tr : List (Prog.Event DesktopReply)} {s : σ},
      (if isBlank value then return seen
        else return { seen with
          heading := some (seen.heading.getD value)
          text := seen.text ++ value ++ "\n" } : Desktop σ String Inspection).Returns s tr
        (.ok out) s' → t.label.said = (if isBlank value then none else some value) →
      out = { seen with
        text := match t.label.said with
          | some value => seen.text ++ value ++ "\n"
          | none => seen.text
        heading := seen.heading.or t.label.said } ∧ tr = [] := by
    intro value tr s h hsaid
    rw [hsaid]
    by_cases hblank : isBlank value = true
    · rw [if_pos hblank, Act.pure_eq, Act.returns_ret] at h
      obtain ⟨rfl, hout, _⟩ := h
      simp [Except.ok.inj hout, hblank]
    · rw [if_neg hblank, Act.pure_eq, Act.returns_ret] at h
      obtain ⟨rfl, hout, _⟩ := h
      simp only [Except.ok.inj hout, hblank, and_true]
      cases seen.heading <;> rfl
  rw [inspectText, readOr, Act.bind_eq, Act.returns_andThen_ok] at h
  obtain ⟨first, rest, value, _, rfl, hvalue, h⟩ := h
  obtain ⟨hshown, hrest⟩ := Shows.append.mp hshown
  rw [Act.returns_mapError_ok] at hvalue
  have htext := string_shows hshown ht hid (by decide) hvalue
  obtain ⟨hfetched, hinspected⟩ := string_quiet (by decide) hvalue
  rw [fetched_append, inspected_append, hfetched, hinspected]
  by_cases hblank : isBlank value = true
  · rw [if_pos hblank, readOr, Act.bind_eq, Act.returns_andThen_ok] at h
    obtain ⟨second, third, title, _, rfl, htitle, h⟩ := h
    rw [Act.returns_mapError_ok] at htitle
    have htitleText := string_shows (Shows.append.mp hrest).1 ht hid (by decide) htitle
    have hquiet := string_quiet (by decide) htitle
    obtain ⟨hout, rfl⟩ := hnote h (by
      rw [AxNode.said, if_pos hrole, ← htext, if_pos hblank, ← htitleText])
    rw [fetched_append, inspected_append, hquiet.1, hquiet.2]
    exact ⟨hout, rfl, rfl⟩
  · rw [if_neg hblank] at h
    obtain ⟨hout, rfl⟩ := hnote h (by
      rw [AxNode.said, if_pos hrole, ← htext, if_neg hblank])
    exact ⟨hout, rfl, rfl⟩

/-- An element that is inspected with success is noted, and takes no text from the user. -/
theorem inspectElement_returns {seen out : Inspection}
    (h : (inspectElement e { seen with visited := e.address :: seen.visited } :
      Desktop σ String Inspection).Returns s tr (.ok out) s') :
    out = seen.note (e, t.label) ∧ ¬ t.label.isField ∧ fetched tr = [] ∧ inspected tr = [e] := by
  rw [inspectElement, readOr, Act.bind_eq, Act.returns_andThen_ok] at h
  obtain ⟨first, rest, role, _, rfl, hrole, h⟩ := h
  obtain ⟨hshown, hrest⟩ := Shows.append.mp hshown
  rw [Act.returns_mapError_ok] at hrole
  have htext : role = t.label.role := string_shows hshown ht hid (by decide) hrole
  obtain ⟨hfetched, hinspected⟩ := string_quiet (by decide) hrole
  have hcheck : ∀ {x : Inspection} {tr : List (Prog.Event DesktopReply)} {s : σ},
      (if 16384 < x.text.utf8ByteSize then Act.fail "window text exceeds inspection limit"
        else return x : Desktop σ String Inspection).Returns s tr (.ok out) s' →
      out = x ∧ tr = [] := by
    intro x tr s h
    by_cases hlong : 16384 < x.text.utf8ByteSize
    · simp [hlong, Act.returns_fail] at h
    · rw [if_neg hlong, Act.pure_eq, Act.returns_ret] at h
      exact ⟨Except.ok.inj h.2.1, h.1⟩
  rw [fetched_append, inspected_append, hfetched, hinspected]
  by_cases hfield : (role = "AXTextField" || role = "AXTextArea") = true
  · simp [hfield, Act.returns_fail] at h
  · rw [if_neg hfield] at h
    have hno : ¬ t.label.isField := by
      simpa [AxNode.isField, ← htext] using hfield
    by_cases hbutton : role = "AXButton"
    · rw [if_pos hbutton, Act.bind_eq, Act.returns_andThen_ok] at h
      obtain ⟨second, third, x, _, rfl, hx, h⟩ := h
      obtain ⟨hx, hfetched, hinspected⟩ :=
        inspectButton_returns (Shows.append.mp hrest).1 ht hid hx
      obtain ⟨rfl, rfl⟩ := hcheck h
      refine ⟨?_, hno, by rw [fetched_append, hfetched]; rfl,
        by rw [inspected_append, hinspected]; rfl⟩
      have hsaid : t.label.said = none := by
        rw [AxNode.said, if_neg (by rw [← htext, hbutton]; decide)]
      rw [hx, Inspection.note, hsaid, AxNode.isEnabledButton, ← htext, hbutton]
      simp
    · rw [if_neg hbutton] at h
      have hoff : t.label.isEnabledButton = false := by
        simp [AxNode.isEnabledButton, ← htext, hbutton]
      by_cases htextual : (role = "AXStaticText" || role = "AXHeading") = true
      · rw [if_pos htextual, Act.bind_eq, Act.returns_andThen_ok] at h
        obtain ⟨second, third, x, _, rfl, hx, h⟩ := h
        obtain ⟨hx, hfetched, hinspected⟩ := inspectText_returns (Shows.append.mp hrest).1 ht hid
          (by simpa [← htext] using htextual) hx
        obtain ⟨rfl, rfl⟩ := hcheck h
        refine ⟨?_, hno, by rw [fetched_append, hfetched]; rfl,
          by rw [inspected_append, hinspected]; rfl⟩
        rw [hx, Inspection.note, hoff]
        rfl
      · rw [if_neg htextual, Act.bind_eq, Act.pure_eq, Act.ret_andThen] at h
        obtain ⟨rfl, rfl⟩ := hcheck h
        have hsaid : t.label.said = none := by
          rw [AxNode.said, if_neg (by simpa [← htext] using htextual)]
        refine ⟨?_, hno, rfl, rfl⟩
        rw [Inspection.note, hsaid, hoff]
        simp

/-- The children of an element are fetched through new handles. -/
theorem childrenOf_returns {children : List Element}
    (h : (childrenOf e : Desktop σ String (List Element)).Returns s tr (.ok children) s') :
    children.map Element.id = t.children.map (fun c => c.label.id) ∧ fetched tr = children ∧
      inspected tr = [] := by
  rw [childrenOf, Act.bind_eq, Act.returns_andThen_ok] at h
  obtain ⟨_, _, r, _, rfl, hr, h⟩ := h
  obtain ⟨x, hx, hr⟩ := Act.returns_attempt.mp hr
  obtain rfl := Except.ok.inj hx
  obtain ⟨answer, rfl, hanswer⟩ := elements_returns hr
  have hshow := hshown e "AXChildren" answer List.mem_cons_self t ht hid
  rcases hanswer with ⟨items, rfl, rfl⟩ | ⟨err, rfl, rfl⟩ | rfl
  · obtain ⟨rfl, hchildren, _⟩ := Act.returns_ret.mp h
    obtain rfl := Except.ok.inj hchildren
    rcases hshow with hfails | hshow
    · cases hfails
    · rw [if_pos rfl] at hshow
      rcases hshow with ⟨items', heq, hids⟩ | ⟨_, heq | heq⟩
      · obtain rfl := AxValue.array.inj (Except.ok.inj heq)
        exact ⟨hids, by simp [fetched, handlesIn, elementsOf], rfl⟩
      · cases heq
      · cases heq
  · rcases hshow with hfails | hshow
    · cases err <;> first | cases (Act.returns_fail.mp h).2.1 | cases hfails
    · rw [if_pos rfl] at hshow
      rcases hshow with ⟨items, heq, _⟩ | ⟨hnone, heq | heq⟩
      · cases heq
      · obtain rfl := Except.error.inj heq
        obtain ⟨rfl, hchildren, _⟩ := Act.returns_ret.mp h
        rw [Except.ok.inj hchildren, hnone]
        exact ⟨rfl, rfl, rfl⟩
      · obtain rfl := Except.error.inj heq
        obtain ⟨rfl, hchildren, _⟩ := Act.returns_ret.mp h
        rw [Except.ok.inj hchildren, hnone]
        exact ⟨rfl, rfl, rfl⟩
  · cases (Act.returns_fail.mp h).2.1

end Reads

/-! ## The walk -/

section Walks

variable {σ : Type} {s s' : σ} {tr : List (Prog.Event DesktopReply)} {deadline : Int}
  {seen out : Inspection}

/-- The check of the budget reads nothing, and stops the walk after 256 handles. -/
theorem overBudget_returns {depth : Nat}
    (h : (overBudget deadline seen depth : Desktop σ String Bool).Returns s tr (.ok false) s') :
    seen.visited.length < 256 ∧ fetched tr = [] ∧ inspected tr = [] := by
  rw [overBudget] at h
  split at h
  · cases (Act.returns_ret.mp h).2.1
  · rename_i hbudget
    rw [Act.bind_eq, Act.returns_andThen_ok] at h
    obtain ⟨_, _, now, _, rfl, hnow, h⟩ := h
    obtain ⟨_, rfl, _, _⟩ := Act.returns_perform.mp hnow
    obtain ⟨rfl, _, _⟩ := Act.returns_ret.mp h
    have hbudget : ¬ (256 ≤ seen.visited.length ∨ 20 < depth) := by simpa using hbudget
    exact ⟨by omega, rfl, rfl⟩

/-- Handles that have been visited are taken off the stack; the first new one is visited. -/
theorem popUnvisited_returns
    {visit : Element → Nat → List (Element × Nat) → Desktop σ String Inspection}
    {stack : List (Element × Nat)}
    (h : (popUnvisited deadline seen visit stack).Returns s tr (.ok out) s') :
    (out = seen ∧ (∀ x ∈ stack, x.1.address ∈ seen.visited) ∧ fetched tr = [] ∧
      inspected tr = []) ∨
    ∃ skipped element depth rest first second mid,
      stack = skipped ++ (element, depth) :: rest ∧
      (∀ x ∈ skipped, x.1.address ∈ seen.visited) ∧ element.address ∉ seen.visited ∧
      seen.visited.length < 256 ∧ tr = first ++ second ∧ fetched first = [] ∧
      inspected first = [] ∧ (visit element depth rest).Returns mid second (.ok out) s' := by
  induction stack generalizing s tr with
  | nil =>
    rw [popUnvisited, Act.pure_eq, Act.returns_ret] at h
    obtain ⟨rfl, hout, _⟩ := h
    exact .inl ⟨Except.ok.inj hout, fun x hx => absurd hx List.not_mem_nil, rfl, rfl⟩
  | cons x stack ih =>
    obtain ⟨element, depth⟩ := x
    rw [popUnvisited, Act.bind_eq, Act.returns_andThen_ok] at h
    obtain ⟨_, tr₁, permit, _, rfl, hpermit, h⟩ := h
    obtain ⟨_, rfl, _, _⟩ := Act.returns_perform.mp hpermit
    cases permit with
    | false => cases (Act.returns_fail.mp h).2.1
    | true =>
      simp only [Bool.not_true, Bool.false_eq_true, if_false] at h
      rw [Act.bind_eq, Act.returns_andThen_ok] at h
      obtain ⟨tr₂, tr₃, overspent, _, rfl, hover, h⟩ := h
      cases overspent with
      | true => cases (Act.returns_fail.mp h).2.1
      | false =>
        obtain ⟨hbound, hfetched, hinspected⟩ := overBudget_returns hover
        simp only [Bool.false_eq_true, if_false] at h
        by_cases hvisited : seen.visited.contains element.address = true
        · rw [if_pos hvisited] at h
          have hmem : element.address ∈ seen.visited := by simpa using hvisited
          rcases ih h with ⟨hout, hall, hf, hi⟩ |
            ⟨skipped, e, d, rest, first, second, mid, rfl, hall, hnew, hlt, rfl, hf, hi, hvisit⟩
          · refine .inl ⟨hout, fun y hy => ?_, ?_, ?_⟩
            · rcases List.mem_cons.mp hy with rfl | hy
              · exact hmem
              · exact hall y hy
            · rw [fetched_append, fetched_append, hfetched, hf]; rfl
            · rw [inspected_append, inspected_append, hinspected, hi]; rfl
          · refine .inr ⟨(element, depth) :: skipped, e, d, rest, _, second, mid, rfl, ?_, hnew,
              hlt, by rw [← List.append_assoc, ← List.append_assoc], ?_, ?_, hvisit⟩
            · intro y hy
              rcases List.mem_cons.mp hy with rfl | hy
              · exact hmem
              · exact hall y hy
            · rw [fetched_append, fetched_append, hfetched, hf]; rfl
            · rw [inspected_append, inspected_append, hinspected, hi]; rfl
        · rw [if_neg hvisited] at h
          refine .inr ⟨[], element, depth, stack, _, tr₃, _, rfl,
            fun x hx => absurd hx List.not_mem_nil, by simpa using hvisited, hbound,
            by rw [← List.append_assoc], ?_, ?_, h⟩
          · rw [fetched_append, hfetched]; rfl
          · rw [inspected_append, hinspected]; rfl

/-- Handles of children belong to them in order. -/
theorem zip_ids {handles : List Element} {ts : List AxTree}
    (hids : handles.map Element.id = ts.map fun c => c.label.id) :
    ∀ p ∈ handles.zip ts, p.2 ∈ ts ∧ p.2.label.id = p.1.id := by
  intro p hp
  refine ⟨(List.of_mem_zip hp).2, ?_⟩
  obtain ⟨i, hi, rfl⟩ := List.mem_iff_getElem.mp hp
  have hi' := List.length_zip ▸ hi
  have hat := congrArg (fun ids : List Nat => ids[i]?) hids
  have hhandles : i < handles.length := by omega
  have hts : i < ts.length := by omega
  simpa [List.getElem?_eq_getElem hhandles, List.getElem?_eq_getElem hts] using hat.symm

/-- The loop of the inspection is a walk over the trees of its stack. -/
theorem walkWindow_returns {window : AxTree} {n : Nat} {stack : List (Element × Nat)}
    {trees : List (Element × AxTree)} (hstack : stack.map Prod.fst = trees.map Prod.fst)
    (htrees : ∀ p ∈ trees, p.2 ∈ window.subtrees ∧ p.2.label.id = p.1.id)
    (hshown : Shows window tr) (hcount : seen.visited.length + n = 256)
    (h : (walkWindow deadline n seen stack).Returns s tr (.ok out) s') :
    ∃ visits, Walk Element.address seen.visited trees visits (fetched tr) ∧
      inspected tr = visits.map Prod.fst ∧ out = visits.foldl Inspection.note seen ∧
      ∀ v ∈ visits, v.2.id = v.1.id ∧ ¬ v.2.isField := by
  -- handles on the stack are those of the trees
  have hseen : ∀ {seen : Inspection} {stack : List (Element × Nat)}
      {trees : List (Element × AxTree)}, stack.map Prod.fst = trees.map Prod.fst →
      (∀ x ∈ stack, x.1.address ∈ seen.visited) → ∀ p ∈ trees, p.1.address ∈ seen.visited := by
    intro seen stack trees hstack hall p hp
    obtain ⟨x, hx, hxp⟩ := List.mem_map.mp (hstack ▸ List.mem_map_of_mem hp : p.1 ∈ _)
    exact hxp ▸ hall x hx
  have hnone : ∀ {seen : Inspection} {stack : List (Element × Nat)}
      {trees : List (Element × AxTree)} {tr : List (Prog.Event DesktopReply)},
      stack.map Prod.fst = trees.map Prod.fst → out = seen →
      (∀ x ∈ stack, x.1.address ∈ seen.visited) → fetched tr = [] → inspected tr = [] →
      ∃ visits, Walk Element.address seen.visited trees visits (fetched tr) ∧
        inspected tr = visits.map Prod.fst ∧ out = visits.foldl Inspection.note seen ∧
        ∀ v ∈ visits, v.2.id = v.1.id ∧ ¬ v.2.isField := fun hstack hout hall hf hi =>
    ⟨[], hf ▸ Walk.of_seen (hseen hstack hall), hi, hout, fun v hv => absurd hv List.not_mem_nil⟩
  induction n generalizing s tr seen stack trees with
  | zero =>
    rw [walkWindow] at h
    rcases popUnvisited_returns h with ⟨hout, hall, hf, hi⟩ |
      ⟨_, _, _, _, _, _, _, _, _, _, hlt, _⟩
    · exact hnone hstack hout hall hf hi
    · omega
  | succ n ih =>
    rw [walkWindow] at h
    rcases popUnvisited_returns h with ⟨hout, hall, hf, hi⟩ |
      ⟨skipped, element, depth, rest, first, second, mid, rfl, hall, hnew, _, rfl, hf, hi, hvisit⟩
    · exact hnone hstack hout hall hf hi
    · rw [List.map_append, List.map_cons, eq_comm, List.map_eq_append_iff] at hstack
      obtain ⟨before, after, rfl, hbefore, hafter⟩ := hstack
      obtain ⟨⟨handle, t⟩, trees, rfl, rfl, hrest⟩ := List.map_eq_cons_iff.mp hafter
      obtain ⟨ht, hid⟩ := htrees (handle, t) (by simp)
      obtain ⟨_, hshown⟩ := Shows.append.mp hshown
      rw [Act.bind_eq, Act.returns_andThen_ok] at hvisit
      obtain ⟨tr₁, _, noted, _, rfl, hnoted, hvisit⟩ := hvisit
      rw [Act.bind_eq, Act.returns_andThen_ok] at hvisit
      obtain ⟨tr₂, tr₃, children, _, rfl, hchildren, hwalk⟩ := hvisit
      obtain ⟨hshown₁, hshown⟩ := Shows.append.mp hshown
      obtain ⟨hshown₂, hshown₃⟩ := Shows.append.mp hshown
      obtain ⟨rfl, hfield, hf₁, hi₁⟩ := inspectElement_returns hshown₁ ht hid hnoted
      obtain ⟨hids, hf₂, hi₂⟩ := childrenOf_returns hshown₂ ht hid hchildren
      have hlength : children.length = t.children.length := by
        simpa using congrArg List.length hids
      have hnext : ((children.map fun child => (child, depth + 1)) ++ rest).map Prod.fst =
          ((children.zip t.children) ++ trees).map Prod.fst := by
        rw [Walk.map_fst_zip_append hlength, List.map_append, List.map_map, hrest]
        simp [Function.comp_def]
      obtain ⟨visits, hvisits, hi₃, hout, hfields⟩ := ih hnext
        (fun p hp => by
          rcases List.mem_append.mp hp with hp | hp
          · obtain ⟨hmem, hpid⟩ := zip_ids hids p hp
            exact ⟨RoseTree.children_mem_subtrees hmem window ht, hpid⟩
          · exact htrees p (by simp [hp]))
        hshown₃ (by simp only [Inspection.note, List.length_cons]; omega) hwalk
      refine ⟨(handle, t.label) :: visits, ?_, ?_, hout, ?_⟩
      · rw [fetched_append, fetched_append, fetched_append, hf, hf₁, hf₂, List.nil_append,
          List.nil_append]
        exact Walk.skips (hseen hbefore.symm hall) (.visit hnew hlength hvisits)
      · rw [inspected_append, inspected_append, inspected_append, hi, hi₁, hi₂, hi₃]
        rfl
      · intro v hv
        rcases List.mem_cons.mp hv with rfl | hv
        · exact ⟨hid, hfield⟩
        · exact hfields v hv

/-! ## What the walk has noted -/

theorem heading_foldl_note (visits : List (Element × AxNode)) (seen : Inspection) :
    (visits.foldl Inspection.note seen).heading =
      seen.heading.or ((visits.map Prod.snd).findSome? AxNode.said) := by
  induction visits generalizing seen with
  | nil => simp
  | cons v visits ih =>
    rw [List.foldl_cons, ih, List.map_cons, List.findSome?_cons, Inspection.note]
    cases seen.heading <;> cases v.2.said <;> rfl

theorem buttons_foldl_note (visits : List (Element × AxNode)) (seen : Inspection) :
    (visits.foldl Inspection.note seen).buttons = seen.buttons ++
      (visits.filter fun v => v.2.isEnabledButton).map fun v => (v.1, v.2.label) := by
  induction visits generalizing seen with
  | nil => simp
  | cons v visits ih =>
    rw [List.foldl_cons, ih, Inspection.note]
    by_cases hbutton : v.2.isEnabledButton = true <;> simp [hbutton]

end Walks

end Watchcat
