import Watchcat.OsPermissions.Tree

/-!
# What a matched button says of the window

The inspection knows the elements it has visited by the addresses of their
handles, and a handle is released when its element is done. It covers the window,
and its answer is right for the window, exactly if no address is used again.
-/

namespace Watchcat

open Watchcat.Core Desktop

section

variable [Lowercase]

/-- A label that a rule accepts for the button to press. -/
def accepts (rule : String) (selectors : DialogRule) (label : String) : Bool :=
  if rule = directoryRule then isAllowButton label else selectors.button == some label

/-- The whole window was inspected, and what was found is what the window shows. -/
structure CoversWindow (window : AxTree) (rules : DialogSettings) (identity : String × String)
    (tr : List (Prog.Event DesktopReply)) (found : MatchedButton) : Prop where
  reached : ∀ n ∈ window.preorder, ∃ e ∈ inspected tr, e.id = n.id
  noField : ∀ n ∈ window.preorder, ¬ n.isField
  sole : ∃ selectors,
    rules.matching identity.1 identity.2 (window.label.text "AXTitle")
      ((window.preorder.findSome? AxNode.said).getD "") = [(found.rule, selectors)] ∧
    ((window.preorder.filter fun n =>
      n.isEnabledButton && accepts found.rule selectors n.label).map fun n => (n.id, n.label)) =
        [(found.button.id, found.label)]

/-- The button that is chosen is the only one that the only matching rule accepts. -/
theorem chooseButton_ok {rules : DialogSettings} {identity : String × String} {title : String}
    {seen : Inspection} {found : MatchedButton}
    (h : chooseButton rules identity title seen = .ok found) : ∃ selectors,
      rules.matching identity.1 identity.2 title (seen.heading.getD "") =
        [(found.rule, selectors)] ∧
      (seen.buttons.filter fun entry => accepts found.rule selectors entry.2) =
        [(found.button, found.label)] := by
  unfold chooseButton at h
  split at h
  · cases h
  · rename_i rule selectors hmatching
    split at h
    · rename_i button label hbuttons
      obtain rfl := Except.ok.inj h
      exact ⟨selectors, hmatching, hbuttons⟩
    · cases h
  · cases h

/-- A matched button comes from a walk over the window. -/
theorem matchingButton_returns {σ : Type} {s s' : σ} {tr : List (Prog.Event DesktopReply)}
    {window : AxTree} {element : Element} {rules : DialogSettings} {identity : String × String}
    {found : MatchedButton} (hid : window.label.id = element.id) (hshown : Shows window tr)
    (h : (matchingButton element rules identity : Desktop σ String MatchedButton).Returns s tr
      (.ok found) s') :
    ∃ visits, Walk Element.address [] [(element, window)] visits (fetched tr) ∧
      inspected tr = visits.map Prod.fst ∧ (∀ v ∈ visits, v.2.id = v.1.id ∧ ¬ v.2.isField) ∧
      chooseButton rules identity (window.label.text "AXTitle")
        (visits.foldl Inspection.note {}) = .ok found := by
  rw [matchingButton, readOr, Act.bind_eq, Act.returns_andThen_ok] at h
  obtain ⟨tr₁, _, title, _, rfl, htitle, h⟩ := h
  obtain ⟨hshown₁, hshown⟩ := Shows.append.mp hshown
  rw [Act.returns_mapError_ok] at htitle
  have htext := string_shows hshown₁ window.mem_subtrees_self hid (by decide) htitle
  obtain ⟨hf₁, hi₁⟩ := string_quiet (by decide) htitle
  rw [Act.bind_eq, Act.returns_andThen_ok] at h
  obtain ⟨_, _, now, _, rfl, hnow, h⟩ := h
  obtain ⟨_, rfl, _, _⟩ := Act.returns_perform.mp hnow
  obtain ⟨_, hshown⟩ := Shows.append.mp hshown
  rw [Act.bind_eq, Act.returns_andThen_ok] at h
  obtain ⟨tr₂, _, seen, _, rfl, hseen, h⟩ := h
  obtain ⟨rfl, hchosen, _⟩ := Act.returns_ofExcept.mp h
  obtain ⟨visits, hwalk, hinspected, rfl, hvisits⟩ := walkWindow_returns
    (show [(element, 0)].map Prod.fst = [(element, window)].map Prod.fst from rfl)
    (fun p hp => by
      obtain rfl := List.mem_singleton.mp hp
      exact ⟨window.mem_subtrees_self, hid⟩)
    (Shows.append.mp hshown).1 rfl hseen
  refine ⟨visits, ?_, ?_, hvisits, htext ▸ hchosen.symm⟩
  · rw [fetched_append, fetched_append, hf₁, List.append_nil]
    exact hwalk
  · rw [inspected_append, inspected_append, hi₁, List.append_nil]
    exact hinspected

/-- A match covers the window exactly if no two handles of the inspection have one address. -/
theorem inspection_covers_iff {σ : Type} {s s' : σ} {tr : List (Prog.Event DesktopReply)}
    {window : AxTree} {element : Element} {rules : DialogSettings} {identity : String × String}
    {found : MatchedButton} (hid : window.label.id = element.id)
    (hids : (window.preorder.map AxNode.id).Nodup) (hshown : Shows window tr)
    (h : (matchingButton element rules identity : Desktop σ String MatchedButton).Returns s tr
      (.ok found) s') :
    CoversWindow window rules identity tr found ↔
      ((element :: fetched tr).map Element.address).Nodup := by
  obtain ⟨visits, hwalk, hinspected, hvisits, hchosen⟩ :=
    matchingButton_returns hid hshown h
  have hcomplete : visits.map Prod.snd = window.preorder ↔
      ((element :: fetched tr).map Element.address).Nodup := by
    simpa using hwalk.complete_iff
  rw [← hcomplete]
  constructor
  · intro hcovers
    have hsublist : (visits.map Prod.snd).Sublist window.preorder := by
      simpa using hwalk.sublist
    have hsubset : window.preorder.map AxNode.id ⊆ visits.map fun v => v.2.id := by
      intro id hmem
      obtain ⟨n, hn, rfl⟩ := List.mem_map.mp hmem
      obtain ⟨e, he, heq⟩ := hcovers.reached n hn
      rw [hinspected] at he
      obtain ⟨v, hv, rfl⟩ := List.mem_map.mp he
      exact List.mem_map.mpr ⟨v, hv, (hvisits v hv).1.trans heq⟩
    have hlength := (List.subperm_of_subset hids hsubset).length_le
    rw [List.length_map, List.length_map] at hlength
    exact hsublist.eq_of_length_le (by rwa [List.length_map])
  · intro hall
    obtain ⟨selectors, hmatching, hbuttons⟩ := chooseButton_ok hchosen
    rw [heading_foldl_note, hall] at hmatching
    rw [buttons_foldl_note] at hbuttons
    refine ⟨fun n hn => ?_, fun n hn => ?_, selectors, hmatching, ?_⟩
    · rw [← hall] at hn
      obtain ⟨v, hv, rfl⟩ := List.mem_map.mp hn
      exact ⟨v.1, hinspected ▸ List.mem_map_of_mem hv, (hvisits v hv).1.symm⟩
    · rw [← hall] at hn
      obtain ⟨v, hv, rfl⟩ := List.mem_map.mp hn
      exact (hvisits v hv).2
    · have hnoted :=
        congrArg (List.map fun entry : Element × String => (entry.1.id, entry.2)) hbuttons
      rw [List.nil_append, List.filter_map, List.filter_filter, List.map_map] at hnoted
      rw [← hall, List.filter_map, List.map_map]
      refine Eq.trans ?_ hnoted
      have hsame : visits.filter ((fun n => n.isEnabledButton &&
            accepts found.rule selectors n.label) ∘ Prod.snd) =
          visits.filter fun v => accepts found.rule selectors v.2.label && v.2.isEnabledButton :=
        List.filter_congr fun v _ => Bool.and_comm _ _
      rw [hsame]
      exact List.map_congr_left fun v hv =>
        congrArg (·, v.2.label) (hvisits v (List.mem_of_mem_filter hv)).1

end

/-! ## Handles that are alive -/

/-- The handles that the inspection holds: the window, the element at work, the stack and the
enabled buttons. -/
structure Handles where
  window : Element
  current : List Element := []
  stack : List Element
  buttons : List Element := []

namespace Handles

/-- All of them. -/
def alive (h : Handles) : List Element := h.window :: h.current ++ h.stack ++ h.buttons

/-- What a call changes: each round of the loop begins with a look at the permit. -/
def next (h : Handles) : Prog.Event DesktopReply → Handles
  | ⟨.readPermit, _⟩ => { h with current := h.stack.take 1, stack := h.stack.tail }
  | ⟨.attribute e name, answer⟩ =>
    if name = "AXChildren" then { h with stack := elementsOf answer ++ h.stack }
    else if name = "AXEnabled" ∧ answer = .ok (.boolean true) then
      { h with buttons := e :: h.buttons }
    else h
  | _ => h

/-- Every handle that is fetched has an address of its own among those that are alive. -/
def distinct : Handles → List (Prog.Event DesktopReply) → Bool
  | _, [] => true
  | h, event :: tr =>
    ((handlesIn event).map Element.address).Nodup &&
      (handlesIn event).all (fun x => h.alive.all fun y => x.address != y.address) &&
      (h.next event).distinct tr

end Handles

/-! ## A window -/

/-- The attributes of an element. -/
def attributes (values : List (String × AxValue)) (name : String) : Except AxError AxValue :=
  match values.lookup name with
  | some value => .ok value
  | none => .error .noValue

/-- A button, an empty group and a group around an element of the given role. -/
def sampleWindow (role : String) : AxTree :=
  .node ⟨0, attributes [("AXRole", .string "AXWindow"), ("AXTitle", .string "Update")]⟩
    [.node ⟨1, attributes [("AXRole", .string "AXButton"), ("AXTitle", .string "Continue"),
        ("AXEnabled", .boolean true)]⟩ [],
      .node ⟨2, attributes [("AXRole", .string "AXGroup")]⟩ [],
      .node ⟨3, attributes [("AXRole", .string "AXGroup")]⟩
        [.node ⟨4, attributes [("AXRole", .string role)]⟩ []]]

/-- The handle of the window. -/
def sampleHandle : Element := ⟨10, 0⟩

/-- The answers of the elements, where the innermost one is given the address. -/
def sampleAttribute (role : String) (address : Nat) (e : Element) (name : String) :
    Except AxError AxValue :=
  if name = "AXChildren" then
    match e.id with
    | 0 => .ok (.array [some ⟨11, 1⟩, some ⟨12, 2⟩, some ⟨13, 3⟩])
    | 3 => .ok (.array [some ⟨address, 4⟩])
    | _ => .error .noValue
  else match (sampleWindow role).subtrees.find? fun t => t.label.id == e.id with
    | some t => t.label.attributes name
    | none => .error .failure

/-- The answers of a system that only has this window. -/
def sampleDesktop (role : String) (address : Nat) : (op : DesktopCall) → DesktopReply op
  | .readPermit => true
  | .lockPermit => true
  | .unlockPermit => ()
  | .readRules => none
  | .lockRules => none
  | .unlockRules => ()
  | .append _ => true
  | .readStatus => ⟨"", 0, 0, 0, 0, none⟩
  | .updateStatus _ => ()
  | .trusted => true
  | .executable => none
  | .runningApplications => []
  | .isTerminated _ => false
  | .bundleIdentifier _ => none
  | .localizedName _ => none
  | .executablePath _ => some "/helper"
  | .newApplication _ => ⟨0, 0⟩
  | .createObserver _ => .ok ()
  | .addNotification _ _ _ => .ok ()
  | .attribute e name => sampleAttribute role address e name
  | .press _ _ => .ok ()
  | .now => 0
  | .queueScan _ => ()
  | .verifyLater _ => ()
  | .retryLater _ _ => true

theorem sampleDesktop_shows (role : String) (address : Nat) {tr : List (Prog.Event DesktopReply)}
    (h : ∀ event ∈ tr, event.2 = sampleDesktop role address event.1) :
    Shows (sampleWindow role) tr := by
  intro e name answer hmem t ht hid
  obtain rfl : answer = sampleAttribute role address e name := h _ hmem
  refine .inr ?_
  obtain ⟨address', id⟩ := e
  simp only [sampleWindow, RoseTree.subtrees, RoseTree.subtreesAll, List.mem_cons,
    List.append_nil, List.nil_append, List.cons_append, List.not_mem_nil, or_false] at ht
  rcases ht with rfl | rfl | rfl | rfl | rfl <;> obtain rfl := hid <;>
    by_cases hname : name = "AXChildren" <;>
    simp [sampleAttribute, sampleWindow, RoseTree.subtrees, RoseTree.subtreesAll, RoseTree.label,
      RoseTree.children, hname]

/-- The rule for the button. -/
def sampleRules : DialogSettings :=
  ⟨Core.Table.empty.insert "helper" ⟨true, some "/helper", some "Update", none, some "Continue"⟩⟩

/-- The inspection of the window against these answers. -/
def sampleInspection (role : String) (address : Nat) :
    List (Prog.Event DesktopReply) × Except String MatchedButton × Unit :=
  letI : Lowercase := ⟨String.toLower⟩
  (matchingButton sampleHandle sampleRules ("/helper", "") ()).execute (sampleDesktop role address)

theorem sampleInspection_returns {role : String} {address : Nat} {found : MatchedButton}
    (h : (sampleInspection role address).2.1 = .ok found) :
    letI : Lowercase := ⟨String.toLower⟩
    (matchingButton sampleHandle sampleRules ("/helper", "") :
      Desktop Unit String MatchedButton).Returns () (sampleInspection role address).1
        (.ok found) () := by
  have hreturns := Prog.execute_returns (sampleDesktop role address)
    (@matchingButton Unit ⟨String.toLower⟩ sampleHandle sampleRules ("/helper", "") ())
  exact h ▸ hreturns

theorem inspection_covers_group :
    @CoversWindow ⟨String.toLower⟩ (sampleWindow "AXGroup") sampleRules ("/helper", "")
      (sampleInspection "AXGroup" 14).1 ⟨⟨11, 1⟩, "Update\n\nContinue", "helper", "Continue"⟩ :=
  (@inspection_covers_iff ⟨String.toLower⟩ Unit () () _ (sampleWindow "AXGroup") sampleHandle
    sampleRules ("/helper", "") _ rfl (by decide)
    (sampleDesktop_shows "AXGroup" 14 Prog.execute_answered)
    (sampleInspection_returns rfl)).mpr (by decide)

/-- The text field is fetched through a handle at the address of the empty group, which has been
released: it is never looked at, and the button beside it is found. -/
theorem inspection_misses_field :
    ¬ ∀ (_ : Lowercase) (tr : List (Prog.Event DesktopReply)) (window : AxTree) (element : Element)
      (rules : DialogSettings) (identity : String × String) (found : MatchedButton),
      window.label.id = element.id → (window.preorder.map AxNode.id).Nodup → Shows window tr →
      (⟨element, [], [element], []⟩ : Handles).distinct tr = true →
      (matchingButton element rules identity : Desktop Unit String MatchedButton).Returns () tr
        (.ok found) () → CoversWindow window rules identity tr found := by
  intro h
  have hcovers := h ⟨String.toLower⟩ (sampleInspection "AXTextField" 12).1
    (sampleWindow "AXTextField") sampleHandle sampleRules ("/helper", "")
    ⟨⟨11, 1⟩, "Update\n\nContinue", "helper", "Continue"⟩ rfl (by decide)
    (sampleDesktop_shows "AXTextField" 12 Prog.execute_answered) rfl
    (sampleInspection_returns rfl)
  exact @CoversWindow.noField ⟨String.toLower⟩ _ _ _ _ _ hcovers
    ⟨4, attributes [("AXRole", .string "AXTextField")]⟩ (by simp [sampleWindow]) (.inl rfl)

end Watchcat
