import Watchcat.Daemon.Histories
import Watchcat.Daemon.Sample

/-!
# What a failed control request leaves

A request that ends in an error has not touched the watchlist, the configuration
or the window rules, but for one case: membership was changed and the watchlist
could not be read again for the permit.
-/

namespace Watchcat

open Watchcat.Core

/-- What a failed request should leave as it was. -/
structure Untouched (w : World) (d : WatchcatDaemon) (w' : World) (d' : WatchcatDaemon) : Prop where
  document : w'.document = w.document
  content : w'.config.content = w.config.content
  modified : w'.config.modified = w.config.modified
  settings : d'.settings = d.settings
  dialogs : w'.dialogs = w.dialogs

/-- The request replaced the watchlist by another one, and a later read of it failed. -/
def WroteUnread (w : World) (calls : List (Prog.Event Reply)) : Prop :=
  ∃ earlier document middle e later, calls = earlier ++ ⟨.writeWatchlist document, .ok ()⟩ ::
    middle ++ ⟨.readWatchlist, .error e⟩ :: later ∧ document ≠ w.document

/-! ## Frames -/

/-- The watchlist, and what is known of the configuration file and the window rules. -/
def World.parts (w : World) :
    Option WatchlistDocument × Except Error (Option Settings) × Option Int ×
      Option DialogSettings :=
  (w.watchlist, w.config.content, w.config.modified, w.dialogs)

/-- The calls that replace one of the parts. -/
def isReplacement : Prog.Event Reply → Bool
  | ⟨.writeWatchlist _, r⟩ => r.isOk
  | ⟨.writeConfig _, r⟩ => r.isOk
  | ⟨.configureDialogs _, _⟩ => true
  | _ => false

/-- Every other call leaves the parts alone. -/
theorem act_parts {t : Tid} {w w' : World} {e : Prog.Event Reply} (h : isReplacement e = false)
    (ha : World.act t w e.1 e.2 w') : w'.parts = w.parts := by
  obtain ⟨op, r⟩ := e
  cases op with
  | writeWatchlist document =>
    cases r with
    | ok _ => cases h
    | error e =>
      obtain rfl := ha
      rfl
  | writeConfig settings =>
    cases r with
    | ok _ => cases h
    | error e =>
      obtain ⟨_, rfl, rfl⟩ := ha
      rfl
  | readConfig => obtain ⟨_, ⟨_, rfl⟩ | ⟨_, rfl⟩, rfl⟩ := ha <;> rfl
  | configModified =>
    obtain ⟨_, ⟨_, rfl⟩, rfl⟩ := ha
    rfl
  | configureDialogs => cases h
  | _ =>
    obtain ⟨hwatchlist, hconfig, hdialogs⟩ := act_files rfl ha
    simp only [World.parts, hwatchlist, hconfig, hdialogs]

theorem path_parts {t : Tid} {w w' : World} {tr : List (Prog.Event Reply)}
    (h : World.bare.Path t w tr w') (hquiet : ∀ e ∈ tr, isReplacement e = false) :
    w'.parts = w.parts :=
  h.frame fun e he _ _ ha => act_parts (hquiet e he) ha

/-- What is no effect replaces nothing. -/
theorem isReplacement_of_not_effect {e : Prog.Event Reply} (h : isEffect e = false) :
    isReplacement e = false := by
  obtain ⟨op, r⟩ := e
  cases op <;> first | rfl | exact h

/-- Untouched parts. -/
theorem untouched_of_parts {w w' : World} {d d' : WatchcatDaemon} (h : w'.parts = w.parts)
    (hs : d'.settings = d.settings) : Untouched w d w' d' := by
  simp only [World.parts, Prod.mk.injEq] at h
  exact ⟨congrArg (fun x => x.getD {}) h.1, h.2.1, h.2.2.1, hs, h.2.2.2⟩

/-! ## The outcomes -/

variable {t : Tid} {w w' : World} {d d' : WatchcatDaemon} {calls : List (Prog.Event Reply)}

/-- The two effects of a trace, with the quiet calls around them. -/
theorem effects_pair {a b : Prog.Event Reply} (h : calls.filter isEffect = [a, b]) :
    ∃ earlier middle later, calls = earlier ++ a :: middle ++ b :: later ∧
      (∀ e ∈ earlier, isEffect e = false) ∧ (∀ e ∈ middle, isEffect e = false) ∧
      ∀ e ∈ later, isEffect e = false := by
  obtain ⟨earlier, rest, rfl, hearlier, _, hrest⟩ := List.filter_eq_cons_iff.mp h
  obtain ⟨middle, later, rfl, hmiddle, _, hlater⟩ := List.filter_eq_cons_iff.mp hrest
  refine ⟨earlier, middle, later, by simp, ?_, ?_, ?_⟩
  · exact fun e he => Bool.eq_false_iff.mpr (hearlier e he)
  · exact fun e he => Bool.eq_false_iff.mpr (hmiddle e he)
  · exact fun e he => Bool.eq_false_iff.mpr (List.filter_eq_nil_iff.mp hlater e he)

/-- The write and the failed read are among the effects. -/
theorem WroteUnread.effects (h : WroteUnread w calls) : ∃ document e, document ≠ w.document ∧
    ⟨.writeWatchlist document, .ok ()⟩ ∈ calls.filter isEffect ∧
    ⟨.readWatchlist, .error e⟩ ∈ calls.filter isEffect := by
  obtain ⟨earlier, document, middle, e, later, rfl, hne⟩ := h
  exact ⟨document, e, hne, List.mem_filter.mpr ⟨by simp, rfl⟩,
    List.mem_filter.mpr ⟨by simp, rfl⟩⟩

/-- A request without a successful write of the watchlist has not written it. -/
theorem not_wroteUnread
    (h : ∀ document, ⟨.writeWatchlist document, .ok ()⟩ ∉ calls.filter isEffect) :
    ¬ WroteUnread w calls := by
  intro hunread
  obtain ⟨document, _, _, hwrite, _⟩ := hunread.effects
  exact h document hwrite

/-- A request without a replacement leaves everything. -/
theorem untouched_of_quiet (h : World.bare.Path t w calls w')
    (hquiet : ∀ e ∈ calls.filter isEffect, isReplacement e = false)
    (hs : d'.settings = d.settings) : Untouched w d w' d' := by
  refine untouched_of_parts (path_parts h fun e he => ?_) hs
  cases heffect : isEffect e with
  | false => exact isReplacement_of_not_effect heffect
  | true => exact hquiet e (List.mem_filter.mpr ⟨he, heffect⟩)

/-- A watchlist that was replaced and not read again: the read failed, and the document stays. -/
theorem unread_after {document : WatchlistDocument} {r : Except Error (Option WatchlistDocument)}
    (h : World.bare.Path t w calls w')
    (hfx : calls.filter isEffect = [⟨.writeWatchlist document, .ok ()⟩, ⟨.readWatchlist, r⟩])
    (hv : document.version = 4) (hr : readable r = false) :
    w'.parts = (some document, w.parts.2) ∧
      (document ≠ w.document → WroteUnread w calls) := by
  obtain ⟨earlier, middle, later, rfl, hearlier, hmiddle, hlater⟩ := effects_pair hfx
  rw [List.append_assoc, System.path_append] at h
  obtain ⟨w₁, hbefore, h⟩ := h
  obtain ⟨w₂, hwrite, h⟩ := System.path_cons.mp h
  obtain ⟨w₃, hmid, h⟩ := System.path_append.mp h
  obtain ⟨w₄, ⟨hread, rfl⟩, hend⟩ := System.path_cons.mp h
  obtain rfl : w₂ = w₁.withDocument document := hwrite
  have hfirst := path_parts hbefore fun e he => isReplacement_of_not_effect (hearlier e he)
  have hparts := path_parts hmid fun e he => isReplacement_of_not_effect (hmiddle e he)
  have hafter := path_parts hend fun e he => isReplacement_of_not_effect (hlater e he)
  refine ⟨?_, fun hne => ?_⟩
  · rw [hafter, hparts, ← hfirst]
    rfl
  · cases r with
    | error e => exact ⟨earlier, document, middle, e, later, rfl, hne⟩
    | ok found =>
      -- the document that was written can be read
      have hwatchlist : w₄.watchlist = some document := congrArg Prod.fst hparts
      obtain rfl := hread found rfl
      simp [readable, hwatchlist, hv] at hr

/-- A failed control request leaves the watchlist, the configuration file, the active settings and
the window rules, unless it replaced the watchlist by another one that could not be read again. -/
theorem failed_request_untouched_iff {request : RpcRequest} {r : Except Error RpcResponse}
    (h : World.bare.Alone t w (handleControl request d) calls (r, d') w') :
    ∃ response, r = .ok response ∧
      ((response.error.isSome = true → Untouched w d w' d') ↔ ¬ WroteUnread w calls) := by
  obtain ⟨response, res, rfl, hanswers, houtcome⟩ := handleControl_outcome h.returns
  refine ⟨response, rfl, ?_⟩
  generalize hfx : calls.filter isEffect = fx at houtcome
  cases houtcome with
  | failed hstalled hs hm =>
    have hquiet : ∀ e ∈ calls.filter isEffect, isReplacement e = false := by
      rw [hfx]
      intro e he
      rcases hstalled with rfl | ⟨r, _, rfl⟩
      · cases he
      · obtain rfl := List.mem_singleton.mp he
        rfl
    refine ⟨fun _ => not_wroteUnread fun document hwrite => ?_, fun _ _ =>
      untouched_of_quiet h.path hquiet hs⟩
    cases hquiet _ hwrite
  | answered hc =>
    refine ⟨fun _ => not_wroteUnread fun document hwrite => ?_, fun _ herror => ?_⟩
    · rw [hfx] at hwrite
      cases hwrite
    · obtain ⟨e, he⟩ := hanswers.mp herror
      cases he
  | listed hc hs hm =>
    refine ⟨fun _ hunread => ?_, fun _ herror => ?_⟩
    · obtain ⟨document, e, _, _, hread⟩ := hunread.effects
      rw [hfx] at hread
      cases List.mem_singleton.mp hread
    · obtain ⟨e, he⟩ := hanswers.mp herror
      cases he
  | @unread document r e d' hv hr hs hm =>
    obtain ⟨hparts, hunread⟩ := unread_after h.path hfx hv hr
    simp only [World.parts, Prod.mk.injEq] at hparts
    have hdocument : w'.document = document := by
      simp only [World.document, hparts.1, Option.getD_some]
    refine ⟨fun huntouched hwrote => ?_, fun hwrote _ => ?_⟩
    · obtain ⟨document', e', hne, hwrite, _⟩ := hwrote.effects
      rw [hfx, List.mem_cons, List.mem_singleton] at hwrite
      rcases hwrite with hwrite | hwrite
      · cases hwrite
        exact hne (hdocument.symm.trans (huntouched (hanswers.mpr ⟨e, rfl⟩)).document)
      · cases hwrite
    · have hsame : document = w.document := by
        by_contra hne
        exact hwrote (hunread hne)
      exact ⟨hdocument.trans hsame, hparts.2.1, hparts.2.2.1, hs, hparts.2.2.2⟩
  | @stored change settings modified result d' hc happly hv hs hm =>
    refine ⟨fun _ => not_wroteUnread fun document hwrite => ?_, fun _ herror => ?_⟩
    · rw [hfx] at hwrite
      cases hconfigures : change.configures <;> simp [storing, hconfigures] at hwrite
    · obtain ⟨e, he⟩ := hanswers.mp herror
      cases he

/-! ## Membership changed by a request that failed -/

/-- The last read of the watchlist fails. -/
def unreadScript : List Turn := [.plain, .plain, .plain, .plain, .plain, .plain, .failing]

/-- An addition after which the watchlist cannot be read. -/
def unreadSample : List (Prog.Event Reply) × Except Error RpcResponse × WatchcatDaemon × World :=
  calmSample unreadScript addRequest freshSample.1 freshSample.2

/-- The failed addition has added the session. -/
theorem failed_request_adds : ¬ ∀ (w w' : World) (d d' : WatchcatDaemon) (t : Tid)
    (request : RpcRequest) (calls : List (Prog.Event Reply)) (response : RpcResponse),
    DaemonRun World.noisy w d →
    World.bare.Alone t w (handleControl request d) calls (.ok response, d') w' →
    response.error.isSome = true → Untouched w d w' d' := by
  intro hclaim
  have hx : World.bare.Alone .main freshSample.2 (handleControl addRequest freshSample.1)
      unreadSample.1 (unreadSample.2.1, unreadSample.2.2.1) unreadSample.2.2.2 :=
    (World.player .main).alone (by decide)
  obtain ⟨response, _, hresponse, _⟩ := handleControl_outcome hx.returns
  have herror : (responseError unreadSample.2.1).isSome = true := by decide
  rw [hresponse] at hx
  have huntouched := hclaim _ _ _ _ _ _ _ response freshSample_run hx
    (by simpa [responseError, hresponse, Except.toOption] using herror)
  have hchanged : unreadSample.2.2.2.document ≠ freshSample.2.document := by decide
  exact hchanged huntouched.document

/-- An addition that fails at the first read of the watchlist. -/
def refusedSample : List (Prog.Event Reply) × Except Error RpcResponse × WatchcatDaemon × World :=
  calmSample [.plain, .failing] addRequest freshSample.1 freshSample.2

theorem failed_request_untouched_iff_refused :
    (responseError refusedSample.2.1).isSome = true ∧
      Untouched freshSample.2 freshSample.1 refusedSample.2.2.2 refusedSample.2.2.1 := by
  have hx : World.bare.Alone .main freshSample.2 (handleControl addRequest freshSample.1)
      refusedSample.1 (refusedSample.2.1, refusedSample.2.2.1) refusedSample.2.2.2 :=
    (World.player .main).alone (by decide)
  have herror : (responseError refusedSample.2.1).isSome = true := by decide
  obtain ⟨response, hresponse, hiff⟩ := failed_request_untouched_iff hx
  refine ⟨herror, hiff.mpr ?_ (by simpa [responseError, hresponse, Except.toOption] using herror)⟩
  refine not_wroteUnread fun document hwrite => ?_
  have heffects : refusedSample.1.filter isEffect =
      [⟨.readWatchlist, .error unavailable⟩] := rfl
  rw [heffects] at hwrite
  cases List.mem_singleton.mp hwrite

end Watchcat
