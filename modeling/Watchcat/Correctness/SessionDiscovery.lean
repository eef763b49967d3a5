import Watchcat.Core.Paging
import Watchcat.Providers.CodexCatalog
import Watchcat.Transport.Exchanges

/-!
# Discovery of Codex sessions

The App Server serves a catalog of threads in pages: a cursor stands for a
position, a page has the next threads, and the next cursor is missing only at
the end. Whatever sizes the pages have, a search loses and repeats nothing, and
discovery finds every session up to its cutoff.
-/

namespace Watchcat

open Watchcat.Core Wire

/-- Requests for different pages have different parameters. -/
theorem listParams_inj {limit limit' : Nat} {cursor cursor' : Option String}
    (h : listParams cursor limit = listParams cursor' limit') :
    cursor = cursor' ∧ limit = limit' := by
  cases cursor <;> cases cursor' <;> simp_all [listParams]

/-- A catalog of threads: the sessions they stand for, and where each cursor stands. -/
structure ThreadCatalog [Rfc3339] where
  threads : List Value
  sessions : List Session
  parsed : List.Forall₂ (fun raw s => parseSession raw = .ok s) threads sessions
  position : String → Option Nat

namespace ThreadCatalog

variable [Rfc3339] (catalog : ThreadCatalog)

/-- Where a page begins. -/
def standsAt : Option String → Nat → Prop
  | none, k => k = 0
  | some cursor, k => catalog.position cursor = some k

/-- A page has the next threads, and none only at the end; its cursor stands behind them and is
missing only at the end. -/
def IsPage (cursor : Option String) (page : Value) : Prop :=
  ∀ k, catalog.standsAt cursor k → ∃ n,
    (page.get "data").bind Value.asArray = some ((catalog.threads.drop k).take n) ∧
    (n = 0 → catalog.threads.length ≤ k) ∧
    match page.textMember "nextCursor" with
    | none => catalog.threads.length ≤ k + n
    | some next => k + n ≤ catalog.threads.length ∧ catalog.position next = some (k + n)

/-- Every list request of a run that was answered was answered with a page of the catalog. -/
def Serves (tr : List (Prog.Event WireReply)) : Prop :=
  ∀ cursor limit page, Exchanged tr "thread/list" (listParams cursor limit) page →
    catalog.IsPage cursor page

variable {catalog} {tr tr' : List (Prog.Event WireReply)}

theorem Serves.left (h : catalog.Serves (tr ++ tr')) : catalog.Serves tr :=
  fun cursor limit page hpage => h cursor limit page hpage.append_right

theorem Serves.right (h : catalog.Serves (tr ++ tr')) : catalog.Serves tr' :=
  fun cursor limit page hpage => h cursor limit page hpage.append_left

theorem Serves.nil : catalog.Serves [] := fun _ _ _ hpage => absurd hpage not_exchanged_nil

theorem Serves.cons {e : Prog.Event WireReply} (he : ∀ message, e.1 ≠ .writeLine message)
    (h : catalog.Serves tr) : catalog.Serves (e :: tr) :=
  fun cursor limit page hpage => h cursor limit page (hpage.of_cons he)

/-- One more page. -/
theorem Serves.page {id limit : Nat} {cursor : Option String} {written : Except Error Unit}
    {events : List ReaderEvent}
    (hpage : ∀ page, readReply id events = .answered (.ok page) → catalog.IsPage cursor page)
    (h : catalog.Serves tr) : catalog.Serves
      (⟨.writeLine (requestLine "thread/list" id (listParams cursor limit)), written⟩ ::
        ⟨.awaitReply id, events⟩ :: tr) := by
  intro cursor' limit' page hexchanged
  rcases hexchanged.of_exchange with ⟨_, hparams, hread⟩ | hrest
  · obtain rfl := (listParams_inj hparams).1
    exact hpage page hread
  · exact h cursor' limit' page hrest

end ThreadCatalog

/-- A loop of conversions that all succeed. -/
theorem mapM_of_forall₂ {α β ε : Type} {f : α → Except ε β} {l : List α} {m : List β}
    (h : List.Forall₂ (fun a b => f a = .ok b) l m) : l.mapM f = .ok m := by
  induction h with
  | nil => rfl
  | cons hab _ ih => simp only [List.mapM_cons, hab, ih]; rfl

/-- The empty needle is in every session. -/
theorem matchesNeedle_empty (s : Session) : matchesNeedle (asciiLowercase "") s = true := by
  simp [matchesNeedle, asciiLowercase]

/-- The dated sessions of a list are in the order of their activity, the newest first. -/
def NewestFirst (sessions : List Session) : Prop :=
  sessions.Pairwise fun a b => ∀ ta tb, a.updatedAt = some ta → b.updatedAt = some tb → tb ≤ ta

/-- Behind a session older than the cutoff no session is at or after it. -/
theorem NewestFirst.mem_take {sessions : List Session} (h : NewestFirst sessions) {cutoff : Int}
    {m : Nat} {old s : Session} {told t : Int} (hold : old ∈ sessions.take m)
    (htold : old.updatedAt = some told) (hcutoff : told < cutoff) (hs : s ∈ sessions)
    (ht : s.updatedAt = some t) (hrecent : cutoff ≤ t) : s ∈ sessions.take m := by
  rw [← List.take_append_drop m sessions] at hs h
  rcases List.mem_append.mp hs with hs | hs
  · exact hs
  · have := (List.pairwise_append.mp h).2.2 old hold s hs told t htold ht
    omega

section

variable [Rfc3339] {catalog : ThreadCatalog}

/-- Where the cursors of the App Server stand. -/
def ThreadCatalog.leadsOn (catalog : ThreadCatalog) (selects : Session → Bool) (k : Nat)
    (items : List Session) (next : Option String) : Prop :=
  LeadsOn (fun next m => catalog.position next = some m) catalog.sessions selects k items next

namespace CodexProvider

/-- A list request leads on in the catalog. -/
theorem listThreads_returns {p p' : CodexProvider} {cursor : Option String} {k limit : Nat}
    {tr : List (Prog.Event WireReply)} {r : Option (List Session × Option String)}
    (hserves : catalog.Serves tr) (hk : catalog.standsAt cursor k)
    (h : (listThreads cursor limit).Returns p tr (.ok r) p') :
    (r = none ∧ catalog.sessions.length ≤ k) ∨
      ∃ found next, r = some (found, next) ∧ catalog.leadsOn (fun _ => true) k found next := by
  obtain ⟨first, second, page, mid, rfl, hclient, hrest⟩ := Act.returns_andThen_ok.mp h
  obtain ⟨c, hrequest, hmid⟩ := Act.returns_zoom.mp hclient
  obtain ⟨n, hdata, hempty, hnext⟩ :=
    hserves.left cursor limit page (JsonRpcClient.request_returns hrequest) k hk
  have hlength := catalog.parsed.length_eq
  have hfound : ((catalog.threads.drop k).take n).mapM parseSession =
      .ok ((catalog.sessions.drop k).take n) :=
    mapM_of_forall₂ (List.forall₂_take _ (List.forall₂_drop _ catalog.parsed))
  rw [hdata] at hrest
  cases hthreads : (catalog.threads.drop k).take n with
  | nil =>
    rw [hthreads] at hrest
    obtain ⟨_, hr, _⟩ := Act.returns_ret.mp hrest
    refine .inl ⟨Except.ok.inj hr, ?_⟩
    rcases List.take_eq_nil_iff.mp hthreads with hzero | hnil
    · exact hlength ▸ hempty hzero
    · exact hlength ▸ List.drop_eq_nil_iff.mp hnil
  | cons raw data =>
    rw [hthreads] at hrest hfound
    simp only [hfound] at hrest
    obtain ⟨_, hr, _⟩ := Act.returns_ret.mp hrest
    refine .inr ⟨_, _, Except.ok.inj hr, k + n, Nat.le_add_right k n, ?_, ?_⟩
    · rw [List.filter_true, List.drop_take, Nat.add_sub_cancel_left]
    · have hpos : n ≠ 0 := fun hzero => by simp [hzero] at hthreads
      split at hnext
      · rename_i hnone
        rw [hnone, ← hlength]
        exact hnext
      · rename_i next hsome
        rw [hsome, ← hlength]
        exact ⟨by omega, hnext⟩

/-- A search from a position shows what matches up to another one, or has no page to read. -/
theorem searchFrom_returns {p p' : CodexProvider} {needle : String} {limit pages k : Nat}
    {cursor : Option String} {shown : List Session} {tr : List (Prog.Event WireReply)}
    {r : List Session × Option String} (hserves : catalog.Serves tr)
    (hk : catalog.standsAt cursor k)
    (h : (searchFrom needle limit pages cursor shown).Returns p tr (.ok r) p') :
    (r = (shown, cursor) ∧ (pages = 0 ∨ limit ≤ shown.length)) ∨
      ∃ items, r.1 = shown ++ items ∧ catalog.leadsOn (matchesNeedle needle) k items r.2 := by
  induction pages generalizing p cursor shown k tr with
  | zero =>
    obtain ⟨_, hr, _⟩ := Act.returns_ret.mp h
    exact .inl ⟨Except.ok.inj hr, .inl rfl⟩
  | succ pages ih =>
    rw [searchFrom] at h
    by_cases hlimit : shown.length < limit
    · rw [if_pos hlimit] at h
      obtain ⟨first, second, page, mid, rfl, hpage, hrest⟩ := Act.returns_andThen_ok.mp h
      right
      rcases listThreads_returns hserves.left hk hpage with ⟨rfl, hend⟩ | ⟨found, next, rfl, hlead⟩
      · obtain ⟨_, hr, _⟩ := Act.returns_ret.mp hrest
        rw [Except.ok.inj hr]
        exact ⟨[], (List.append_nil _).symm, .nil hend⟩
      · have hmatches : catalog.leadsOn (matchesNeedle needle) k
            (found.filter (matchesNeedle needle)) next := hlead.filter
        cases next with
        | none =>
          obtain ⟨_, hr, _⟩ := Act.returns_ret.mp hrest
          rw [Except.ok.inj hr]
          exact ⟨_, rfl, hmatches⟩
        | some next =>
          have hposition := hmatches
          obtain ⟨m, _, _, _, _, hm⟩ := hposition
          have hstands : catalog.standsAt (some next) m := hm
          rcases ih hserves.right hstands hrest with ⟨rfl, _⟩ | ⟨items, hshown, hitems⟩
          · exact ⟨_, rfl, hmatches⟩
          · refine ⟨found.filter (matchesNeedle needle) ++ items, ?_,
              hmatches.trans fun m' _ hm' => ?_⟩
            · rw [hshown, List.append_assoc]
            · rwa [Option.some.inj (hm'.symm.trans hm)]
    · rw [if_neg hlimit] at h
      obtain ⟨_, hr, _⟩ := Act.returns_ret.mp h
      exact .inl ⟨Except.ok.inj hr, .inr (Nat.not_lt.mp hlimit)⟩

/-- Where a cursor of a search stands. -/
def SearchStands (catalog : ThreadCatalog) (codec : CursorCodec) (query : String)
    (cursor : Option String) (k : Nat) : Prop :=
  ∃ position, searchPosition codec query cursor = .ok position ∧ catalog.standsAt position k

/-- A page of a search leads on. -/
theorem searchSessions_returns {codec : CursorCodec}
    {p p' : CodexProvider} {version query : String}
    (hcodec : ∀ next, codec.decode (codec.encode ⟨query, some next⟩) = .ok ⟨query, some next⟩)
    {cursor : Option String} {limit k : Nat}
    {page : SessionSearchPage} {tr : List (Prog.Event WireReply)} (hlimit : 1 ≤ limit)
    (hserves : catalog.Serves tr) (hk : SearchStands catalog codec query cursor k)
    (h : (searchSessions codec version query cursor limit).Returns p tr (.ok page) p') :
    LeadsOn (fun next m => SearchStands catalog codec query (some next) m) catalog.sessions
      (matchesNeedle (asciiLowercase query)) k page.sessions page.nextCursor := by
  obtain ⟨position, hposition, hk⟩ := hk
  obtain ⟨first, second, _, mid, rfl, hstarted, hrest⟩ := Act.returns_andThen_ok.mp h
  rw [hposition, Act.bind_eq, Act.ofExcept_ok_andThen] at hrest
  obtain ⟨third, fourth, r, last, rfl, hsearch, hreturn⟩ := Act.returns_andThen_ok.mp hrest
  obtain ⟨rfl, hpage, _⟩ := Act.returns_ret.mp hreturn
  obtain rfl := Except.ok.inj hpage
  rcases searchFrom_returns hserves.right.left hk hsearch with
    ⟨_, hnone | hfull⟩ | ⟨items, hshown, hlead⟩
  · exact absurd hnone (by decide)
  · exact absurd hfull (by simp; omega)
  · obtain ⟨m, hkm, hitems, hnext⟩ := hlead
    refine ⟨m, hkm, hshown.trans hitems, ?_⟩
    cases hcursor : r.2 with
    | none =>
      rw [hcursor] at hnext
      exact hnext
    | some next =>
      rw [hcursor] at hnext
      refine ⟨hnext.1, hnext.2.1, some next, ?_, hnext.2.2⟩
      simp only [searchPosition, hcodec, ne_eq, not_true_eq_false, if_false]

/-- A page of a search over a catalog. -/
def SearchPage (catalog : ThreadCatalog) (codec : CursorCodec) (version query : String)
    (limit : Nat) : Fetch CodexProvider Session String := fun p cursor sessions next p' =>
  ∃ tr, catalog.Serves tr ∧
    (searchSessions codec version query cursor limit).Returns p tr (.ok ⟨sessions, next⟩) p'

end CodexProvider

/-- Who follows the cursors of a search sees the matching sessions of the catalog from its
beginning, each once and in its order, and all of them where the cursors end; they end after at most
one page more than the catalog has sessions. -/
theorem search_follows_catalog {codec : CursorCodec} {version query : String}
    (hcodec : ∀ next, codec.decode (codec.encode ⟨query, some next⟩) = .ok ⟨query, some next⟩)
    {limit n : Nat} (hlimit : 1 ≤ limit) {p p' : CodexProvider}
    {out : List Session} {last : Option String}
    (h : Paged (CodexProvider.SearchPage catalog codec version query limit) p none n out last p') :
    out <+: catalog.sessions.filter (matchesNeedle (asciiLowercase query)) ∧
      (last = none → out = catalog.sessions.filter (matchesNeedle (asciiLowercase query))) ∧
      n ≤ catalog.sessions.length + 1 := by
  have hserves : Serves (CodexProvider.SearchPage catalog codec version query limit)
      (fun _ cursor k => CodexProvider.SearchStands catalog codec query cursor k)
      catalog.sessions (matchesNeedle (asciiLowercase query)) := by
    rintro p cursor k items next p' hk ⟨tr, htr, hpage⟩
    exact CodexProvider.searchSessions_returns hcodec hlimit htr hk hpage
  have hstart : CodexProvider.SearchStands catalog codec query none 0 := ⟨none, rfl, rfl⟩
  obtain ⟨⟨m, _, hout, _⟩, hn⟩ := hserves.paged hstart h
  refine ⟨?_, ?_, by simpa using hn⟩
  · rw [hout, List.drop_zero]
    exact (List.take_prefix m catalog.sessions).filter _
  · rintro rfl
    simpa using hserves.ended hstart h

/-! ## Discovery up to a cutoff -/

namespace CodexProvider

/-- A cursor of a search stands at one place. -/
theorem SearchStands.unique {codec : CursorCodec} {query : String} {cursor : Option String}
    {j k : Nat} (hj : SearchStands catalog codec query cursor j)
    (hk : SearchStands catalog codec query cursor k) : j = k := by
  obtain ⟨position, hposition, hj⟩ := hj
  obtain ⟨position', hposition', hk⟩ := hk
  obtain rfl := Except.ok.inj (hposition.symm.trans hposition')
  cases position with
  | none => exact hj.trans hk.symm
  | some next => exact Option.some.inj (hj.symm.trans hk)

/-- What the loop of discovery ends with: a beginning of the catalog with every session at or after
the cutoff, or the error of a search. -/
theorem recentFrom_returns {codec : CursorCodec}
    (hcodec : ∀ next, codec.decode (codec.encode ⟨"", some next⟩) = .ok ⟨"", some next⟩)
    {version : String} {cutoff : Int} (hnewest : NewestFirst catalog.sessions) {rounds k : Nat}
    {cursor : Option String} {seen : List String} {p p' : CodexProvider}
    {tr : List (Prog.Event WireReply)} {r : Except Error (Option (List Session))}
    (hserves : catalog.Serves tr) (hk : SearchStands catalog codec "" cursor k)
    (hrounds : catalog.sessions.length - k < rounds)
    (hseen : ∀ next ∈ seen, ∃ j ≤ k, SearchStands catalog codec "" (some next) j)
    (h : (recentFrom codec version cutoff rounds cursor seen (catalog.sessions.take k)).Returns
      p tr r p') :
    (∃ sessions, r = .ok (some sessions) ∧ sessions <+: catalog.sessions ∧
      ∀ s ∈ catalog.sessions, (∃ t, s.updatedAt = some t ∧ cutoff ≤ t) → s ∈ sessions) ∨
    ∃ e first second mid position, r = .error e ∧ tr = first ++ second ∧
      (searchSessions codec version "" position 500).Returns mid second (.error e) p' := by
  induction rounds generalizing k cursor seen p tr with
  | zero => omega
  | succ rounds ih =>
    rw [recentFrom, Act.bind_eq, Act.returns_andThen] at h
    rcases h with ⟨e, rfl, hpage⟩ | ⟨first, second, page, mid, rfl, hpage, hrest⟩
    · exact .inr ⟨e, [], tr, p, cursor, rfl, rfl, hpage⟩
    obtain ⟨m, hkm, hitems, hnext⟩ :=
      searchSessions_returns hcodec (by decide) hserves.left hk hpage
    have hread : catalog.sessions.take k ++ page.sessions = catalog.sessions.take m := by
      rw [hitems, List.filter_eq_self.mpr fun s _ => matchesNeedle_empty s]
      exact drop_take_append_drop_take catalog.sessions (Nat.zero_le k) hkm
    have hsub : ∀ s ∈ page.sessions, s ∈ catalog.sessions.take m := fun s hs =>
      hread ▸ List.mem_append_right _ hs
    simp only [hread] at hrest
    split at hrest
    · -- a session of the page is older than the cutoff
      rename_i hany
      obtain ⟨_, rfl, _⟩ := Act.returns_ret.mp hrest
      refine .inl ⟨_, rfl, List.take_prefix m _, fun s hs ⟨t, ht, hrecent⟩ => ?_⟩
      obtain ⟨old, hold, hdated⟩ := List.any_eq_true.mp hany
      obtain ⟨told, htold, hcutoff⟩ := (Option.any_eq_true _ _).mp hdated
      exact hnewest.mem_take (hsub old hold) htold (of_decide_eq_true hcutoff) hs ht hrecent
    · cases hcursor : page.nextCursor with
      | none =>
        simp only [hcursor] at hrest hnext
        obtain ⟨_, rfl, _⟩ := Act.returns_ret.mp hrest
        refine .inl ⟨_, rfl, List.take_prefix m _, fun s hs _ => ?_⟩
        rwa [List.take_of_length_le hnext]
      | some next =>
        simp only [hcursor] at hrest hnext
        obtain ⟨hlt, hml, hstands⟩ := hnext
        have hbefore : ∀ seen' ∈ next :: seen,
            ∃ j ≤ m, SearchStands catalog codec "" (some seen') j := by
          intro seen' hmem
          rcases List.mem_cons.mp hmem with rfl | hmem
          · exact ⟨m, Nat.le_refl m, hstands⟩
          · obtain ⟨j, hj, hstands'⟩ := hseen seen' hmem
            exact ⟨j, by omega, hstands'⟩
        -- each cursor stands behind those before it, so that none comes again
        have hfresh : seen.contains next = false := by
          refine Bool.eq_false_iff.mpr fun hcontains => ?_
          obtain ⟨j, hj, hstands'⟩ := hseen next (List.contains_iff_mem.mp hcontains)
          have := hstands'.unique hstands
          omega
        rw [hfresh, if_neg Bool.false_ne_true] at hrest
        rcases ih hserves.right hstands (by omega) hbefore hrest with
          hfound | ⟨e, third, fourth, mid', position, hr, rfl, hpage'⟩
        · exact .inl hfound
        · exact .inr ⟨e, first ++ third, fourth, mid', position, hr, by rw [List.append_assoc],
            hpage'⟩

end CodexProvider

/-- Discovery of Codex sessions ends after no more searches than the catalog has sessions, but one:
it never takes a cursor of the App Server for a repeated one, and returns a beginning of the catalog
with every session at or after the cutoff, unless one of its searches fails. -/
theorem discovery_reaches_cutoff {codec : CursorCodec}
    (hcodec : ∀ next, codec.decode (codec.encode ⟨"", some next⟩) = .ok ⟨"", some next⟩)
    {version : String} {cutoff : Int} (hnewest : NewestFirst catalog.sessions) {rounds : Nat}
    (hrounds : catalog.sessions.length < rounds) {p p' : CodexProvider}
    {tr : List (Prog.Event WireReply)} {r : Except Error (Option (List Session))}
    (hserves : catalog.Serves tr)
    (h : (CodexProvider.recentSessions codec version cutoff rounds).Returns p tr r p') :
    (∃ sessions, r = .ok (some sessions) ∧ sessions <+: catalog.sessions ∧
      ∀ s ∈ catalog.sessions, (∃ t, s.updatedAt = some t ∧ cutoff ≤ t) → s ∈ sessions) ∨
    ∃ e first second mid position, r = .error e ∧ tr = first ++ second ∧
      (CodexProvider.searchSessions codec version "" position 500).Returns mid second
        (.error e) p' :=
  CodexProvider.recentFrom_returns hcodec hnewest hserves ⟨none, rfl, rfl⟩ (by omega)
    (fun _ hmem => absurd hmem List.not_mem_nil) h

/-! ## Lists of sessions -/

namespace CodexProvider

/-- The loop of a list goes on from what it has to the limit or to the end of the catalog. -/
theorem listFrom_returns {limit rounds k : Nat} {cursor : Option String} {p p' : CodexProvider}
    {tr : List (Prog.Event WireReply)} {sessions : List Session} (hserves : catalog.Serves tr)
    (hk : catalog.standsAt cursor k) (hkl : k ≤ catalog.sessions.length)
    (hrounds : limit - k ≤ rounds)
    (h : (listFrom limit rounds cursor (catalog.sessions.take k)).Returns p tr (.ok sessions) p') :
    ∃ m, sessions = catalog.sessions.take m ∧ (limit ≤ m ∨ catalog.sessions.length ≤ m) := by
  induction rounds generalizing k cursor p tr with
  | zero =>
    obtain ⟨_, hr, _⟩ := Act.returns_ret.mp h
    exact ⟨k, Except.ok.inj hr, .inl (by omega)⟩
  | succ rounds ih =>
    rw [listFrom] at h
    split at h
    · obtain ⟨first, second, page, mid, rfl, hpage, hrest⟩ := Act.returns_andThen_ok.mp h
      rcases listThreads_returns hserves.left hk hpage with ⟨rfl, hend⟩ | ⟨found, next, rfl, hlead⟩
      · obtain ⟨_, hr, _⟩ := Act.returns_ret.mp hrest
        exact ⟨k, Except.ok.inj hr, .inr hend⟩
      · obtain ⟨m, hkm, hitems, hnext⟩ := hlead
        have hread : catalog.sessions.take k ++ found = catalog.sessions.take m := by
          rw [hitems, List.filter_true]
          exact drop_take_append_drop_take catalog.sessions (Nat.zero_le k) hkm
        cases next with
        | none =>
          simp only [hread] at hrest
          obtain ⟨_, hr, _⟩ := Act.returns_ret.mp hrest
          exact ⟨m, Except.ok.inj hr, .inr hnext⟩
        | some next =>
          simp only [hread] at hrest
          obtain ⟨hlt, hml, hposition⟩ := hnext
          have hstands : catalog.standsAt (some next) m := hposition
          exact ih hserves.right hstands hml (by omega) hrest
    · rename_i hfull
      obtain ⟨_, hr, _⟩ := Act.returns_ret.mp h
      rw [List.length_take_of_le hkl] at hfull
      exact ⟨k, Except.ok.inj hr, .inl (by omega)⟩

end CodexProvider

/-- A list of sessions is the beginning of the catalog up to its limit, whatever sizes the pages
have. -/
theorem list_is_catalog_prefix {version : String} {limit : Nat} {p p' : CodexProvider}
    {tr : List (Prog.Event WireReply)} {sessions : List Session} (hserves : catalog.Serves tr)
    (h : (CodexProvider.listSessions version limit).Returns p tr (.ok sessions) p') :
    sessions = catalog.sessions.take limit := by
  obtain ⟨first, second, _, mid, rfl, _, hrest⟩ := Act.returns_andThen_ok.mp h
  obtain ⟨third, fourth, listed, last, rfl, hlist, hreturn⟩ := Act.returns_andThen_ok.mp hrest
  obtain ⟨rfl, hr, _⟩ := Act.returns_ret.mp hreturn
  have hstart : catalog.standsAt none 0 := rfl
  obtain ⟨m, rfl, hm⟩ := CodexProvider.listFrom_returns hserves.right.left hstart
    (Nat.zero_le _) (Nat.le_refl _) hlist
  rw [Except.ok.inj hr, List.take_take]
  rcases hm with hm | hm
  · rw [Nat.min_eq_left hm]
  · rw [List.take_eq_take_iff]
    omega

end

section Sample

attribute [local instance] sampleRfc3339

/-- A thread for samples. -/
def sampleThread (id : String) (updatedAt : Nat) : Value :=
  .obj [("id", .str id), ("name", .str id), ("status", .obj [("type", .str "idle")]),
    ("updatedAt", .int updatedAt)]

/-- A session for samples. -/
def sampleListed (id : String) (updatedAt : Nat) : Session :=
  ⟨"codex", id, id, .idle, gregorian.date (seconds updatedAt)⟩

/-- The threads of the sample: only the first and the last one match its query. -/
def sampleNames : List (String × Nat) :=
  [("ab", 700), ("b", 600), ("c", 500), ("d", 400), ("e", 300), ("f", 200), ("ac", 100)]

/-- The cursors of the sample, each behind one more thread. -/
def samplePositions : List String := ["1", "2", "3", "4", "5", "6"]

/-- A catalog of these threads. -/
def sampleCatalog : ThreadCatalog where
  threads := sampleNames.map fun thread => sampleThread thread.1 thread.2
  sessions := sampleNames.map fun thread => sampleListed thread.1 thread.2
  parsed := .cons rfl (.cons rfl (.cons rfl (.cons rfl (.cons rfl (.cons rfl (.cons rfl .nil))))))
  position cursor := (samplePositions.idxOf? cursor).map (· + 1)

/-- The pages of the sample, a thread on each. -/
def samplePages : List Value := (List.range 7).map fun k =>
  .obj [("data", .arr ((sampleCatalog.threads.drop k).take 1)),
    ("nextCursor", (samplePositions[k]?.map Value.str).getD .null)]

/-- The cursor before the thread of a number. -/
def sampleCursorAt : Nat → Option String
  | 0 => none
  | k + 1 => samplePositions[k]?

theorem sampleCatalog_page {k : Nat} (hk : k < 7) :
    sampleCatalog.IsPage (sampleCursorAt k) (samplePages.getD k .null) := by
  intro j hj
  have hcases : k = 0 ∨ k = 1 ∨ k = 2 ∨ k = 3 ∨ k = 4 ∨ k = 5 ∨ k = 6 := by omega
  have hstands : k = j := by
    rcases hcases with rfl | rfl | rfl | rfl | rfl | rfl | rfl <;>
      first | exact hj.symm | exact Option.some.inj hj
  subst hstands
  -- behind the last thread there is no cursor
  rcases hcases with rfl | rfl | rfl | rfl | rfl | rfl | rfl <;>
    first | exact ⟨1, rfl, nofun, by decide, rfl⟩ | exact ⟨1, rfl, nofun, Nat.le_refl 7⟩

/-- The App Server of the sample answers its requests with the pages in turn. -/
theorem samplePages_answered {k : Nat} (hk : k < 7) {cursor : Option String}
    (hcursor : cursor = sampleCursorAt k) : ∀ page,
    readReply k (sampleAppServer samplePages (.awaitReply k)) = .answered (.ok page) →
      sampleCatalog.IsPage cursor page := by
  intro page hpage
  have hread : readReply k (sampleAppServer samplePages (.awaitReply k)) =
      .answered (.ok (samplePages.getD k .null)) := by
    have hcases : k = 0 ∨ k = 1 ∨ k = 2 ∨ k = 3 ∨ k = 4 ∨ k = 5 ∨ k = 6 := by omega
    rcases hcases with rfl | rfl | rfl | rfl | rfl | rfl | rfl <;> rfl
  obtain rfl := Except.ok.inj (ReplyWait.answered.inj (hread.symm.trans hpage))
  exact hcursor ▸ sampleCatalog_page hk

/-- The beginning of a cursor, where nothing in the query is to be escaped. -/
def sampleCursorStart (query : String) : List Char :=
  ("\x7b\"query\":\"" ++ query ++ "\",\"provider_cursor\":\"").toList

/-- The cursors of a search, where nothing in them is to be escaped. -/
def sampleCursors (query : String) : CursorCodec where
  encode position := String.ofList (sampleCursorStart query ++
    (position.providerCursor.getD "").toList ++ ['"', '\x7d'])
  decode cursor := .ok ⟨query, some (String.ofList
    (cursor.toList.drop (sampleCursorStart query).length).dropLast.dropLast)⟩

theorem sampleCursors_decode (query next : String) :
    (sampleCursors query).decode ((sampleCursors query).encode ⟨query, some next⟩) =
      .ok ⟨query, some next⟩ := by
  simp [sampleCursors, List.append_assoc]

/-- A provider whose App Server runs. -/
def sampleConnected (nextId : Nat) : CodexProvider := ⟨⟨true, true, nextId⟩, true⟩

/-- A search of the sample. -/
def sampleSearch (nextId : Nat) (cursor : Option String) :
    List (Prog.Event WireReply) × Except Error SessionSearchPage × CodexProvider :=
  (CodexProvider.searchSessions (sampleCursors "A") "0.1.0" "A" cursor 1
    (sampleConnected nextId)).execute (sampleAppServer samplePages)

/-- The cursor of a search behind a thread. -/
def sampleNext (cursor : String) : String := (sampleCursors "A").encode ⟨"A", some cursor⟩

/-- Three searches show both sessions that match: the second one stops after five pages without
one. -/
theorem search_follows_catalog_sample :
    [sampleListed "ab" 700, sampleListed "ac" 100] <+:
        sampleCatalog.sessions.filter (matchesNeedle (asciiLowercase "A")) ∧
      ((none : Option String) = none → [sampleListed "ab" 700, sampleListed "ac" 100] =
        sampleCatalog.sessions.filter (matchesNeedle (asciiLowercase "A"))) ∧
      3 ≤ sampleCatalog.sessions.length + 1 := by
  have hfirst : CodexProvider.SearchPage sampleCatalog (sampleCursors "A") "0.1.0" "A" 1
      (sampleConnected 0) none [sampleListed "ab" 700] (some (sampleNext "1"))
      (sampleConnected 1) := by
    refine ⟨(sampleSearch 0 none).1, ?_, Prog.execute_returns (sampleAppServer samplePages) _⟩
    exact .cons nofun (.page (samplePages_answered (k := 0) (by decide) rfl) .nil)
  have hsecond : CodexProvider.SearchPage sampleCatalog (sampleCursors "A") "0.1.0" "A" 1
      (sampleConnected 1) (some (sampleNext "1")) [] (some (sampleNext "6"))
      (sampleConnected 6) := by
    refine ⟨(sampleSearch 1 (some (sampleNext "1"))).1, ?_,
      Prog.execute_returns (sampleAppServer samplePages) _⟩
    exact .cons nofun (.page (samplePages_answered (k := 1) (by decide) rfl)
      (.page (samplePages_answered (k := 2) (by decide) rfl)
        (.page (samplePages_answered (k := 3) (by decide) rfl)
          (.page (samplePages_answered (k := 4) (by decide) rfl)
            (.page (samplePages_answered (k := 5) (by decide) rfl) .nil)))))
  have hthird : CodexProvider.SearchPage sampleCatalog (sampleCursors "A") "0.1.0" "A" 1
      (sampleConnected 6) (some (sampleNext "6")) [sampleListed "ac" 100] none
      (sampleConnected 7) := by
    refine ⟨(sampleSearch 6 (some (sampleNext "6"))).1, ?_,
      Prog.execute_returns (sampleAppServer samplePages) _⟩
    exact .cons nofun (.page (samplePages_answered (k := 6) (by decide) rfl) .nil)
  exact search_follows_catalog (sampleCursors_decode "A") (by decide)
    (.more hfirst (.more hsecond (.one hthird)))

theorem sampleCatalog_newestFirst : NewestFirst sampleCatalog.sessions := by
  have hdates : sampleCatalog.sessions.map Session.updatedAt =
      [700, 600, 500, 400, 300, 200, 100].map fun updated => some (seconds updated) := by decide
  have hordered : (([700, 600, 500, 400, 300, 200, 100] : List Int).map fun updated =>
      some (seconds updated)).Pairwise fun a b => ∀ ta tb, a = some ta → b = some tb →
        tb ≤ ta := by
    simp [seconds]
  rw [← hdates] at hordered
  exact List.pairwise_map.mp hordered

/-- Discovery of the sample. -/
def sampleDiscovery : List (Prog.Event WireReply) × Except Error (Option (List Session)) ×
    CodexProvider :=
  (CodexProvider.recentSessions (sampleCursors "") "0.1.0" (seconds 650) 8
    (sampleConnected 0)).execute (sampleAppServer samplePages)

/-- Discovery finds the session behind the cutoff. -/
theorem discovery_reaches_cutoff_sample :
    ∃ sessions, sampleDiscovery.2.1 = .ok (some sessions) ∧ sampleListed "ab" 700 ∈ sessions := by
  have hserves : sampleCatalog.Serves sampleDiscovery.1 := by
    exact .cons nofun (.page (samplePages_answered (k := 0) (by decide) rfl)
      (.page (samplePages_answered (k := 1) (by decide) rfl)
        (.page (samplePages_answered (k := 2) (by decide) rfl)
          (.page (samplePages_answered (k := 3) (by decide) rfl)
            (.page (samplePages_answered (k := 4) (by decide) rfl) .nil)))))
  rcases discovery_reaches_cutoff (sampleCursors_decode "") sampleCatalog_newestFirst (by decide)
      hserves (Prog.execute_returns (sampleAppServer samplePages) _) with
    ⟨sessions, hr, _, hall⟩ | ⟨e, _, _, _, _, hr, _⟩
  · exact ⟨sessions, hr, hall _ List.mem_cons_self ⟨seconds 700, by decide, by decide⟩⟩
  · cases hr

/-- A list of two of the sessions. -/
theorem list_is_catalog_prefix_sample :
    [sampleListed "ab" 700, sampleListed "b" 600] = sampleCatalog.sessions.take 2 := by
  have hserves : sampleCatalog.Serves ((CodexProvider.listSessions "0.1.0" 2
      (sampleConnected 0)).execute (sampleAppServer samplePages)).1 := by
    exact .cons nofun (.page (samplePages_answered (k := 0) (by decide) rfl)
      (.page (samplePages_answered (k := 1) (by decide) rfl) .nil))
  exact list_is_catalog_prefix hserves (Prog.execute_returns (sampleAppServer samplePages)
    (CodexProvider.listSessions "0.1.0" 2 (sampleConnected 0)))

end Sample

end Watchcat
