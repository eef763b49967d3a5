import Watchcat.Core.Paging
import Watchcat.Correctness.Transcripts
import Watchcat.Providers.ClaudeCatalog
import Watchcat.Providers.Transcripts

/-!
# Pages of Claude sessions

As long as the transcripts do not change, the pages of a search partition what
the query selects, in the order of the catalog: dated sessions first, the newest
of them first.
-/

namespace Watchcat

open Watchcat.Core

/-! ## The order of a catalog -/

theorem notEarlier_total (a b : Option Int) : notEarlier a b = true ∨ notEarlier b a = true := by
  cases a <;> cases b <;> simp [notEarlier]
  exact le_total _ _

theorem notEarlier_trans {a b c : Option Int} (hab : notEarlier a b = true)
    (hbc : notEarlier b c = true) : notEarlier a c = true := by
  cases a <;> cases b <;> cases c <;> simp [notEarlier] at hab hbc ⊢
  exact hbc.trans hab

theorem notEarlier_antisymm {a b : Option Int} (hab : notEarlier a b = true)
    (hba : notEarlier b a = true) : a = b := by
  cases a <;> cases b <;> simp [notEarlier] at hab hba ⊢
  exact le_antisymm hba hab

theorem newestFirst_iff {a b : Session} : newestFirst a b = true ↔
    notEarlier a.updatedAt b.updatedAt = true ∧ (a.updatedAt = b.updatedAt → a.id ≤ b.id) := by
  simp [newestFirst, Decidable.imp_iff_not_or]

theorem newestFirst_total (a b : Session) : (newestFirst a b || newestFirst b a) = true := by
  rw [Bool.or_eq_true, newestFirst_iff, newestFirst_iff]
  by_cases heq : a.updatedAt = b.updatedAt
  · rw [heq]
    have hself : notEarlier b.updatedAt b.updatedAt = true :=
      (notEarlier_total b.updatedAt b.updatedAt).elim id id
    rcases le_total a.id b.id with hle | hle
    · exact .inl ⟨hself, fun _ => hle⟩
    · exact .inr ⟨hself, fun _ => hle⟩
  · rcases notEarlier_total a.updatedAt b.updatedAt with h | h
    · exact .inl ⟨h, fun h' => absurd h' heq⟩
    · exact .inr ⟨h, fun h' => absurd h'.symm heq⟩

theorem newestFirst_trans (a b c : Session) (hab : newestFirst a b = true)
    (hbc : newestFirst b c = true) : newestFirst a c = true := by
  rw [newestFirst_iff] at hab hbc ⊢
  refine ⟨notEarlier_trans hab.1 hbc.1, fun heq => ?_⟩
  have hab' : a.updatedAt = b.updatedAt := notEarlier_antisymm hab.1 (heq ▸ hbc.1)
  exact (hab.2 hab').trans (hbc.2 (hab'.symm.trans heq))

theorem catalog_pairwise (p : ClaudeProvider) :
    p.catalog.Pairwise fun a b => newestFirst a b = true :=
  List.pairwise_mergeSort newestFirst_trans newestFirst_total _

theorem catalog_perm (p : ClaudeProvider) :
    p.catalog.Perm (p.transcripts.values.map Transcript.listed) := List.mergeSort_perm _ _

theorem length_catalog_le {q : ClaudeProvider} (hsize : q.transcripts.size ≤ u64Max) :
    q.catalog.length ≤ u64Max := by
  rw [(catalog_perm q).length_eq, List.length_map]
  exact (List.length_map _).trans_le hsize

/-! ## Following the cursors of a search -/

theorem containsText_self (text : String) : containsText text text = true := by
  rw [containsText, List.any_eq_true]
  exact ⟨text.toList, (List.mem_tails _ _).mpr List.suffix_rfl, List.isPrefixOf_iff_prefix.mpr
    List.prefix_rfl⟩

section

variable [TranscriptFormat]

namespace ClaudeProvider

variable {p q : ClaudeProvider} {projects : ProjectsView}

theorem settled (h : p.refresh projects = (q, .ok ())) : q.refresh projects = (q, .ok ()) := by
  match projects with
  | none => rw [← (Prod.mk.inj h).1]; rfl
  | some (.error e) => exact absurd (Prod.mk.inj h).2 nofun
  | some (.ok _) => exact refresh_again h

variable [Lowercase] {query : String} {limit : Nat}

/-- A page of a search over the projects. -/
def SearchPage (projects : ProjectsView) (query : String) (limit : Nat) :
    Fetch ClaudeProvider Session String := fun p cursor sessions next p' =>
  p.searchSessions projects query cursor limit = (p', .ok ⟨sessions, next⟩)

theorem searchSessions_eq (h : p.refresh projects = (q, .ok ()))
    (hsize : q.transcripts.size ≤ u64Max) (cursor : Option String) {start : Nat}
    (hstart : cursorStart cursor = .ok start) :
    p.searchSessions projects query cursor limit =
      (q, .ok (pageOf (q.catalog.filter (selects query)) start limit)) := by
  have hlist : p.listSessions projects u64Max = (q, .ok q.catalog) := by
    simp only [listSessions, h, List.take_of_length_le (length_catalog_le hsize)]
  simp only [searchSessions, hlist, hstart]

/-- The pages of a search serve what the query selects. -/
theorem searchPage_serves (hlimit : 1 ≤ limit) (h : q.refresh projects = (q, .ok ()))
    (hsize : q.transcripts.size ≤ u64Max) :
    Serves (SearchPage projects query limit)
      (fun p cursor k => p.refresh projects = (q, .ok ()) ∧ cursorStart cursor = .ok k ∧
        k ≤ (q.catalog.filter (selects query)).length)
      (q.catalog.filter (selects query)) (fun _ => true) := by
  rintro p cursor k items next p' ⟨hp, hcursor, hk⟩ hpage
  rw [SearchPage, searchSessions_eq hp hsize cursor hcursor] at hpage
  obtain ⟨hprovider, hanswer⟩ := Prod.mk.inj hpage
  subst hprovider
  obtain ⟨rfl, rfl⟩ := SessionSearchPage.mk.inj (Except.ok.inj hanswer)
  have hlength : (q.catalog.filter (selects query)).length ≤ u64Max :=
    (List.length_filter_le _ _).trans (length_catalog_le hsize)
  generalize q.catalog.filter (selects query) = l at hk hlength ⊢
  have hstop : min (saturatingAdd k limit) l.length = min (k + limit) l.length := by
    rw [saturatingAdd]
    omega
  rw [hstop]
  refine ⟨k + limit, by omega, ?_, ?_⟩
  · rw [List.filter_true, List.drop_take, Nat.add_sub_cancel_left]
  · split
    · rename_i hnone
      split at hnone
      · cases hnone
      · omega
    · rename_i next hsome
      split at hsome
      · rename_i hlt
        obtain rfl := Option.some.inj hsome
        have hmin : min (k + limit) l.length = k + limit := by omega
        rw [hmin]
        refine ⟨by omega, by omega, h, ?_, by omega⟩
        rw [cursorStart, parseUsize_repr (by omega)]
      · cases hsome

theorem searchPage_total (hsize : q.transcripts.size ≤ u64Max) {cursor : Option String} {k : Nat}
    (hp : p.refresh projects = (q, .ok ())) (hcursor : cursorStart cursor = .ok k) :
    ∃ items next p', SearchPage projects query limit p cursor items next p' :=
  ⟨_, _, q, searchSessions_eq hp hsize cursor hcursor⟩

end ClaudeProvider

open ClaudeProvider

/-- While the transcripts stay the same, following the cursors of a search ends, and its pages
together are the sessions that the query selects, each once and the newest first. A session whose
identifier is in lower case is found by it. -/
theorem search_pages_partition [Lowercase] {p q : ClaudeProvider} {projects : ProjectsView}
    {query : String} {limit : Nat} (hlimit : 1 ≤ limit) (h : p.refresh projects = (q, .ok ()))
    (hsize : q.transcripts.size ≤ u64Max) :
    (∃ n out p', Paged (SearchPage projects query limit) p none n out none p') ∧
    ∀ n out p', Paged (SearchPage projects query limit) p none n out none p' →
      out.Perm ((q.transcripts.values.map Transcript.listed).filter (selects query)) ∧
      out.Pairwise (fun a b => newestFirst a b = true) ∧
      ∀ t ∈ q.transcripts.values, t.session.id = query → toLowercase query = query →
        t.listed ∈ out := by
  have hserves : Serves (SearchPage projects query limit) _ _ _ :=
    searchPage_serves hlimit (settled h) hsize
  refine ⟨hserves.ends (fun hk => searchPage_total hsize hk.1 hk.2.1) ⟨h, rfl, Nat.zero_le _⟩,
    fun n out p' hout => ?_⟩
  have hall := hserves.ended ⟨h, rfl, Nat.zero_le _⟩ hout
  rw [List.drop_zero, List.filter_true] at hall
  have hperm : out.Perm ((q.transcripts.values.map Transcript.listed).filter (selects query)) :=
    hall ▸ (catalog_perm q).filter _
  refine ⟨hperm, hall ▸ (catalog_pairwise q).filter _, fun t ht hid hlower => ?_⟩
  refine hperm.mem_iff.mpr (List.mem_filter.mpr ⟨List.mem_map_of_mem ht, ?_⟩)
  have hlisted : t.listed.id = query := by
    rw [← hid, Transcript.listed]
    split <;> rfl
  rw [selects, hlisted, hlower, containsText_self, Bool.true_or]

end

section Sample

open ClaudeProvider

/-- What the libraries make of the sample where every name is an identifier. -/
@[reducible] def pagedFormat : TranscriptFormat := { sampleFormat with isUuid := fun _ => true }

/-- Lower-casing, as far as ASCII goes. -/
@[reducible] def sampleLowercase : Lowercase :=
  ⟨fun text => String.ofList (text.toList.map Char.toLower)⟩

attribute [local instance] pagedFormat sampleLowercase

/-- A project with three transcripts. -/
def pagedProjects : Directory Project where
  entries := Table.empty.insert "project"
    { isDir := .ok true
      files := .ok ⟨((Table.empty.insert "a.jsonl" (.ok sampleFile)).insert "b.jsonl"
        (.ok sampleFile)).insert "c.jsonl" (.ok sampleFile), none⟩ }
  failure := none

/-- A provider that has read these transcripts. -/
def pagedProvider : ClaudeProvider :=
  (ClaudeProvider.new.refresh (some (.ok pagedProjects))).1

/-- Their sessions. -/
def pagedSessions : List Session :=
  ["a", "b", "c"].map fun id => ⟨"claude", id, "A", .unknown, none⟩

theorem catalog_pagedProvider : pagedProvider.catalog = pagedSessions := by
  have hlisted : pagedProvider.transcripts.values.map Transcript.listed = pagedSessions := by
    decide
  rw [catalog, hlisted]
  exact List.mergeSort_of_pairwise (by decide)

/-- A search for a part of the title, two sessions on a page, shows all three on two pages. -/
theorem search_pages_partition_sample :
    Paged (SearchPage (some (.ok pagedProjects)) "A" 2) .new none 2 pagedSessions none
      pagedProvider ∧
    pagedSessions.Perm
      ((pagedProvider.transcripts.values.map Transcript.listed).filter (selects "A")) := by
  have hrefresh : ClaudeProvider.new.refresh (some (.ok pagedProjects)) =
      (pagedProvider, .ok ()) := by rfl
  have hsize : pagedProvider.transcripts.size ≤ u64Max := by decide
  have hfirst : SearchPage (some (.ok pagedProjects)) "A" 2 .new none (pagedSessions.take 2)
      (some "2") pagedProvider := by
    refine (searchSessions_eq hrefresh hsize none rfl).trans ?_
    rw [catalog_pagedProvider]
    rfl
  have hsecond : SearchPage (some (.ok pagedProjects)) "A" 2 pagedProvider (some "2")
      (pagedSessions.drop 2) none pagedProvider := by
    refine (searchSessions_eq (settled hrefresh) hsize (some "2") rfl).trans ?_
    rw [catalog_pagedProvider]
    rfl
  have hpages := Paged.more hfirst (.one hsecond)
  exact ⟨hpages, ((search_pages_partition (by decide) hrefresh hsize).2 _ _ _ hpages).1⟩

end Sample

end Watchcat
