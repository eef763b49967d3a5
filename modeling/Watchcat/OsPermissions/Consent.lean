import Watchcat.OsPermissions.Rules
import Mathlib.Data.List.DropRight

/-!
# The grammar of consent headings

A consent heading is a quoted application name, a phrase of a language that asks
for access, one of the resources that language lists, and any number of its full
stops. The recogniser splits at the first closing quote, takes the first phrase
that fits and trims the stops, which is the grammar, as no phrase begins with
another and no resource ends with a stop.
-/

namespace Watchcat

/-! ## Splitting texts -/

theorem stripPrefix_eq_some {first text rest : String} :
    stripPrefix first text = some rest ↔ text.toList = first.toList ++ rest.toList := by
  rw [stripPrefix]
  constructor
  · intro h
    split at h
    · rename_i hprefix
      obtain ⟨more, hmore⟩ := List.isPrefixOf_iff_prefix.mp hprefix
      obtain rfl := Option.some.inj h
      rw [← hmore, String.toList_ofList, List.drop_left]
    · exact nomatch h
  · intro h
    rw [if_pos (List.isPrefixOf_iff_prefix.mpr (h ▸ List.prefix_append _ _)), h, List.drop_left,
      String.ofList_toList]

theorem splitOnce_eq_some {c : Char} {text rest : String} :
    splitOnce c text = some rest ↔
      ∃ before, text.toList = before ++ c :: rest.toList ∧ c ∉ before := by
  have hpair : splitOnce c text = (splitPair c text).map Prod.snd := by
    rw [splitOnce, splitPair]
    cases text.toList.dropWhile (· ≠ c) <;> rfl
  rw [hpair, Option.map_eq_some_iff]
  constructor
  · rintro ⟨⟨before, after⟩, hsplit, rfl⟩
    exact ⟨before.toList, splitPair_eq_some.mp hsplit⟩
  · rintro ⟨before, htext, hbefore⟩
    refine ⟨(String.ofList before, rest), splitPair_eq_some.mpr ?_, rfl⟩
    rw [String.toList_ofList]
    exact ⟨htext, hbefore⟩

/-- What is left after trimming a repeated character at the end. -/
theorem rdropWhile_eq_iff {c : Char} {kept : List Char} (hkept : kept.getLast? ≠ some c)
    {l : List Char} : l.rdropWhile (· = c) = kept ↔ ∃ n, l = kept ++ List.replicate n c := by
  constructor
  · rintro rfl
    refine ⟨(l.rtakeWhile (· = c)).length, ?_⟩
    have hall : ∀ d ∈ l.rtakeWhile (· = c), d = c :=
      fun d hd => by simpa using List.mem_rtakeWhile_imp hd
    rw [← List.eq_replicate_of_mem hall]
    exact (List.rdropWhile_append_rtakeWhile (p := fun d => decide (d = c)) (l := l)).symm
  · rintro ⟨n, rfl⟩
    have hstop : kept.rdropWhile (· = c) = kept := by
      rcases List.eq_nil_or_concat kept with rfl | ⟨init, last, rfl⟩
      · rfl
      · rw [List.concat_eq_append] at hkept ⊢
        exact List.rdropWhile_concat_neg _ _ _ (by simpa using hkept)
    induction n with
    | zero => rw [List.replicate_zero, List.append_nil, hstop]
    | succ n ih =>
      rw [List.replicate_succ', ← List.append_assoc, List.rdropWhile_concat_pos _ _ _ (by simp), ih]

theorem trimEndMatches_eq_iff {c : Char} {resource text : String}
    (hresource : resource.toList.getLast? ≠ some c) :
    trimEndMatches c text = resource ↔
      ∃ n, text.toList = resource.toList ++ List.replicate n c := by
  rw [← rdropWhile_eq_iff hresource, trimEndMatches, ← String.toList_inj, String.toList_ofList,
    List.rdropWhile]

/-- Of phrases none of which begins with another, the first that fits is the only one. -/
theorem findSome_stripPrefix_eq_some {phrases : List String}
    (hdistinct : ∀ p ∈ phrases, ∀ q ∈ phrases, p.toList <+: q.toList → p = q)
    {rest resource : String} :
    (phrases.findSome? fun phrase => stripPrefix phrase rest) = some resource ↔
      ∃ p ∈ phrases, rest.toList = p.toList ++ resource.toList := by
  constructor
  · intro h
    obtain ⟨p, hp, hstrip⟩ := List.exists_of_findSome?_eq_some h
    exact ⟨p, hp, stripPrefix_eq_some.mp hstrip⟩
  · rintro ⟨p, hp, hrest⟩
    cases hfound : phrases.findSome? fun phrase => stripPrefix phrase rest with
    | none =>
      have hnone := List.findSome?_eq_none_iff.mp hfound p hp
      rw [stripPrefix_eq_some.mpr hrest] at hnone
      exact nomatch hnone
    | some resource' =>
      obtain ⟨q, hq, hstrip⟩ := List.exists_of_findSome?_eq_some hfound
      have hrest' := stripPrefix_eq_some.mp hstrip
      have hpq : p = q := by
        have hpre : p.toList <+: rest.toList := hrest ▸ List.prefix_append _ _
        have hqre : q.toList <+: rest.toList := hrest' ▸ List.prefix_append _ _
        rcases List.prefix_or_prefix_of_prefix hpre hqre with h | h
        · exact hdistinct p hp q hq h
        · exact (hdistinct q hq p hp h).symm
      subst hpq
      rw [hrest, List.append_cancel_left_eq, String.toList_inj] at hrest'
      rw [hrest']

/-! ## Languages -/

/-- The opening and closing quotes around a name. -/
def consentQuotes : List (Char × Char) := [('“', '”'), ('"', '"'), ('「', '」')]

/-- How a language asks for access, what it lists and its full stop. -/
structure ConsentLanguage where
  phrases : List String
  resources : List String
  stop : Char
  deriving DecidableEq

namespace ConsentLanguage

def english : ConsentLanguage where
  phrases := ["would like to access ", "wants to access "]
  resources := ["files on a removable volume", "files on a network volume", "a removable volume",
    "a network volume", "files in your desktop folder", "files in your documents folder",
    "files in your downloads folder"]
  stop := '.'

def chinese : ConsentLanguage where
  phrases := ["想要访问", "想访问", "希望访问", "想要存取", "想存取"]
  resources := ["可移除宗卷上的文件", "可移动宗卷上的文件", "网络宗卷上的文件",
    "可卸除卷宗上的檔案", "網路卷宗上的檔案", "可移除宗卷上的檔案", "“桌面”文件夹中的文件",
    "“文稿”文件夹中的文件", "“下载”文件夹中的文件", "「桌面」檔案夾中的檔案",
    "「文件」檔案夾中的檔案", "「下載項目」檔案夾中的檔案"]
  stop := '。'

/-- A phrase of the language, a listed resource and full stops. -/
def Accepts (language : ConsentLanguage) (rest : List Char) : Prop :=
  ∃ phrase ∈ language.phrases, ∃ resource ∈ language.resources, ∃ stops,
    rest = phrase.toList ++ (resource.toList ++ List.replicate stops language.stop)

end ConsentLanguage

open ConsentLanguage

/-- The languages of consent headings. -/
def consentLanguages : List ConsentLanguage := [english, chinese]

/-- No phrase begins with another. -/
theorem phrases_distinct : ∀ p ∈ english.phrases ++ chinese.phrases,
    ∀ q ∈ english.phrases ++ chinese.phrases, p.toList <+: q.toList → p = q := by decide

/-- No resource ends with a full stop. -/
theorem resources_getLast : ∀ language ∈ consentLanguages, ∀ resource ∈ language.resources,
    resource.toList.getLast? ≠ some language.stop := by
  simp only [consentLanguages, List.forall_mem_cons, List.not_mem_nil, false_implies,
    implies_true, and_true]
  decide

/-! ## The recogniser -/

/-- The text after a quoted name begins with one of the opening quotes and ends the name at the
first matching closing one. -/
theorem afterQuotedName_eq_some {text rest : String} :
    afterQuotedName text = some rest ↔ ∃ quote ∈ consentQuotes, ∃ name raw,
      text.toList = quote.1 :: (name ++ quote.2 :: raw) ∧ quote.2 ∉ name ∧
        rest = trimText (String.ofList raw) := by
  -- What one style of quotes finds.
  have hstyle (quote : Char × Char) (rest : String) :
      ((do trimText (← splitOnce quote.2 (← stripPrefix (String.singleton quote.1) text))) :
        Option String) = some rest ↔ ∃ name raw,
      text.toList = quote.1 :: (name ++ quote.2 :: raw) ∧ quote.2 ∉ name ∧
        rest = trimText (String.ofList raw) := by
    constructor
    · intro h
      obtain ⟨quoted, hquoted, h⟩ := Option.bind_eq_some_iff.mp h
      obtain ⟨raw, hraw, h⟩ := Option.bind_eq_some_iff.mp h
      obtain ⟨name, hname, hclose⟩ := splitOnce_eq_some.mp hraw
      have htext := stripPrefix_eq_some.mp hquoted
      refine ⟨name, raw.toList, ?_, hclose, ?_⟩
      · rw [htext, hname, String.toList_singleton, List.singleton_append]
      · rw [String.ofList_toList]
        exact (Option.some.inj h).symm
    · rintro ⟨name, raw, htext, hclose, rfl⟩
      have hquoted : stripPrefix (String.singleton quote.1) text =
          some (String.ofList (name ++ quote.2 :: raw)) := by
        rw [stripPrefix_eq_some, htext, String.toList_singleton, String.toList_ofList,
          List.singleton_append]
      have hraw : splitOnce quote.2 (String.ofList (name ++ quote.2 :: raw)) =
          some (String.ofList raw) := by
        rw [splitOnce_eq_some]
        exact ⟨name, by rw [String.toList_ofList, String.toList_ofList], hclose⟩
      rw [hquoted, Option.bind_eq_bind, Option.bind_some, hraw]
      rfl
  have hopen : ∀ p ∈ consentQuotes, ∀ q ∈ consentQuotes, p.1 = q.1 → p = q := by decide
  rw [afterQuotedName, ← consentQuotes]
  constructor
  · intro h
    obtain ⟨quote, hquote, hfound⟩ := List.exists_of_findSome?_eq_some h
    exact ⟨quote, hquote, (hstyle quote rest).mp hfound⟩
  · rintro ⟨quote, hquote, name, raw, htext, hclose, hrest⟩
    have hhere := (hstyle quote rest).mpr ⟨name, raw, htext, hclose, hrest⟩
    cases hfound : consentQuotes.findSome? fun quote => ((do
        trimText (← splitOnce quote.2 (← stripPrefix (String.singleton quote.1) text))) :
          Option String) with
    | none => exact nomatch (List.findSome?_eq_none_iff.mp hfound quote hquote).symm.trans hhere
    | some rest' =>
      obtain ⟨quote', hquote', hthere⟩ := List.exists_of_findSome?_eq_some hfound
      obtain ⟨name', raw', htext', -, -⟩ := (hstyle quote' rest').mp hthere
      obtain rfl : quote' = quote := by
        rw [htext] at htext'
        exact hopen quote' hquote' quote hquote (List.cons.inj htext').1.symm
      exact hthere.symm.trans hhere

/-- A listed resource with full stops behind it, as the recogniser compares it. -/
theorem contains_trimEndMatches {language : ConsentLanguage}
    (hlanguage : language ∈ consentLanguages) {resource : String} :
    language.resources.contains (trimEndMatches language.stop resource) = true ↔
      ∃ listed ∈ language.resources, ∃ stops,
        resource.toList = listed.toList ++ List.replicate stops language.stop := by
  rw [List.contains_iff_mem]
  constructor
  · intro hmem
    exact ⟨_, hmem, (trimEndMatches_eq_iff (resources_getLast language hlanguage _ hmem)).mp rfl⟩
  · rintro ⟨listed, hlisted, hstops⟩
    have hlast := resources_getLast language hlanguage listed hlisted
    rwa [(trimEndMatches_eq_iff hlast).mpr hstops]

/-- A language accepts a text exactly if a phrase of it comes first and a listed resource and
full stops follow. -/
theorem accepts_iff {language : ConsentLanguage} (hlanguage : language ∈ consentLanguages)
    {rest : String} : language.Accepts rest.toList ↔ ∃ resource,
      (language.phrases.findSome? fun phrase => stripPrefix phrase rest) = some resource ∧
        language.resources.contains (trimEndMatches language.stop resource) = true := by
  have hdistinct : ∀ p ∈ language.phrases, ∀ q ∈ language.phrases,
      p.toList <+: q.toList → p = q := by
    have hsub : language.phrases ⊆ english.phrases ++ chinese.phrases := by
      rcases List.mem_pair.mp hlanguage with rfl | rfl
      · exact List.subset_append_left _ _
      · exact List.subset_append_right _ _
    exact fun p hp q hq => phrases_distinct p (hsub hp) q (hsub hq)
  constructor
  · rintro ⟨phrase, hphrase, listed, hlisted, stops, hrest⟩
    refine ⟨String.ofList (listed.toList ++ List.replicate stops language.stop),
      (findSome_stripPrefix_eq_some hdistinct).mpr ⟨phrase, hphrase, ?_⟩,
      (contains_trimEndMatches hlanguage).mpr ⟨listed, hlisted, stops, ?_⟩⟩
    · rw [String.toList_ofList, hrest]
    · rw [String.toList_ofList]
  · rintro ⟨resource, hfound, hcontains⟩
    obtain ⟨phrase, hphrase, hrest⟩ := (findSome_stripPrefix_eq_some hdistinct).mp hfound
    obtain ⟨listed, hlisted, stops, hstops⟩ := (contains_trimEndMatches hlanguage).mp hcontains
    exact ⟨phrase, hphrase, listed, hlisted, stops, by rw [hrest, hstops]⟩

/-- Where an English phrase comes first, no Chinese one does. -/
theorem not_accepts_chinese {rest resource : String}
    (h : (english.phrases.findSome? fun phrase => stripPrefix phrase rest) = some resource) :
    ¬ chinese.Accepts rest.toList := by
  rintro ⟨phrase, hphrase, listed, -, stops, hrest⟩
  obtain ⟨phrase', hphrase', hstrip⟩ := List.exists_of_findSome?_eq_some h
  have hrest' := stripPrefix_eq_some.mp hstrip
  have hheads : ∀ p ∈ english.phrases, ∀ q ∈ chinese.phrases,
      p.toList.head? = some 'w' ∧ q.toList.head? ≠ some 'w' ∧ q.toList.head?.isSome := by decide
  obtain ⟨hw, hne, hsome⟩ := hheads phrase' hphrase' phrase hphrase
  obtain ⟨c, hc⟩ := Option.isSome_iff_exists.mp hsome
  have hleft : rest.toList.head? = some c := by rw [hrest, List.head?_append, hc, Option.some_or]
  have hright : rest.toList.head? = some 'w' := by
    rw [hrest', List.head?_append, hw, Option.some_or]
  exact hne (hc.trans (hleft.symm.trans hright))

variable [Lowercase]

/-- What the recogniser accepts. -/
theorem isFileAccessRequest_iff {text : String} :
    isFileAccessRequest text = true ↔ lineCount (toLowercase (trimText text)) = 1 ∧
      ∃ rest, afterQuotedName (toLowercase (trimText text)) = some rest ∧
        ∃ language ∈ consentLanguages, language.Accepts rest.toList := by
  have henglish : english ∈ consentLanguages := List.mem_cons_self
  have hchinese : chinese ∈ consentLanguages := List.mem_cons_of_mem _ List.mem_cons_self
  have hlists (resource : String) :
      ((chinese.resources.take 6).contains resource ||
        (chinese.resources.drop 6).contains resource) = chinese.resources.contains resource := by
    rw [← List.contains_append, List.take_append_drop]
  have hcode : isFileAccessRequest text =
      if lineCount (toLowercase (trimText text)) ≠ 1 then false
      else (afterQuotedName (toLowercase (trimText text))).elim false fun rest =>
        (english.phrases.findSome? fun phrase => stripPrefix phrase rest).elim
          ((chinese.phrases.findSome? fun phrase => stripPrefix phrase rest).elim false
            fun resource => (chinese.resources.take 6).contains
                (trimEndMatches chinese.stop resource) ||
              (chinese.resources.drop 6).contains (trimEndMatches chinese.stop resource))
          fun resource => english.resources.contains (trimEndMatches english.stop resource) := by
    rw [isFileAccessRequest]
    split
    · rfl
    · cases afterQuotedName (toLowercase (trimText text)) with
      | none => rfl
      | some rest =>
        dsimp only [Option.elim_some, english, chinese]
        split
        · rename_i hfound
          rw [hfound]
          rfl
        · rename_i hmissing
          rw [hmissing, Option.elim_none]
          split
          · rename_i hfound
            rw [hfound]
            rfl
          · rename_i hmissing
            rw [hmissing]
            rfl
  rw [hcode]
  by_cases hline : lineCount (toLowercase (trimText text)) = 1
  · rw [if_neg (not_not.mpr hline), and_iff_right hline]
    cases afterQuotedName (toLowercase (trimText text)) with
    | none =>
      refine iff_of_false (by decide) ?_
      rintro ⟨_, hnone, _⟩
      cases hnone
    | some rest =>
      rw [Option.elim_some]
      have hlanguages : (∃ rest', some rest = some rest' ∧
          ∃ language ∈ consentLanguages, language.Accepts rest'.toList) ↔
          english.Accepts rest.toList ∨ chinese.Accepts rest.toList := by
        simp [consentLanguages]
      rw [hlanguages]
      cases hphrase : english.phrases.findSome? fun phrase => stripPrefix phrase rest with
      | some resource =>
        rw [or_iff_left (not_accepts_chinese hphrase), accepts_iff henglish, hphrase]
        simp
      | none =>
        have hno : ¬ english.Accepts rest.toList := by
          rw [accepts_iff henglish, hphrase]
          rintro ⟨_, hnone, _⟩
          cases hnone
        rw [or_iff_right hno, accepts_iff hchinese, Option.elim_none]
        cases chinese.phrases.findSome? fun phrase => stripPrefix phrase rest with
        | some resource =>
          rw [Option.elim_some, hlists]
          simp
        | none => simp
  · rw [if_pos hline]
    exact iff_of_false (by decide) fun h => hline h.1

end Watchcat
