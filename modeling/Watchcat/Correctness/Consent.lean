import Watchcat.Base.Lowering
import Watchcat.OsPermissions.Consent

/-!
# The consent recogniser accepts its grammar

A heading is recognised exactly if it is one line of the grammar. The name in a
heading is chosen by whoever asks, and may contain quotes; the recogniser then
ends it too early, and what is left of it, the closing quote and the phrase that
follows would have to stand inside a listed resource. No resource has a phrase
behind a closing quote, so a name never makes another request pass.
-/

namespace Watchcat

open ConsentLanguage

/-! ## Lists -/

/-- Two splits at a character, the second at its first occurrence. -/
theorem split_cases {c : Char} {n v m w : List Char} (h : n ++ c :: v = m ++ c :: w)
    (hm : c ∉ m) : (n = m ∧ v = w) ∨ ∃ b, n = m ++ c :: b ∧ w = b ++ c :: v := by
  rcases List.append_eq_append_iff.mp h with ⟨a, rfl, hv⟩ | ⟨b, rfl, hw⟩
  · cases a with
    | nil =>
      rw [List.nil_append] at hv
      exact Or.inl ⟨(List.append_nil n).symm, (List.cons.inj hv).2⟩
    | cons d a =>
      obtain ⟨rfl, -⟩ := List.cons.inj hv
      exact absurd (List.mem_append_right n List.mem_cons_self) hm
  · cases b with
    | nil =>
      rw [List.nil_append] at hw
      exact Or.inl ⟨List.append_nil m, (List.cons.inj hw).2.symm⟩
    | cons d b =>
      obtain ⟨rfl, hrest⟩ := List.cons.inj hw
      exact Or.inr ⟨b, rfl, hrest⟩

/-- White space before what begins without any is the white space that comes first. -/
theorem whiteSpace_append_inj {s s' v w : List Char} (hs : ∀ c ∈ s, isWhiteSpace c = true)
    (hs' : ∀ c ∈ s', isWhiteSpace c = true) (hv : ∀ c, v.head? = some c → isWhiteSpace c = false)
    (hw : ∀ c, w.head? = some c → isWhiteSpace c = false) (h : s ++ v = s' ++ w) : v = w := by
  have hdrop {s v : List Char} (hs : ∀ c ∈ s, isWhiteSpace c = true)
      (hv : ∀ c, v.head? = some c → isWhiteSpace c = false) :
      (s ++ v).dropWhile isWhiteSpace = v := by
    rw [List.dropWhile_append_of_pos hs]
    cases v with
    | nil => rfl
    | cons c v => rw [List.dropWhile_cons_of_neg (by rw [hv c rfl]; decide)]
  rw [← hdrop hs hv, h, hdrop hs' hw]

/-- White space at the end is trimmed behind what is kept. -/
theorem rdropWhile_append_of_exists {p : Char → Bool} {a b : List Char} (h : ∃ c ∈ b, p c = false) :
    (a ++ b).rdropWhile p = a ++ b.rdropWhile p := by
  have hkept : (b.reverse.dropWhile p).isEmpty = false := by
    rw [List.isEmpty_eq_false_iff]
    obtain ⟨c, hc, hpc⟩ := h
    intro hempty
    have hall := List.dropWhile_eq_nil_iff.mp hempty c (List.mem_reverse.mpr hc)
    rw [hpc] at hall
    exact absurd hall (by decide)
  rw [List.rdropWhile, List.rdropWhile, List.reverse_append, List.dropWhile_append, hkept]
  simp

/-- Where a text does not end with white space, there is none to trim there. -/
theorem rdropWhile_eq_self {l : List Char}
    (h : ∀ c, l.getLast? = some c → isWhiteSpace c = false) : l.rdropWhile isWhiteSpace = l := by
  rw [List.rdropWhile_eq_self_iff]
  intro hne
  exact Bool.eq_false_iff.mp (h _ (List.getLast?_eq_some_getLast hne))

theorem toList_trimText (text : String) : (trimText text).toList =
    (text.toList.dropWhile isWhiteSpace).rdropWhile isWhiteSpace := by
  rw [trimText, String.toList_ofList, List.rdropWhile]

/-- A trimmed text does not end with white space. -/
theorem getLast_trimText {text : String} {c : Char}
    (h : (trimText text).toList.getLast? = some c) : isWhiteSpace c = false := by
  rw [toList_trimText] at h
  have hne : (text.toList.dropWhile isWhiteSpace).rdropWhile isWhiteSpace ≠ [] := by
    intro hnil
    rw [hnil] at h
    exact nomatch h
  have hlast := List.rdropWhile_last_not isWhiteSpace _ hne
  rw [List.getLast?_eq_some_getLast hne] at h
  rw [Option.some.inj h] at hlast
  exact Bool.eq_false_iff.mpr hlast

/-! ## The grammar -/

/-- The characters of consent headings outside the name. -/
def consentCharacters : List Char :=
  (consentQuotes.flatMap fun quote => [quote.1, quote.2]) ++
    consentLanguages.flatMap fun language =>
      language.stop :: (language.phrases ++ language.resources).flatMap String.toList

/-- One line: an opening quote, a name without the matching closing one, that closing quote,
white space, and a phrase, a resource and full stops of a language. -/
def IsConsentHeading (heading : List Char) : Prop :=
  '\n' ∉ heading ∧ ∃ quote ∈ consentQuotes, ∃ name space rest,
    heading = quote.1 :: (name ++ quote.2 :: (space ++ rest)) ∧ quote.2 ∉ name ∧
      (∀ c ∈ space, isWhiteSpace c = true) ∧ ∃ language ∈ consentLanguages, language.Accepts rest

/-- The resource is listed, up to case, white space around it and full stops behind it. -/
def ConsentLanguage.Lists [Lowercase] (language : ConsentLanguage) (resource : String) : Prop :=
  ∃ listed ∈ language.resources, ∃ stops, (toLowercase (trimText resource)).toList =
    listed.toList ++ List.replicate stops language.stop

/-- A phrase begins with a character that is no white space. -/
theorem phrase_head {language : ConsentLanguage} (hlanguage : language ∈ consentLanguages)
    {phrase : String} (hphrase : phrase ∈ language.phrases) :
    ∃ c t, phrase.toList = c :: t ∧ isWhiteSpace c = false := by
  have hheads : ∀ language ∈ consentLanguages, ∀ phrase ∈ language.phrases,
      phrase.toList.head?.any (fun c => !isWhiteSpace c) = true := by decide
  obtain ⟨c, hc, hspace⟩ := (Option.any_eq_true _ _).mp (hheads language hlanguage phrase hphrase)
  obtain ⟨t, ht⟩ := List.head?_eq_some_iff.mp hc
  exact ⟨c, t, ht, by simpa using hspace⟩

/-- A listed resource begins with a character that is no white space. -/
theorem resource_head {language : ConsentLanguage} (hlanguage : language ∈ consentLanguages)
    {listed : String} (hlisted : listed ∈ language.resources) :
    ∃ c t, listed.toList = c :: t ∧ isWhiteSpace c = false := by
  have hheads : ∀ language ∈ consentLanguages, ∀ listed ∈ language.resources,
      listed.toList.head?.any (fun c => !isWhiteSpace c) = true := by decide
  obtain ⟨c, hc, hspace⟩ := (Option.any_eq_true _ _).mp (hheads language hlanguage listed hlisted)
  obtain ⟨t, ht⟩ := List.head?_eq_some_iff.mp hc
  exact ⟨c, t, ht, by simpa using hspace⟩

/-- What a language accepts begins with a character that is no white space. -/
theorem ConsentLanguage.Accepts.head {language : ConsentLanguage}
    (hlanguage : language ∈ consentLanguages) {rest : List Char} (h : language.Accepts rest) :
    ∃ c, rest.head? = some c ∧ isWhiteSpace c = false := by
  obtain ⟨phrase, hphrase, listed, -, stops, rfl⟩ := h
  obtain ⟨c, t, hphrase, hc⟩ := phrase_head hlanguage hphrase
  exact ⟨c, by rw [hphrase]; rfl, hc⟩

/-- A text that does not end with white space is one line exactly if it has no line break. -/
theorem lineCount_eq_one {text : String} (hne : text.toList ≠ [])
    (hlast : ∀ c, text.toList.getLast? = some c → isWhiteSpace c = false) :
    lineCount text = 1 ↔ '\n' ∉ text.toList := by
  have hempty : text.isEmpty = false := by
    rw [Bool.eq_false_iff, Ne, String.isEmpty_iff]
    rintro rfl
    exact hne rfl
  have hbreak : text.toList.getLast? ≠ some '\n' := by
    intro h
    exact absurd (hlast _ h) (by decide)
  rw [lineCount]
  simp only [hempty, hbreak, decide_false, Bool.or_self, Bool.false_eq_true, if_false]
  rw [← List.count_eq_zero]
  omega

theorem sigmas_apart : 'Σ' ∉ consentCharacters ∧ 'σ' ∉ consentCharacters ∧
    'ς' ∉ consentCharacters := by decide +kernel

theorem mem_consentCharacters_of_phrase {language : ConsentLanguage}
    (hlanguage : language ∈ consentLanguages) {phrase : String}
    (hphrase : phrase ∈ language.phrases) {c : Char} (hc : c ∈ phrase.toList) :
    c ∈ consentCharacters :=
  List.mem_append_right _ (List.mem_flatMap.mpr ⟨language, hlanguage, List.mem_cons_of_mem _
    (List.mem_flatMap.mpr ⟨phrase, List.mem_append_left _ hphrase, hc⟩)⟩)

theorem mem_consentCharacters_of_resource {language : ConsentLanguage}
    (hlanguage : language ∈ consentLanguages) {listed : String}
    (hlisted : listed ∈ language.resources) {stops : Nat} {c : Char}
    (hc : c ∈ listed.toList ++ List.replicate stops language.stop) : c ∈ consentCharacters := by
  refine List.mem_append_right _ (List.mem_flatMap.mpr ⟨language, hlanguage, ?_⟩)
  rcases List.mem_append.mp hc with hc | hc
  · exact List.mem_cons_of_mem _
      (List.mem_flatMap.mpr ⟨listed, List.mem_append_right _ hlisted, hc⟩)
  · rw [List.eq_of_mem_replicate hc]
    exact List.mem_cons_self

/-- Languages share no phrase, and no phrase begins with that of another. -/
theorem phrase_unique {language language' : ConsentLanguage}
    (hlanguage : language ∈ consentLanguages) (hlanguage' : language' ∈ consentLanguages)
    {phrase phrase' : String} (hphrase : phrase ∈ language.phrases)
    (hphrase' : phrase' ∈ language'.phrases) {a b : List Char}
    (h : phrase.toList ++ a = phrase'.toList ++ b) : language = language' ∧ phrase = phrase' := by
  have hall : ∀ language ∈ consentLanguages, ∀ language' ∈ consentLanguages,
      ∀ phrase ∈ language.phrases, ∀ phrase' ∈ language'.phrases,
        phrase.toList <+: phrase'.toList → language = language' ∧ phrase = phrase' := by decide
  have hleft : phrase.toList <+: phrase.toList ++ a := List.prefix_append _ _
  have hright : phrase'.toList <+: phrase.toList ++ a := h ▸ List.prefix_append _ _
  rcases List.prefix_or_prefix_of_prefix hleft hright with hprefix | hprefix
  · exact hall language hlanguage language' hlanguage' phrase hphrase phrase' hphrase' hprefix
  · obtain ⟨hl, hp⟩ :=
      hall language' hlanguage' language hlanguage phrase' hphrase' phrase hphrase hprefix
    exact ⟨hl.symm, hp.symm⟩

/-- What stands behind a closing quote inside a listed resource: a character with which neither
white space nor a phrase begins. -/
def BehindClose (d : Char) : Prop :=
  isWhiteSpace d = false ∧ ∀ language ∈ consentLanguages, ∀ phrase ∈ language.phrases,
    phrase.toList.head? ≠ some d

instance : DecidablePred BehindClose := fun _ => inferInstanceAs (Decidable (_ ∧ _))

/-- A closing quote in a listed resource is its only one, and no phrase stands behind it. -/
theorem resource_behind_close {language : ConsentLanguage} (hlanguage : language ∈ consentLanguages)
    {listed : String} (hlisted : listed ∈ language.resources) {quote : Char × Char}
    (hquote : quote ∈ consentQuotes) (hmem : quote.2 ∈ listed.toList) :
    ∃ before d tail, listed.toList = before ++ quote.2 :: d :: tail ∧ quote.2 ∉ before ∧
      quote.2 ∉ d :: tail ∧ BehindClose d := by
  have hall : ∀ language ∈ consentLanguages, ∀ listed ∈ language.resources,
      ∀ quote ∈ consentQuotes, quote.2 ∈ listed.toList →
        (listed.toList.dropWhile (· ≠ quote.2)).head? = some quote.2 ∧
          quote.2 ∉ (listed.toList.dropWhile (· ≠ quote.2)).tail ∧
          (listed.toList.dropWhile (· ≠ quote.2)).tail.head?.any (BehindClose ·) = true := by
    decide +kernel
  obtain ⟨hhead, hrest, hany⟩ := hall language hlanguage listed hlisted quote hquote hmem
  obtain ⟨d, hd, hbehind⟩ := (Option.any_eq_true _ _).mp hany
  have htail := List.cons_head?_tail hd
  refine ⟨listed.toList.takeWhile (· ≠ quote.2), d, _, ?_, ?_, htail ▸ hrest,
    of_decide_eq_true hbehind⟩
  · rw [htail, List.cons_head?_tail hhead, List.takeWhile_append_dropWhile]
  · exact fun hclose => by simpa using List.mem_takeWhile_imp hclose

/-- The white space, phrases and full stops of a heading contain no quotes, and the opening quotes
are no white space. -/
theorem quotes_apart : ∀ quote ∈ consentQuotes,
    isWhiteSpace quote.1 = false ∧ isWhiteSpace quote.2 = false ∧
      ∀ language ∈ consentLanguages, quote.2 ≠ language.stop ∧
        ∀ phrase ∈ language.phrases, quote.2 ∉ phrase.toList := by decide

/-- A closing quote inside what a language accepts has a character behind it with which no
request begins. -/
theorem ConsentLanguage.Accepts.behind_close {language : ConsentLanguage}
    (hlanguage : language ∈ consentLanguages) {rest : List Char} (h : language.Accepts rest)
    {quote : Char × Char} (hquote : quote ∈ consentQuotes) {space b tail : List Char}
    (hspace : ∀ c ∈ space, isWhiteSpace c = true) (hsplit : space ++ rest = b ++ quote.2 :: tail) :
    ∃ d, tail.head? = some d ∧ BehindClose d := by
  obtain ⟨phrase, hphrase, listed, hlisted, stops, rfl⟩ := h
  obtain ⟨-, hclose, hapart⟩ := quotes_apart quote hquote
  obtain ⟨hstop, hphrases⟩ := hapart language hlanguage
  have hfront : quote.2 ∉ space ++ phrase.toList := by
    rw [List.mem_append, not_or]
    exact ⟨fun hmem => Bool.eq_false_iff.mp hclose (hspace _ hmem), hphrases phrase hphrase⟩
  have hstops : quote.2 ∉ List.replicate stops language.stop :=
    fun hmem => hstop (List.eq_of_mem_replicate hmem)
  by_cases hmem : quote.2 ∈ listed.toList
  · obtain ⟨before, d, more, heq, hbefore, hmore, hd⟩ :=
      resource_behind_close hlanguage hlisted hquote hmem
    have hwhole : b ++ quote.2 :: tail = (space ++ phrase.toList ++ before) ++
        quote.2 :: (d :: (more ++ List.replicate stops language.stop)) := by
      rw [← hsplit, heq]
      simp only [List.append_assoc, List.cons_append]
    have hfirst : quote.2 ∉ space ++ phrase.toList ++ before := by
      rw [List.mem_append, not_or]
      exact ⟨hfront, hbefore⟩
    rcases split_cases hwhole hfirst with ⟨-, rfl⟩ | ⟨b', -, hagain⟩
    · exact ⟨d, rfl, hd⟩
    · have hlater : quote.2 ∈ (d :: more) ++ List.replicate stops language.stop := by
        rw [List.cons_append, hagain]
        exact List.mem_append_right _ List.mem_cons_self
      exact absurd hlater (by rw [List.mem_append, not_or]; exact ⟨hmore, hstops⟩)
  · have hinside : quote.2 ∈ space ++ (phrase.toList ++
        (listed.toList ++ List.replicate stops language.stop)) := by
      rw [hsplit]
      exact List.mem_append_right _ List.mem_cons_self
    rw [← List.append_assoc] at hinside
    rcases List.mem_append.mp hinside with hinside | hinside
    · exact absurd hinside hfront
    · rcases List.mem_append.mp hinside with hinside | hinside
      · exact absurd hinside hmem
      · exact absurd hinside hstops

/-- What is left of a heading when it is trimmed. -/
theorem toList_trimText_heading {heading phrase resource : String} {quote : Char × Char}
    (hquote : quote ∈ consentQuotes) {language : ConsentLanguage}
    (hlanguage : language ∈ consentLanguages) (hphrase : phrase ∈ language.phrases)
    {name space : List Char} (hheading : heading.toList =
      quote.1 :: (name ++ quote.2 :: (space ++ (phrase.toList ++ resource.toList)))) :
    (trimText heading).toList = [quote.1] ++ (name ++ ([quote.2] ++ (space ++
      (phrase.toList ++ resource.toList).rdropWhile isWhiteSpace))) := by
  obtain ⟨c, t, hc, hspace⟩ := phrase_head hlanguage hphrase
  have hexists : ∃ c ∈ phrase.toList ++ resource.toList, isWhiteSpace c = false :=
    ⟨c, List.mem_append_left _ (hc ▸ List.mem_cons_self), hspace⟩
  have hfront : heading.toList = ([quote.1] ++ (name ++ ([quote.2] ++ space))) ++
      (phrase.toList ++ resource.toList) := by
    rw [hheading]
    simp only [List.cons_append, List.nil_append, List.append_assoc]
  have hopen : heading.toList.dropWhile isWhiteSpace = heading.toList := by
    rw [hheading, List.dropWhile_cons_of_neg (by rw [(quotes_apart quote hquote).1]; decide)]
  rw [toList_trimText, hopen, hfront, rdropWhile_append_of_exists hexists]
  simp only [List.append_assoc]

section Recogniser

variable [Lowercase] {lower : Char → List Char}

/-- The lower-cased trimmed text does not end with white space. -/
theorem getLast_lowered (laws : LowercaseLaws lower consentCharacters) {text : String} {c : Char}
    (h : (toLowercase (trimText text)).toList.getLast? = some c) : isWhiteSpace c = false := by
  by_contra hspace
  rw [Bool.not_eq_false] at hspace
  exact absurd hspace (Bool.eq_false_iff.mp
    (getLast_trimText (laws.getLast_eq (laws.text (trimText text)) h hspace)))

/-- The recogniser accepts exactly the headings of the grammar. -/
theorem isFileAccessRequest_iff_heading (laws : LowercaseLaws lower consentCharacters)
    (text : String) : isFileAccessRequest text = true ↔
      IsConsentHeading (toLowercase (trimText text)).toList := by
  rw [isFileAccessRequest_iff]
  constructor
  · rintro ⟨hline, rest, hrest, language, hlanguage, haccepts⟩
    obtain ⟨quote, hquote, name, raw, htext, hclose, rfl⟩ := afterQuotedName_eq_some.mp hrest
    have hlast (c : Char) (hc : (toLowercase (trimText text)).toList.getLast? = some c) :
        isWhiteSpace c = false := getLast_lowered laws hc
    have hraw : raw.takeWhile isWhiteSpace ++ raw.dropWhile isWhiteSpace = raw :=
      List.takeWhile_append_dropWhile
    have hend (c : Char) (hc : (raw.dropWhile isWhiteSpace).getLast? = some c) :
        isWhiteSpace c = false := by
      have hfront : (toLowercase (trimText text)).toList =
          (quote.1 :: (name ++ quote.2 :: raw.takeWhile isWhiteSpace)) ++
            raw.dropWhile isWhiteSpace := by
        rw [htext, List.cons_append, List.append_assoc, List.cons_append, hraw]
      exact hlast c (by rw [hfront, List.getLast?_append, hc, Option.some_or])
    refine ⟨(lineCount_eq_one ?_ hlast).mp hline, quote, hquote, name,
      raw.takeWhile isWhiteSpace, raw.dropWhile isWhiteSpace, ?_, hclose,
      fun c hc => List.mem_takeWhile_imp hc, language, hlanguage, ?_⟩
    · rw [htext]
      exact List.cons_ne_nil _ _
    · rw [hraw, htext]
    · rwa [toList_trimText, String.toList_ofList, rdropWhile_eq_self hend] at haccepts
  · rintro ⟨hline, quote, hquote, name, space, rest, htext, hclose, hspace, language, hlanguage,
      haccepts⟩
    have hlast (c : Char) (hc : (toLowercase (trimText text)).toList.getLast? = some c) :
        isWhiteSpace c = false := getLast_lowered laws hc
    have hne : (toLowercase (trimText text)).toList ≠ [] := by
      rw [htext]
      exact List.cons_ne_nil _ _
    have hend (c : Char) (hc : rest.getLast? = some c) : isWhiteSpace c = false := by
      have hfront : (toLowercase (trimText text)).toList =
          (quote.1 :: (name ++ quote.2 :: space)) ++ rest := by
        rw [htext, List.cons_append, List.append_assoc, List.cons_append]
      exact hlast c (by rw [hfront, List.getLast?_append, hc, Option.some_or])
    refine ⟨(lineCount_eq_one hne hlast).mpr hline, trimText (String.ofList (space ++ rest)),
      afterQuotedName_eq_some.mpr ⟨quote, hquote, name, space ++ rest, htext, hclose, rfl⟩,
      language, hlanguage, ?_⟩
    obtain ⟨c, hc, hhead⟩ := haccepts.head hlanguage
    have hfirst : rest.dropWhile isWhiteSpace = rest := by
      cases rest with
      | nil => rfl
      | cons d rest =>
        obtain rfl := Option.some.inj hc
        rw [List.dropWhile_cons_of_neg (by rw [hhead]; decide)]
    rwa [toList_trimText, String.toList_ofList, List.dropWhile_append_of_pos hspace, hfirst,
      rdropWhile_eq_self hend]

/-- A request that a lower-casing accepts asks for a listed resource. -/
theorem lists_of_accepts (laws : LowercaseLaws lower consentCharacters)
    {language language' : ConsentLanguage} (hlanguage : language ∈ consentLanguages)
    (hlanguage' : language' ∈ consentLanguages) {phrase : String}
    (hphrase : phrase ∈ language.phrases) {resource : String} {x : List Char}
    (hlowered : LoweredBy lower
      ((phrase.toList ++ resource.toList).rdropWhile isWhiteSpace) x)
    (haccepts : language'.Accepts x) : language.Lists resource := by
  obtain ⟨hsigma, hsmall, hfinal⟩ := sigmas_apart
  obtain ⟨phrase', hphrase', listed, hlisted, stops, rfl⟩ := haccepts
  have hstays : ∀ c ∈ phrase.toList, c ∈ consentCharacters ∨ isWhiteSpace c = true :=
    fun c hc => Or.inl (mem_consentCharacters_of_phrase hlanguage hphrase hc)
  obtain ⟨d, l, hd, hdspace⟩ := resource_head hlanguage' hlisted
  have hprefix := List.rdropWhile_prefix isWhiteSpace (phrase.toList ++ resource.toList)
  rcases List.prefix_or_prefix_of_prefix hprefix (List.prefix_append phrase.toList _) with
    hshort | ⟨kept, hkept⟩
  · -- Not even the phrase is left, so there is no room for a resource.
    have hx := laws.eq_of_stays hsigma hlowered fun c hc => hstays c (hshort.subset hc)
    rw [← hx] at hshort
    obtain ⟨more, hmore⟩ := hshort
    rw [List.append_assoc] at hmore
    obtain ⟨-, rfl⟩ := phrase_unique hlanguage hlanguage' hphrase hphrase'
      (a := []) (by rw [List.append_nil]; exact hmore.symm)
    have hnil : listed.toList ++ List.replicate stops language'.stop ++ more = [] := by
      simpa using hmore
    rw [hd] at hnil
    exact nomatch hnil
  · rw [← hkept] at hlowered
    obtain ⟨v, w, hvw, hv, hw⟩ := hlowered.append_inv
    obtain rfl := laws.eq_of_stays hsigma hv hstays
    obtain ⟨rfl, rfl⟩ := phrase_unique hlanguage hlanguage' hphrase hphrase' hvw.symm
    obtain rfl := List.append_cancel_left hvw
    have hsub : kept <+: resource.toList := by
      rw [← hkept] at hprefix
      exact (List.prefix_append_right_inj _).mp hprefix
    -- The resource begins with a character that stays no white space.
    cases kept with
    | nil =>
      rw [hd] at hw
      exact nomatch hw
    | cons c kept =>
      have hc : isWhiteSpace c = false := by
        by_contra hspace
        rw [Bool.not_eq_false] at hspace
        obtain ⟨v, w, hvw, hv, -⟩ := LoweredBy.append_inv (a := [c]) hw
        have hvc := laws.eq_of_stays hsigma hv fun e he =>
          Or.inr (List.mem_singleton.mp he ▸ hspace)
        rw [hd, hvc] at hvw
        obtain ⟨rfl, -⟩ := List.cons.inj hvw
        rw [hspace] at hdspace
        exact absurd hdspace (by decide)
      have hexists : ∃ c ∈ resource.toList, isWhiteSpace c = false :=
        ⟨c, hsub.subset List.mem_cons_self, hc⟩
      have hend : resource.toList.rdropWhile isWhiteSpace = c :: kept := by
        rw [rdropWhile_append_of_exists hexists] at hkept
        exact (List.append_cancel_left hkept).symm
      have hfirst : resource.toList.dropWhile isWhiteSpace = resource.toList := by
        obtain ⟨more, hmore⟩ := hsub
        rw [← hmore, List.cons_append, List.dropWhile_cons_of_neg (by rw [hc]; decide)]
      have htrim : (trimText resource).toList = c :: kept := by
        rw [toList_trimText, hfirst, hend]
      have hlower := laws.text (trimText resource)
      rw [htrim] at hlower
      have hchars {c : Char} (hc : c ∈ listed.toList ++ List.replicate stops language.stop) :
          c ∈ consentCharacters := mem_consentCharacters_of_resource hlanguage' hlisted hc
      exact ⟨listed, hlisted, stops, hw.unique laws.sigma hlower (fun h => hsmall (hchars h))
        fun h => hfinal (hchars h)⟩

/-- A lower-cased request begins with the first character of its phrase. -/
theorem head_lowered_request (laws : LowercaseLaws lower consentCharacters)
    {language : ConsentLanguage} (hlanguage : language ∈ consentLanguages) {phrase : String}
    (hphrase : phrase ∈ language.phrases) {resource x : List Char}
    (hx : LoweredBy lower ((phrase.toList ++ resource).rdropWhile isWhiteSpace) x) :
    ∃ c, x.head? = some c ∧ phrase.toList.head? = some c ∧ isWhiteSpace c = false := by
  obtain ⟨c, t, hc, hspace⟩ := phrase_head hlanguage hphrase
  have hprefix := List.rdropWhile_prefix isWhiteSpace (phrase.toList ++ resource)
  cases hkept : (phrase.toList ++ resource).rdropWhile isWhiteSpace with
  | nil =>
    have hall := List.rdropWhile_eq_nil_iff.mp hkept c
      (List.mem_append_left _ (hc ▸ List.mem_cons_self))
    rw [hspace] at hall
    exact nomatch hall
  | cons e kept =>
    rw [hkept, hc, List.cons_append, List.cons_prefix_cons] at hprefix
    obtain ⟨rfl, -⟩ := hprefix
    rw [hkept] at hx
    obtain ⟨v, w, rfl, hv, -⟩ := LoweredBy.append_inv (a := [e]) hx
    have hmem : e ∈ consentCharacters :=
      mem_consentCharacters_of_phrase hlanguage hphrase (hc ▸ List.mem_cons_self)
    obtain rfl := laws.eq_of_stays sigmas_apart.1 hv fun d hd =>
      Or.inl (List.mem_singleton.mp hd ▸ hmem)
    exact ⟨e, rfl, by rw [hc]; rfl, hspace⟩

/-- A heading that asks for a resource that is not listed is rejected, whatever the name is. -/
theorem rejects_unlisted (laws : LowercaseLaws lower consentCharacters)
    {heading phrase resource : String} {quote : Char × Char} (hquote : quote ∈ consentQuotes)
    {language : ConsentLanguage} (hlanguage : language ∈ consentLanguages)
    (hphrase : phrase ∈ language.phrases) {name space : List Char}
    (hspace : ∀ c ∈ space, isWhiteSpace c = true) (hheading : heading.toList =
      quote.1 :: (name ++ quote.2 :: (space ++ (phrase.toList ++ resource.toList))))
    (hunlisted : ¬ language.Lists resource) : isFileAccessRequest heading = false := by
  obtain ⟨hsigma, -, -⟩ := sigmas_apart
  rw [Bool.eq_false_iff, Ne, isFileAccessRequest_iff_heading laws]
  rintro ⟨-, quote', hquote', name', space', rest, hlowered, hclose, hspace', language',
    hlanguage', haccepts⟩
  have hquotes : ∀ quote ∈ consentQuotes, quote.1 ∈ consentCharacters ∧
      quote.2 ∈ consentCharacters := by decide
  -- The lower-casing keeps the quotes and the white space of the heading.
  have htext := laws.text (trimText heading)
  rw [toList_trimText_heading hquote hlanguage hphrase hheading] at htext
  obtain ⟨v, u, hu, hv, htext⟩ := htext.append_inv
  obtain ⟨n, u, rfl, -, htext⟩ := htext.append_inv
  obtain ⟨w, u, rfl, hw, htext⟩ := htext.append_inv
  obtain ⟨s, x, rfl, hs, hx⟩ := htext.append_inv
  obtain rfl := laws.eq_of_stays hsigma hv fun c hc =>
    Or.inl (List.mem_singleton.mp hc ▸ (hquotes quote hquote).1)
  obtain rfl := laws.eq_of_stays hsigma hw fun c hc =>
    Or.inl (List.mem_singleton.mp hc ▸ (hquotes quote hquote).2)
  obtain rfl := laws.eq_of_stays hsigma hs fun c hc => Or.inr (hspace c hc)
  rw [hu, List.singleton_append, List.singleton_append] at hlowered
  obtain ⟨hopen, hsplit⟩ := List.cons.inj hlowered
  have hsame : ∀ p ∈ consentQuotes, ∀ q ∈ consentQuotes, p.1 = q.1 → p = q := by decide
  obtain rfl := hsame quote hquote quote' hquote' hopen
  obtain ⟨c, hc, hcphrase, hcspace⟩ := head_lowered_request laws hlanguage hphrase hx
  rcases split_cases hsplit hclose with ⟨-, hrest⟩ | ⟨b, -, hearly⟩
  · -- The name ends where it is closed, so the request is what is accepted.
    obtain ⟨e, he, hespace⟩ := haccepts.head hlanguage'
    have hhead (d : Char) (hd : x.head? = some d) : isWhiteSpace d = false := by
      rw [hc] at hd
      exact Option.some.inj hd ▸ hcspace
    have hhead' (d : Char) (hd : rest.head? = some d) : isWhiteSpace d = false := by
      rw [he] at hd
      exact Option.some.inj hd ▸ hespace
    obtain rfl := whiteSpace_append_inj hspace hspace' hhead hhead' hrest
    exact hunlisted (lists_of_accepts laws hlanguage hlanguage' hphrase hx haccepts)
  · -- The name contains the closing quote, and the heading's own is inside the resource.
    obtain ⟨d, hd, hdspace, hdphrase⟩ := haccepts.behind_close hlanguage' hquote hspace' hearly
    cases s with
    | nil =>
      rw [List.nil_append, hc] at hd
      exact hdphrase language hlanguage phrase hphrase (hcphrase.trans hd)
    | cons e space =>
      obtain rfl := Option.some.inj hd
      rw [hspace _ List.mem_cons_self] at hdspace
      exact nomatch hdspace

/-- The recogniser accepts a text exactly if, trimmed and lower-cased, it is a heading of the
grammar, and it rejects every heading that asks for a resource that is not listed, whatever the
name in its quotes contains. -/
theorem consent_recognition (laws : LowercaseLaws lower consentCharacters) :
    (∀ text, isFileAccessRequest text = true ↔
      IsConsentHeading (toLowercase (trimText text)).toList) ∧
    ∀ quote ∈ consentQuotes, ∀ language ∈ consentLanguages, ∀ phrase ∈ language.phrases,
      ∀ name space resource : String, isBlank space = true → ¬ language.Lists resource →
        isFileAccessRequest (String.singleton quote.1 ++ name ++ String.singleton quote.2 ++
          space ++ phrase ++ resource) = false := by
  refine ⟨isFileAccessRequest_iff_heading laws, fun quote hquote language hlanguage phrase
    hphrase name space resource hspace hunlisted => ?_⟩
  have hheading : (String.singleton quote.1 ++ name ++ String.singleton quote.2 ++ space ++
      phrase ++ resource).toList = quote.1 :: (name.toList ++ quote.2 ::
        (space.toList ++ (phrase.toList ++ resource.toList))) := by
    simp only [String.toList_append, String.toList_singleton, List.append_assoc, List.cons_append,
      List.nil_append]
  exact rejects_unlisted laws hquote hlanguage hphrase (List.all_eq_true.mp hspace) hheading
    hunlisted

end Recogniser

/-! ## A lower-casing -/

/-- Lower-casing of the Latin capitals and the capital sigma. -/
def latinLower (c : Char) : List Char :=
  if c = 'Σ' then ['σ']
  else if 65 ≤ c.toNat ∧ c.toNat ≤ 90 then [Char.ofNat (c.toNat + 32)]
  else [c]

/-- Lower-casing character by character. -/
@[reducible] def latinLowercase : Lowercase :=
  ⟨fun text => String.ofList (text.toList.flatMap latinLower)⟩

theorem latinLowercase_laws : @LowercaseLaws latinLowercase latinLower consentCharacters := by
  have hcapitals : ∀ n ≤ 90, 65 ≤ n → isWhiteSpace (Char.ofNat n) = false ∧
      isWhiteSpace (Char.ofNat (n + 32)) = false ∧ Char.ofNat n ∉ consentCharacters := by
    decide +kernel
  have hcapital (c : Char) (hc : 65 ≤ c.toNat ∧ c.toNat ≤ 90) : isWhiteSpace c = false ∧
      isWhiteSpace (Char.ofNat (c.toNat + 32)) = false ∧ c ∉ consentCharacters := by
    have h := hcapitals c.toNat hc.2 hc.1
    rwa [Char.ofNat_toNat] at h
  refine @LowercaseLaws.mk latinLowercase latinLower consentCharacters (fun text => ?_) (by decide)
    (fun c hc => ?_) (fun c => ?_) fun c d hd hspace => ?_
  · show LoweredBy latinLower text.toList (String.ofList (text.toList.flatMap latinLower)).toList
    rw [String.toList_ofList]
    induction text.toList with
    | nil => exact .nil
    | cons c rest ih => exact .char c ih
  · have hsigma : c ≠ 'Σ' := by
      rintro rfl
      rcases hc with hc | hc
      · exact sigmas_apart.1 hc
      · exact absurd hc (by decide)
    have hsmall : ¬ (65 ≤ c.toNat ∧ c.toNat ≤ 90) := by
      intro h
      obtain ⟨hspace, -, hmem⟩ := hcapital c h
      rcases hc with hc | hc
      · exact hmem hc
      · rw [hspace] at hc
        exact nomatch hc
    rw [latinLower, if_neg hsigma, if_neg hsmall]
  · rw [latinLower]
    split
    · exact List.cons_ne_nil _ _
    · split <;> exact List.cons_ne_nil _ _
  · rw [latinLower] at hd
    split at hd
    · rw [List.mem_singleton.mp hd] at hspace
      exact absurd hspace (by decide)
    · split at hd
      · rename_i h
        rw [List.mem_singleton.mp hd, (hcapital c h).2.1] at hspace
        exact nomatch hspace
      · exact (List.mem_singleton.mp hd).symm

/-- A name that ends itself and asks for a volume does not get the camera. -/
theorem consent_recognition_camera : @isFileAccessRequest latinLowercase
    (String.singleton '“' ++ "Zoom” wants to access a network volume" ++ String.singleton '”' ++
      " " ++ "would like to access " ++ "the camera.") = false := by
  have hcamera : ¬ @ConsentLanguage.Lists latinLowercase english "the camera." := by
    rintro ⟨listed, hlisted, stops, heq⟩
    have hlowered : (@toLowercase latinLowercase (trimText "the camera.")).toList =
        "the camera.".toList := by decide
    have hnone : ∀ listed ∈ english.resources, ¬ listed.toList <+: "the camera.".toList := by decide
    exact hnone listed hlisted ⟨_, (hlowered.symm.trans heq).symm⟩
  exact (@consent_recognition latinLowercase latinLower latinLowercase_laws).2 ('“', '”')
    List.mem_cons_self english List.mem_cons_self "would like to access " List.mem_cons_self
    "Zoom” wants to access a network volume" " " "the camera." (by decide) hcamera

end Watchcat
