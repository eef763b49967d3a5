import Watchcat.Settings.Dialogs

/-!
# Which rules match a window

A window is matched by the process that owns it, its title and its primary text.
-/

namespace Watchcat

/-! ## Texts -/

/-- `text.strip_prefix(first)`. -/
def stripPrefix (first text : String) : Option String :=
  if first.toList.isPrefixOf text.toList then
    some (String.ofList (text.toList.drop first.toList.length))
  else none

/-- What follows the first occurrence of a character. -/
def splitOnce (c : Char) (text : String) : Option String :=
  match text.toList.dropWhile (· ≠ c) with
  | [] => none
  | _ :: rest => some (String.ofList rest)

/-- `text.trim_end_matches(c)`. -/
def trimEndMatches (c : Char) (text : String) : String :=
  String.ofList (text.toList.reverse.dropWhile (· = c)).reverse

/-- `text.lines().count()`. -/
def lineCount (text : String) : Nat :=
  let breaks := text.toList.count '\n'
  if text.isEmpty || text.toList.getLast? = some '\n' then breaks else breaks + 1

/-! ## Consent requests -/

/-- The text after the quoted name of an application. -/
def afterQuotedName (text : String) : Option String :=
  [('“', '”'), ('"', '"'), ('「', '」')].findSome? fun quote => do
    trimText (← splitOnce quote.2 (← stripPrefix (String.singleton quote.1) text))

/-- `is_file_access_request`. -/
def isFileAccessRequest [Lowercase] (text : String) : Bool :=
  let text := toLowercase (trimText text)
  if lineCount text ≠ 1 then false
  else match afterQuotedName text with
    | none => false
    | some rest =>
      match ["would like to access ", "wants to access "].findSome? fun phrase =>
          stripPrefix phrase rest with
      | some resource =>
        ["files on a removable volume", "files on a network volume", "a removable volume",
          "a network volume", "files in your desktop folder", "files in your documents folder",
          "files in your downloads folder"].contains (trimEndMatches '.' resource)
      | none =>
        match ["想要访问", "想访问", "希望访问", "想要存取", "想存取"].findSome? fun phrase =>
            stripPrefix phrase rest with
        | some resource =>
          let resource := trimEndMatches '。' resource
          ["可移除宗卷上的文件", "可移动宗卷上的文件", "网络宗卷上的文件", "可卸除卷宗上的檔案",
              "網路卷宗上的檔案", "可移除宗卷上的檔案"].contains resource ||
            ["“桌面”文件夹中的文件", "“文稿”文件夹中的文件", "“下载”文件夹中的文件",
              "「桌面」檔案夾中的檔案", "「文件」檔案夾中的檔案",
              "「下載項目」檔案夾中的檔案"].contains resource
        | none => false

/-- `is_allow_button`. -/
def isAllowButton [Lowercase] (title : String) : Bool :=
  ["allow", "ok", "允许", "允許", "好", "好的"].contains (toLowercase (trimText title))

/-! ## Rules -/

/-- The application of a rule is the executable or the bundle. -/
def DialogRule.ofApp (rule : DialogRule) (executable bundle : String) : Bool :=
  rule.app.any fun app => app == executable || app == bundle

/-- `DialogSettings::observes`. -/
def DialogSettings.observes (s : DialogSettings) (executable bundle : String) : Bool :=
  (inKeyOrder s.rules).any fun (name, rule) => rule.enabled &&
    if name = directoryRule then (stripPrefix "/System/Library/" executable).isSome
    else rule.ofApp executable bundle

/-- The rule matches the window. -/
def DialogRule.matchesWindow [Lowercase] (name : String) (rule : DialogRule)
    (executable bundle title heading : String) : Bool :=
  if !rule.enabled then false
  else if name = directoryRule then
    (stripPrefix "/System/Library/" executable).isSome && isFileAccessRequest heading
  else rule.ofApp executable bundle && rule.title.all (title == ·) &&
    rule.text.all (containsText heading ·)

/-- `DialogSettings::matching`. -/
def DialogSettings.matching [Lowercase] (s : DialogSettings)
    (executable bundle title heading : String) : List (String × DialogRule) :=
  (inKeyOrder s.rules).filter fun (name, rule) =>
    rule.matchesWindow name executable bundle title heading

/-- A rule that matches is there and enabled. -/
theorem DialogSettings.mem_matching [Lowercase] {s : DialogSettings}
    {executable bundle title heading name : String} {rule : DialogRule}
    (h : (name, rule) ∈ s.matching executable bundle title heading) :
    s.rules.lookup name = some rule ∧ rule.enabled = true := by
  obtain ⟨hmem, hmatches⟩ := List.mem_filter.mp h
  refine ⟨mem_inKeyOrder.mp hmem, ?_⟩
  by_contra hdisabled
  simp [DialogRule.matchesWindow, hdisabled] at hmatches

end Watchcat
