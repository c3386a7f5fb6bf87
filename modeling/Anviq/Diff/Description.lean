import Anviq.Diff.Schema

/-! # Comparing descriptions

`patterns.py` and `description_diff.py`: the patterns of injected text that are new
in a description, and how far its meaning has moved. No caller passes an
embedder or a judge, so a text is scored by its tokens.
-/

namespace Harness.Diff

section Description

variable (lib : Stdlib)

/-! ## Patterns -/

/-- `PatternMatch`. -/
structure PatternMatch where
  category : String
  snippet : String
deriving DecidableEq

/-- `URL_RE`. -/
def urlRe : String := "\\bhttps?://[^\\s\"'<>]+"

/-- `EMAIL_RE`. -/
def emailRe : String := "\\b[\\w.+-]+@[\\w-]+\\.[\\w.-]+\\b"

/-- `IPV4_RE`. -/
def ipv4Re : String := "\\b(?:\\d\x7b1,3\x7d\\.)\x7b3\x7d\\d\x7b1,3\x7d\\b"

/-- `_INSTRUCTION_RES`. -/
def instructionRes : List String :=
  ["\\bignore\\s+(all\\s+|any\\s+|the\\s+)?(previous|prior|above)\\b",
    "\\bdo\\s+not\\s+tell\\s+the\\s+user\\b",
    "\\bnever\\s+(mention|tell|reveal)\\b",
    "\\bbefore\\s+using\\s+this\\s+tool\\b",
    "<\\s*(important|system|instructions?)\\s*>",
    "\\bdisregard\\s+(all\\s+|any\\s+|the\\s+)?(previous|prior)\\b"]

/-- `_EXFIL_RES`. -/
def exfilRes : List String :=
  ["\\b(send|forward|upload|include|copy|attach|append)\\b[^\\n]\x7b0,60\x7d\\b(in|into|to)\\b" ++
    "[^\\n]\x7b0,40\x7d\\b(field|notes|body|message|request|response|server|endpoint|url)\\b"]

/-- `_SENSITIVE_RES`. -/
def sensitiveRes : List String :=
  ["~[/\\\\]\\.ssh", "\\.env\\b", "id_rsa", "\\bapi[_ -]?key\\b", "\\baccess[_ -]?token\\b",
    "\\bpassword\\b", "\\bsecret\\b", urlRe, emailRe, ipv4Re]

/-- `_HIDDEN_TEXT_RES`. -/
def hiddenTextRes : List String :=
  ["[\u200b\u200c\u200d\u2060\ufeff]", " \x7b10,\x7d", "\\t\x7b4,\x7d",
    "[A-Za-z0-9+/]\x7b40,\x7d=\x7b0,2\x7d(?!\\w)"]

/-- `CATEGORIES`: a category, whether its patterns ignore case, and its patterns. -/
def categories : List (String × Bool × List String) :=
  [("instruction", true, instructionRes), ("exfil", true, exfilRes),
    ("sensitive", true, sensitiveRes), ("hidden_text", false, hiddenTextRes)]

/-- A character that `re.escape` escapes. -/
def isSpecial (char : Char) : Bool :=
  "()[]\x7b\x7d?*+-|^$\\.&~# \t\n\r\x0b\x0c".toList.contains char

/-- `re.escape`. -/
def reEscape (text : String) : String :=
  String.ofList (text.toList.flatMap fun char => if isSpecial char then ['\\', char] else [char])

/-- `_cross_tool_matches`, over the other names in the order of their set. -/
def crossToolMatches (text : String) (otherToolNames : List String) : List PatternMatch :=
  otherToolNames.filterMap fun name =>
    if name = "" then none
    else if (lib.search ("\\b" ++ reEscape name ++ "\\b") true text).isSome then
      some { category := "cross_tool:" ++ name, snippet := name }
    else none

/-- `scan`. -/
def scan (text : String) (otherToolNames : List String) : List PatternMatch :=
  (categories.flatMap fun entry => entry.2.2.filterMap fun pattern =>
    (lib.search pattern entry.2.1 text).map fun found =>
      { category := entry.1, snippet := String.ofList (found.toList.take 80) }) ++
    crossToolMatches lib text otherToolNames

/-- `new_matches`. -/
def newMatches (before after : String) (otherToolNames : List String) : List PatternMatch :=
  let beforeCategories := (scan lib before otherToolNames).map PatternMatch.category
  (scan lib after otherToolNames).filter fun found => !beforeCategories.contains found.category

/-! ## Texts -/

/-- `string.punctuation`. -/
def punctuation : List Char := "!\"#$%&'()*+,-./:;<=>?@[\\]^_`\x7b|\x7d~".toList

/-- `str.strip`. -/
def strip (text : List Char) : List Char :=
  ((text.dropWhile isSpace).reverse.dropWhile isSpace).reverse

/-- Replace every run of white space by one space. -/
def collapseSpaces : List Char → List Char
  | [] => []
  | char :: rest =>
      if isSpace char then
        match rest with
        | next :: _ => if isSpace next then collapseSpaces rest else ' ' :: collapseSpaces rest
        | [] => [' ']
      else char :: collapseSpaces rest

/-- `normalize`. -/
def normalize (text : String) : List Char :=
  let lowered := (lib.lower (String.ofList (strip text.toList))).toList
  strip (collapseSpaces (lowered.filter fun char => !punctuation.contains char))

/-- The words of a text: `str.split()`. -/
def words : List Char → List (List Char)
  | [] => []
  | char :: rest =>
      if isSpace char then words rest
      else
        match rest with
        | next :: _ =>
            if isSpace next then [char] :: words rest
            else
              match words rest with
              | word :: others => (char :: word) :: others
              | [] => [[char]]
        | [] => [[char]]

/-- `_tokens`, each once. -/
def tokens (text : String) : List (List Char) := (words (normalize lib text)).dedup

/-- Whether two sets hold the same. -/
def sameSet {α : Type} [DecidableEq α] (left right : List α) : Bool :=
  left.all right.contains && right.all left.contains

/-- `jaccard_similarity`. -/
def jaccardSimilarity (before after : String) : ℚ :=
  let a := tokens lib before
  let b := tokens lib after
  if a = [] ∧ b = [] then 1
  else if a = [] ∨ b = [] then 0
  else
    let common := a.filter b.contains
    let all := a ++ b.filter fun token => !a.contains token
    lib.double (common.length / all.length)

/-- `NEGATION_WORDS`. -/
def negationWords : List (List Char) :=
  ["not", "no", "never", "cannot", "cant", "without", "except", "only"].map String.toList

/-- `_negation_flipped`. -/
def negationFlipped (before after : String) : Bool :=
  !sameSet ((tokens lib before).filter negationWords.contains)
    ((tokens lib after).filter negationWords.contains)

/-- The longest beginning of a text whose characters satisfy a test, and the rest. -/
def spanChars (test : Char → Bool) (text : List Char) : List Char × List Char :=
  (text.takeWhile test, text.dropWhile test)

/-- A letter of a unit: `[a-zA-Z%]`. -/
def isUnit (char : Char) : Bool :=
  ('a' ≤ char && char ≤ 'z') || ('A' ≤ char && char ≤ 'Z') || char = '%'

/-- The fraction `(?:\.\d+)?` at the beginning of a text, and the rest. -/
def fractionPart : List Char → List Char × List Char
  | '.' :: rest =>
      let (digits, after) := spanChars (fun char => (lib.decimal char).isSome) rest
      if digits = [] then ([], '.' :: rest) else ('.' :: digits, after)
  | rest => ([], rest)

/-- The number and unit `_NUMBER_RE` matches at the beginning of a text, and the
rest. -/
def numberAt (text : List Char) : List Char × List Char :=
  let (whole, afterWhole) := spanChars (fun char => (lib.decimal char).isSome) text
  let (fraction, afterFraction) := fractionPart lib afterWhole
  let (gap, afterGap) := spanChars isSpace afterFraction
  let (unit, rest) := spanChars isUnit afterGap
  (whole ++ fraction ++ gap ++ unit, rest)

/-- `_NUMBER_RE.findall`: the matches in `length` steps at most. -/
def findNumbers : Nat → List Char → List (List Char)
  | 0, _ => []
  | _, [] => []
  | length + 1, char :: rest =>
      if (lib.decimal char).isSome then
        let (number, after) := numberAt lib (char :: rest)
        number :: findNumbers length after
      else findNumbers length rest

/-- The numbers of a text, normalised. -/
def numbers (text : String) : List (List Char) :=
  findNumbers lib (normalize lib text).length (normalize lib text)

/-- `_numbers_changed`. -/
def numbersChanged (before after : String) : Bool :=
  !sameSet (numbers lib before) (numbers lib after)

/-! ## The comparison -/

/-- `_CATEGORY_RULE_IDS`. -/
def categoryRuleIds : List (String × String) :=
  [("instruction", "DESC_INJECTION_INSTRUCTION"), ("exfil", "DESC_EXFIL_PATTERN"),
    ("sensitive", "DESC_SENSITIVE_PATTERN"), ("hidden_text", "DESC_HIDDEN_TEXT")]

/-- The name in a category `cross_tool:name`. -/
def crossTool? (category : String) : Option String :=
  if "cross_tool:".toList <+: category.toList then
    some (String.ofList (category.toList.drop "cross_tool:".length))
  else none

/-- `category.replace("_", " ")`. -/
def kindOf (category : String) : String :=
  String.ofList (category.toList.map fun char => if char = '_' then ' ' else char)

/-- The rule and the message of a match. -/
def matchRule (found : PatternMatch) : String × String :=
  match crossTool? found.category with
  | some other =>
      ("DESC_CROSS_TOOL_REFERENCE",
        s!"description now mentions another tool ({reprString lib other}) it did not mention before " ++
          "-- possible cross-tool shadowing")
  | none =>
      ((categoryRuleIds.lookup found.category).getD "",
        s!"description gained new {kindOf found.category} content not present before: " ++
          reprString lib found.snippet)

/-- A finding about a description. -/
def descriptionFinding (tool : String) (severity : Severity) (ruleId message before after : String) :
    Finding :=
  { severity, ruleId, tool, path := "/description", message, before := .str before,
    after := .str after }

/-- `DEFAULT_SEMANTIC_THRESHOLD`. -/
def semanticThreshold : ℚ := 1 / 2

/-- Why the meaning of a text likely changed. -/
def changeReasons (before after : String) : List String :=
  let why :=
    (if negationFlipped lib before after then ["a negation word was added or removed"] else []) ++
      if numbersChanged lib before after then ["a number or unit changed"] else []
  if why = [] then
    [s!"token Jaccard similarity={fixed2 (jaccardSimilarity lib before after)} " ++
      "is below the 0.5 threshold"]
  else why

/-- `diff_description` on texts. -/
def diffTexts (tool before after : String) (otherToolNames : List String) : List Finding :=
  if normalize lib before = normalize lib after then []
  else
    let flagged := (newMatches lib before after otherToolNames).map fun found =>
      let (ruleId, message) := matchRule lib found
      descriptionFinding tool .security ruleId message before after
    let score := jaccardSimilarity lib before after
    let forced := negationFlipped lib before after || numbersChanged lib before after
    flagged ++
      if forced || decide (score < semanticThreshold) then
        [descriptionFinding tool .warn "DESC_SEMANTIC_CHANGE"
          ("description meaning likely changed (" ++
            "; ".intercalate (changeReasons lib before after) ++ ")")
          before after]
      else if flagged.isEmpty then
        [descriptionFinding tool .info "DESC_REWORDED"
          ("description text changed but meaning looks the same " ++
            s!"(token Jaccard similarity={fixed2 score})")
          before after]
      else []

/-- A description, `description or ""`, which `normalize` takes for a text. -/
def descriptionOf (value : PyJson) : Except PyError String :=
  match orElse value (.str "") with
  | .str text => .ok text
  | other => .error (.attributeError s!"'{typeName other}' object has no attribute 'strip'")

/-- `diff_description`. -/
def diffDescription (tool : String) (before after : PyJson) (otherToolNames : List String) :
    Except PyError (List Finding) := do
  let beforeText ← descriptionOf before
  let afterText ← descriptionOf after
  .ok (diffTexts lib tool beforeText afterText otherToolNames)

end Description

end Harness.Diff
