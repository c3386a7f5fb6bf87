import Mathlib.Data.Finset.Sort
import Mathlib.Data.String.Basic
import Anviq.Semantic.Paid
import Anviq.Text.Tokens

/-! # Guards

`guards.py`: what two queries must have in common, besides their embeddings, for the answer to one
to be served for the other. The guards read numbers, negations, capitalized words and words of
direction with regular expressions. What they compare is said without them, for queries that are
plainly written.
-/

namespace Semantic

open Lru (Seconds WholeSeconds)
open Regex (Pattern Tables isLetter)

namespace Guards

/-! ## Patterns -/

section Patterns

variable (tables : Tables)

/-- `[\d,]`. -/
def isNumeric (char : Char) : Bool := tables.digit char || char = ','

/-- `_NUMBER_RE`. -/
def numberPattern : Pattern :=
  .seq (.one tables.digit) (.seq (.many (isNumeric tables))
    (.seq (.optional (.exact '.')) (.many tables.digit)))

/-- The words of `_NEGATION_RE`. -/
def negationWords : List String :=
  ["not", "never", "no", "none", "nobody", "nothing", "neither", "nor", "without", "except",
    "cannot"]

/-- `_NEGATION_RE`. -/
def negationPattern : Pattern :=
  .alt (tables.standing (.oneOf (negationWords.map tables.ignoringCase)))
    (.seq (tables.ignoringCase "n't") (.look tables.boundary))

/-- `_WORD_RE`. -/
def wordPattern : Pattern :=
  .seq (.atLeastOne isLetter) (.optional (.seq (.exact '\'') (.atLeastOne isLetter)))

end Patterns

/-- `_PRONOUN_STOPWORDS`. -/
def pronounStopwords : List String := ["i", "i'm", "i've", "i'll", "i'd"]

/-- `_DIRECTION_WORDS`. -/
def allDirectionWords : List String :=
  ["more", "less", "before", "after", "max", "maximum", "min", "minimum", "buy", "sell", "increase",
    "decrease", "greater", "smaller", "higher", "lower", "earliest", "latest", "oldest", "newest",
    "first", "last", "above", "below", "over", "under", "win", "lose", "gain"]

/-! ## What the guards read -/

section Guards

variable (tables : Tables)

/-- A number without its commas. -/
def withoutCommas (token : List Char) : String :=
  String.ofList (token.filter fun char => char ≠ ',')

/-- `_numbers`. -/
def numbers (text : String) : Finset String :=
  (((numberPattern tables).tokens text.toList).map withoutCommas).toFinset

/-- `_has_negation`. -/
def hasNegation (text : String) : Bool := (negationPattern tables).found text

/-- `lower`, of a word. -/
def lower (word : List Char) : String := String.ofList (word.map Char.toLower)

/-- The entity that a word, which is not the first one, stands for. -/
def properNoun? (word : List Char) : Option String :=
  let word := if ['\'', 's'].isSuffixOf (word.map Char.toLower) then word.take (word.length - 2)
    else word
  if lower word ∈ pronounStopwords then none
  else if word.head?.any Char.isUpper then some (String.ofList word) else none

/-- `_proper_nouns`. -/
def properNouns (text : String) : Finset String :=
  ((wordPattern.tokens text.toList).tail.filterMap properNoun?).toFinset

/-- `_direction_words`. -/
def directionWords (text : String) : Finset String :=
  ((wordPattern.tokens text.toList).map lower).toFinset ∩ allDirectionWords.toFinset

/-- `repr` of what the guards read: printable, with neither a backslash nor a double quote. -/
def quoted (token : String) : String :=
  if '\'' ∈ token.toList then "\"" ++ token ++ "\"" else "'" ++ token ++ "'"

/-- A sorted set, as it is printed. -/
def listed (tokens : Finset String) : String :=
  "[" ++ ", ".intercalate ((tokens.sort (· ≤ ·)).map quoted) ++ "]"

/-- `guard_numbers`. -/
def guardNumbers (a b : String) : Option String :=
  if numbers tables a ≠ numbers tables b then
    some s!"number mismatch: {listed (numbers tables a)} vs {listed (numbers tables b)}"
  else none

/-- `guard_negation`. -/
def guardNegation (a b : String) : Option String :=
  if hasNegation tables a ≠ hasNegation tables b then some "negation present on only one side"
  else none

/-- `guard_entities`. -/
def guardEntities (a b : String) : Option String :=
  if properNouns a ≠ properNouns b then
    some s!"entity mismatch: {listed (properNouns a)} vs {listed (properNouns b)}"
  else none

/-- `guard_direction`. -/
def guardDirection (a b : String) : Option String :=
  if directionWords a ≠ directionWords b then
    some s!"direction mismatch: {listed (directionWords a)} vs {listed (directionWords b)}"
  else none

/-- `GUARDS`. -/
def all : List (String × (String → String → Option String)) :=
  [("numbers", guardNumbers tables), ("negation", guardNegation tables),
    ("entities", guardEntities), ("direction", guardDirection)]

/-- `first_failure`. -/
def firstFailure (a b : String) : Option (String × String) :=
  (all tables).findSome? fun (name, guard) => (guard a b).map fun reason => (name, reason)

/-- The guards read the same in both queries. -/
structure Alike (a b : String) : Prop where
  numbers : numbers tables a = numbers tables b
  negation : hasNegation tables a = hasNegation tables b
  entities : properNouns a = properNouns b
  direction : directionWords a = directionWords b

variable {tables} {a b : String}

/-- A pair passes exactly if the guards read the same in both, and then every guard passes it. -/
theorem firstFailure_none_iff : firstFailure tables a b = none ↔ Alike tables a b := by
  have read : firstFailure tables a b = none ↔ guardNumbers tables a b = none ∧
      guardNegation tables a b = none ∧ guardEntities a b = none ∧ guardDirection a b = none := by
    simp [firstFailure, all, List.findSome?_eq_none_iff]
  rw [read]
  simp only [guardNumbers, guardNegation, guardEntities, guardDirection, ne_eq, ite_not,
    ite_eq_left_iff, reduceCtorEq, imp_false, not_not]
  constructor
  · rintro ⟨numbers, negation, entities, direction⟩
    exact ⟨numbers, negation, entities, direction⟩
  · rintro ⟨numbers, negation, entities, direction⟩
    exact ⟨numbers, negation, entities, direction⟩

end Guards

/-! ## What queries say -/

section Said

variable (tables : Tables)

/-- A digit, more digits and commas, and perhaps a point and more digits. -/
inductive IsNumber : List Char → Prop
  | intro (first : Char) (more fraction : List Char) (digit : tables.digit first = true)
      (numeric : ∀ char ∈ more, isNumeric tables char = true)
      (fraction_or : fraction = [] ∨ ∃ digits, fraction = '.' :: digits ∧
        ∀ char ∈ digits, tables.digit char = true) : IsNumber (first :: (more ++ fraction))

/-- Letters, and perhaps an apostrophe and more letters. -/
inductive IsWord : List Char → Prop
  | intro (stem ending : List Char) (given : stem ≠ [])
      (letters : ∀ char ∈ stem, isLetter char = true)
      (ending_or : ending = [] ∨ ∃ more, ending = '\'' :: more ∧ more ≠ [] ∧
        ∀ char ∈ more, isLetter char = true) : IsWord (stem ++ ending)

/-- The characters of numbers. -/
def inNumber (char : Char) : Bool := isNumeric tables char || char = '.'

/-- The characters of words. -/
def inWord (char : Char) : Bool := isLetter char || char = '\''

/-- Wherever the text has a digit it has a number, and wherever it has a letter it has a word: no
version numbers, no quoted words. -/
structure Plain (text : List Char) : Prop where
  numbers : ∀ stretch ∈ Pattern.stretches (inNumber tables) text,
    stretch.any tables.digit = true → IsNumber tables stretch
  words : ∀ stretch ∈ Pattern.stretches inWord text, stretch.any isLetter = true → IsWord stretch

/-- The text has the number. -/
def Counts (number : String) (text : List Char) : Prop :=
  ∃ stretch ∈ Pattern.stretches (inNumber tables) text, stretch.any tables.digit = true ∧
    withoutCommas stretch = number

/-- The text has a word of negation, or one that ends in `n't`. -/
inductive Negated (text : List Char) : Prop
  | word (word : String) (among : word ∈ negationWords) (stands : tables.Stands word text)
  | ending (front middle back : List Char) (parts : text = front ++ (middle ++ back))
      (same : tables.Spells "n't" middle)
      (ends : tables.boundary ⟨middle.reverse ++ front.reverse, back⟩ = true)

/-- The text has the word, up to case. -/
def Says (word : String) (text : List Char) : Prop :=
  ∃ stretch ∈ Pattern.stretches inWord text, stretch.any isLetter = true ∧ lower stretch = word

/-- The text has a word for the entity, and it is not the first one. -/
def Names (name : String) (text : List Char) : Prop :=
  ∃ earlier stretch later, Pattern.stretches inWord text = earlier ++ stretch :: later ∧
    stretch.any isLetter = true ∧ (∃ word ∈ earlier, word.any isLetter = true) ∧
      properNoun? stretch = some name

/-- The texts have the same numbers, both or neither are negated, and they have the same names and
the same words of direction. -/
structure Agree (a b : List Char) : Prop where
  numbers : ∀ number, Counts tables number a ↔ Counts tables number b
  negation : Negated tables a ↔ Negated tables b
  names : ∀ name, Names name a ↔ Names name b
  directions : ∀ word ∈ allDirectionWords, Says word a ↔ Says word b

end Said

/-! ## What the guards find -/

section Found

variable {tables : Tables} {text : String} {stretch : List Char}

theorem confined_number : (numberPattern tables).Confined (inNumber tables) := by
  have digit (char : Char) (accepted : tables.digit char = true) :
      inNumber tables char = true := by simp [inNumber, isNumeric, accepted]
  refine ⟨digit, fun char accepted => ?_, ⟨fun char accepted => ?_, trivial⟩, digit⟩
  · rw [inNumber, accepted, Bool.true_or]
  · rw [inNumber, show decide (char = '.') = true from accepted, Bool.or_true]

theorem confined_word : wordPattern.Confined inWord := by
  have letter (char : Char) (accepted : isLetter char = true) : inWord char = true := by
    rw [inWord, accepted, Bool.true_or]
  refine ⟨⟨letter, letter⟩, ⟨fun char accepted => ?_, letter, letter⟩, trivial⟩
  rw [inWord, show decide (char = '\'') = true from accepted, Bool.or_true]

theorem reading_number : (numberPattern tables).Reading := (Pattern.reading_one _).seq _

theorem reading_word : wordPattern.Reading := ((Pattern.reading_one _).seq _).seq _

theorem outside_nil (inside : Char → Bool) : Regex.Outside inside [] := fun _ absent => by
  cases absent

/-- A number is taken whole. -/
theorem tokens_number (isNumber : IsNumber tables stretch) :
    (numberPattern tables).tokens stretch = [stretch] := by
  have ending {before : List Char} :
      (Pattern.seq (.optional (.exact '.')) (.many tables.digit)).Prefers ⟨before, []⟩
        ⟨before, []⟩ :=
    ((Pattern.prefers_empty _).right rfl).seq rfl
  -- Digits and commas only: the repetition takes all of them.
  have whole {first : Char} {more : List Char} (digit : tables.digit first = true)
      (numeric : ∀ char ∈ more, isNumeric tables char = true) :
      (numberPattern tables).tokens (first :: more) = [first :: more] := by
    have taken : (Pattern.many (isNumeric tables)).Prefers ⟨[first], more ++ []⟩
        ⟨more.reverse ++ [first], []⟩ := Pattern.prefers_many numeric (outside_nil _)
    rw [List.append_nil] at taken
    exact Pattern.tokens_whole ((Pattern.prefers_one digit).seq (taken.seq ending)) rfl
      (List.cons_ne_nil _ _)
  cases isNumber with
  | intro first more fraction digit numeric fraction_or =>
      rcases fraction_or with rfl | ⟨digits, rfl, others⟩
      · rw [List.append_nil]
        exact whole digit numeric
      · cases point : isNumeric tables '.' with
        | true =>
            refine whole digit (List.forall_mem_append.mpr ⟨numeric, List.forall_mem_cons.mpr
              ⟨point, fun char among => ?_⟩⟩)
            rw [isNumeric, others char among, Bool.true_or]
        | false =>
            have stops : Regex.Outside (isNumeric tables) ('.' :: digits) := by
              rintro char ⟨⟩
              exact point
            have rest {before : List Char} : (Pattern.many tables.digit).Prefers ⟨before, digits⟩
                ⟨digits.reverse ++ before, []⟩ := by
              have taken : (Pattern.many tables.digit).Prefers ⟨before, digits ++ []⟩
                  ⟨digits.reverse ++ before, []⟩ := Pattern.prefers_many others (outside_nil _)
              rwa [List.append_nil] at taken
            exact Pattern.tokens_whole ((Pattern.prefers_one digit).seq
              ((Pattern.prefers_many numeric stops).seq
                ((Pattern.prefers_one (decide_eq_true rfl)).left.seq rest))) rfl
              (List.cons_ne_nil _ _)

/-- A word is taken whole. -/
theorem tokens_word (isWord : IsWord stretch) : wordPattern.tokens stretch = [stretch] := by
  have letters {before word rest : List Char} (given : word ≠ [])
      (all : ∀ char ∈ word, isLetter char = true) (outside : Regex.Outside isLetter rest) :
      (Pattern.atLeastOne isLetter).Prefers ⟨before, word ++ rest⟩
        ⟨word.reverse ++ before, rest⟩ := by
    cases word with
    | nil => exact absurd rfl given
    | cons char word =>
        rw [List.forall_mem_cons] at all
        rw [List.reverse_cons, List.append_assoc]
        exact (Pattern.prefers_one all.1).seq (Pattern.prefers_many all.2 outside)
  cases isWord with
  | intro stem ending given all ending_or =>
      have whole : stem ++ ending ≠ [] := List.append_ne_nil_of_left_ne_nil given _
      rcases ending_or with rfl | ⟨more, rfl, given', all'⟩
      · exact Pattern.tokens_whole ((letters given all (outside_nil _)).seq
          ((Pattern.prefers_empty _).right rfl)) rfl whole
      · have stops : Regex.Outside isLetter ('\'' :: more) := by
          rintro char ⟨⟩
          rfl
        have rest {before : List Char} : (Pattern.atLeastOne isLetter).Prefers ⟨before, more⟩
            ⟨more.reverse ++ before, []⟩ := by
          have taken : (Pattern.atLeastOne isLetter).Prefers ⟨before, more ++ []⟩
              ⟨more.reverse ++ before, []⟩ := letters given' all' (outside_nil _)
          rwa [List.append_nil] at taken
        exact Pattern.tokens_whole ((letters given all stops).seq
          ((Pattern.prefers_one (decide_eq_true rfl)).seq rest).left) rfl whole

/-- A number begins with a digit. -/
theorem tokens_without_digit (silent : stretch.any tables.digit = false) :
    (numberPattern tables).tokens stretch = [] := by
  rw [List.eq_nil_iff_forall_not_mem]
  intro token found
  rcases Pattern.mem_tokensFrom found with ⟨front, rest, rfl, accepted⟩
  rcases Pattern.accepts_seq_iff.mp accepted with ⟨first, more, rfl, one, -⟩
  rcases Pattern.accepts_one_iff.mp one with ⟨char, rfl, digit⟩
  rw [List.any_eq_false] at silent
  exact silent char (by simp) digit

/-- A word begins with a letter. -/
theorem tokens_without_letter (silent : stretch.any isLetter = false) :
    wordPattern.tokens stretch = [] := by
  rw [List.eq_nil_iff_forall_not_mem]
  intro token found
  rcases Pattern.mem_tokensFrom found with ⟨front, rest, rfl, accepted⟩
  rcases Pattern.accepts_seq_iff.mp accepted with ⟨stem, ending, rfl, stems, -⟩
  rcases Pattern.accepts_seq_iff.mp stems with ⟨first, more, rfl, one, -⟩
  rcases Pattern.accepts_one_iff.mp one with ⟨char, rfl, letter⟩
  rw [List.any_eq_false] at silent
  exact silent char (by simp) letter

/-- The numbers of a plain text are those that stand in it. -/
theorem mem_numbers (plain : Plain tables text.toList) {number : String} :
    number ∈ numbers tables text ↔ Counts tables number text.toList := by
  rw [numbers, Pattern.tokens_clear confined_number reading_number
    (fun _ silent => tokens_without_digit silent)
    (fun stretch among digit => tokens_number (plain.numbers stretch among digit)),
    List.mem_toFinset, List.mem_map]
  simp only [List.mem_filter, and_assoc, Counts]

theorem tokens_plain (plain : Plain tables text.toList) : wordPattern.tokens text.toList =
    (Pattern.stretches inWord text.toList).filter fun stretch => stretch.any isLetter :=
  Pattern.tokens_clear confined_word reading_word (fun _ silent => tokens_without_letter silent)
    fun stretch among letter => tokens_word (plain.words stretch among letter)

theorem mem_directionWords (plain : Plain tables text.toList) {word : String} :
    word ∈ directionWords text ↔ word ∈ allDirectionWords ∧ Says word text.toList := by
  rw [directionWords, tokens_plain plain, Finset.mem_inter, List.mem_toFinset, List.mem_toFinset,
    List.mem_map, and_comm]
  simp only [List.mem_filter, and_assoc, Says]

/-- A member of the tail of a filtered list stands after another member. -/
theorem mem_tail_filter {α : Type} {keep : α → Bool} {list : List α} {item : α} :
    item ∈ (list.filter keep).tail ↔ ∃ earlier later, list = earlier ++ item :: later ∧
      keep item = true ∧ ∃ first ∈ earlier, keep first = true := by
  constructor
  · intro among
    cases kept : list.filter keep with
    | nil =>
        rw [kept] at among
        cases among
    | cons first others =>
        rw [kept] at among
        rcases List.filter_eq_cons_iff.mp kept with ⟨front, back, rfl, -, keeps, rfl⟩
        rcases List.mem_filter.mp among with ⟨inside, keepsItem⟩
        rcases List.append_of_mem inside with ⟨middle, later, rfl⟩
        exact ⟨front ++ first :: middle, later, by simp, keepsItem, first, by simp, keeps⟩
  · rintro ⟨earlier, later, rfl, keepsItem, first, before, keeps⟩
    rw [List.filter_append, List.filter_cons, if_pos keepsItem]
    cases kept : earlier.filter keep with
    | nil => exact absurd keeps (List.filter_eq_nil_iff.mp kept first before)
    | cons head others => simp

theorem mem_properNouns (plain : Plain tables text.toList) {name : String} :
    name ∈ properNouns text ↔ Names name text.toList := by
  rw [properNouns, tokens_plain plain, List.mem_toFinset, List.mem_filterMap]
  constructor
  · rintro ⟨stretch, among, shown⟩
    rcases mem_tail_filter.mp among with ⟨earlier, later, parts, letter, before⟩
    exact ⟨earlier, stretch, later, parts, letter, before, shown⟩
  · rintro ⟨earlier, stretch, later, parts, letter, before, shown⟩
    exact ⟨stretch, mem_tail_filter.mpr ⟨earlier, later, parts, letter, before⟩, shown⟩

/-- A text is negated exactly if a word in it says so. -/
theorem hasNegation_iff : hasNegation tables text = true ↔ Negated tables text.toList := by
  rw [hasNegation, Pattern.found_iff]
  constructor
  · rintro ⟨front, read, rest, parts, accepted⟩
    rcases Pattern.accepts_alt_iff.mp accepted with word | contracted
    · rcases Pattern.accepts_seq_iff.mp word with ⟨nothing, others, rfl, left, inside⟩
      rcases Pattern.accepts_look_iff.mp left with ⟨rfl, begins⟩
      rcases Pattern.accepts_seq_iff.mp inside with ⟨read, nothing, rfl, spelled, right⟩
      rcases Pattern.accepts_look_iff.mp right with ⟨rfl, ends⟩
      rcases Pattern.accepts_oneOf_iff.mp spelled with ⟨pattern, listed, same⟩
      rcases List.mem_map.mp listed with ⟨word, among, rfl⟩
      rw [List.append_nil] at begins
      rw [List.nil_append, List.append_nil] at parts
      exact .word word among (.intro front read rest parts (Pattern.accepts_literal_iff.mp same)
        begins ends)
    · rcases Pattern.accepts_seq_iff.mp contracted with ⟨read, nothing, rfl, same, right⟩
      rcases Pattern.accepts_look_iff.mp right with ⟨rfl, ends⟩
      rw [List.append_nil] at parts
      exact .ending front read rest parts (Pattern.accepts_literal_iff.mp same) ends
  · rintro (⟨word, among, front, read, rest, parts, same, begins, ends⟩ |
      ⟨front, read, rest, parts, same, ends⟩)
    · have spelled : (Pattern.oneOf (negationWords.map tables.ignoringCase)).Accepts front.reverse
          read rest :=
        Pattern.accepts_oneOf (List.mem_map_of_mem among) (Pattern.accepts_literal same)
      have inside := spelled.seq (Pattern.accepts_look ends)
      rw [List.append_nil] at inside
      exact ⟨front, read, rest, parts, .left ((Pattern.accepts_look begins).seq inside)⟩
    · have spelled : (tables.ignoringCase "n't").Accepts front.reverse read rest :=
        Pattern.accepts_literal same
      have inside := spelled.seq (Pattern.accepts_look ends)
      rw [List.append_nil] at inside
      exact ⟨front, read, rest, parts, .right inside⟩

/-- Of plain texts the guards compare what they say. -/
theorem alike_iff {a b : String} (plainA : Plain tables a.toList) (plainB : Plain tables b.toList) :
    Alike tables a b ↔ Agree tables a.toList b.toList := by
  constructor
  · intro alike
    refine ⟨fun number => ?_, ?_, fun name => ?_, fun word among => ?_⟩
    · rw [← mem_numbers plainA, ← mem_numbers plainB, alike.numbers]
    · rw [← hasNegation_iff, ← hasNegation_iff, alike.negation]
    · rw [← mem_properNouns plainA, ← mem_properNouns plainB, alike.entities]
    · have same : word ∈ directionWords a ↔ word ∈ directionWords b := by rw [alike.direction]
      rw [mem_directionWords plainA, mem_directionWords plainB] at same
      exact ⟨fun said => (same.mp ⟨among, said⟩).2, fun said => (same.mpr ⟨among, said⟩).2⟩
  · intro agree
    refine ⟨Finset.ext fun number => ?_, Bool.eq_iff_iff.mpr ?_, Finset.ext fun name => ?_,
      Finset.ext fun word => ?_⟩
    · rw [mem_numbers plainA, mem_numbers plainB, agree.numbers]
    · rw [hasNegation_iff, hasNegation_iff, agree.negation]
    · rw [mem_properNouns plainA, mem_properNouns plainB, agree.names]
    · rw [mem_directionWords plainA, mem_directionWords plainB]
      exact and_congr_right fun among => agree.directions word among

end Found

/-- **What the guards tell apart.** Two plain queries pass every guard exactly if they have the same
numbers, both or neither are negated, and they have the same names after the first word and the same
words of direction. -/
theorem guards_tell_apart {tables : Tables} {a b : String} (plainA : Plain tables a.toList)
    (plainB : Plain tables b.toList) :
    firstFailure tables a b = none ↔ Agree tables a.toList b.toList :=
  firstFailure_none_iff.trans (alike_iff plainA plainB)

/-- Numbers without commas and points and words without apostrophes are plain. -/
theorem plain_of_bare {tables : Tables} {text : List Char}
    (numbers : ∀ stretch ∈ Pattern.stretches (inNumber tables) text,
      stretch.any tables.digit = true → stretch.all tables.digit = true)
    (words : ∀ stretch ∈ Pattern.stretches inWord text,
      stretch.any isLetter = true → stretch.all isLetter = true) : Plain tables text := by
  refine ⟨fun stretch among shows => ?_, fun stretch among shows => ?_⟩
  · have digits := List.all_eq_true.mp (numbers stretch among shows)
    cases stretch with
    | nil => cases shows
    | cons first more =>
        rw [List.forall_mem_cons] at digits
        have whole := IsNumber.intro first more [] digits.1
          (fun char inside => by rw [isNumeric, digits.2 char inside, Bool.true_or]) (.inl rfl)
        rwa [List.append_nil] at whole
  · have letters := List.all_eq_true.mp (words stretch among shows)
    have given : stretch ≠ [] := by
      rintro rfl
      cases shows
    have whole := IsWord.intro stretch [] given letters (.inl rfl)
    rwa [List.append_nil] at whole

/-- The numbers tell the queries apart. -/
theorem guards_tell_apart_topTen :
    ¬ Agree Regex.ascii "top 5 startups".toList "top 10 startups".toList := by
  have five : Plain Regex.ascii "top 5 startups".toList := plain_of_bare (by decide) (by decide)
  have ten : Plain Regex.ascii "top 10 startups".toList := plain_of_bare (by decide) (by decide)
  have rejected : firstFailure Regex.ascii "top 5 startups" "top 10 startups" ≠ none := by decide
  exact fun agree => rejected ((guards_tell_apart five ten).mpr agree)

end Guards

/-! ## Answers -/

section Answers

variable {Vector Score Time Temperature Response Caller : Type} [Seconds Time]
  [LT Score] [LE Score] [DecidableLT Score] [DecidableLE Score] [One Score] [DecidableEq Caller]
  {config : Config Vector Score Time Temperature} {requests : Caller → Request Temperature}
  {tables : Tables} {client : CachedLLM Response Score Time config.index.State Caller}
  {history : List (Taken config Response Caller)} {caller : Caller}
  {result : CachedResponse Response Score}

/-- Nothing decisive is between the two queries: they normalize to one text, or the guards read the
same in both. -/
inductive Interchangeable (config : Config Vector Score Time Temperature) (tables : Tables)
    (asked answered : String) : Prop
  | normalized (same : config.exactHash asked = config.exactHash answered)
  | guarded (alike : Guards.Alike tables asked answered)
      (plainly : Guards.Plain tables asked.toList → Guards.Plain tables answered.toList →
        Guards.Agree tables asked.toList answered.toList)

/-- **No decisive difference is blurred.** However many callers interleave, what one of them is
given came back from its own call upstream, or was paid for a query of its partition that normalizes
to the same text or has, as far as both are plain, the same numbers, negation, names and words of
direction. -/
theorem answers_agree (run : (flying config requests).Run history client)
    (guards : config.firstFailure = Guards.firstFailure tables)
    (returned : client.stage caller = .returned result) :
    ∃ response, result.response = some response ∧ (PaidAlone history caller response ∨ ∃ query,
      Paid requests history (partitionKeyFor config (requests caller).ctx, query) response ∧
        Interchangeable config tables (requests caller).query query) := by
  have justified := (run_allPaid run).stages caller
  rw [returned] at justified
  cases justified with
  | @alone response _ answer _ paid =>
      exact ⟨response, answer, .inl paid⟩
  | @called response _ answer paid =>
      exact ⟨response, answer, .inr ⟨_, paid, .normalized rfl⟩⟩
  | @cached query response expiresAt looked _ answer _ _ bought _ _ _ alike =>
      refine ⟨response, answer, .inr ⟨query, bought.paid, ?_⟩⟩
      rcases alike with same | ⟨passed, -⟩
      · exact .normalized same
      · rw [guards, Guards.firstFailure_none_iff] at passed
        exact .guarded passed fun asked answered => (Guards.alike_iff asked answered).mp passed

end Answers

/-- The cache of before, with the guards of the source. -/
def guarded : Config Nat Nat WholeSeconds Unit :=
  { lengths with firstFailure := Guards.firstFailure Regex.ascii }

/-- The callers ask the same in other words. -/
def askingAlong (caller : Bool) : Request Unit :=
  asking (if caller then "is Rome safe" else "a safe Rome?")

/-- An answer that is given along was paid for a query that the guards read the same. -/
theorem answers_agree_along :
    ∃ (history : List (Taken guarded Nat Bool)) (result : CachedResponse Nat Nat),
      result.status = .hitSemantic ∧ ∃ response, result.response = some response ∧
        (PaidAlone history true response ∨ ∃ query,
          Paid askingAlong history (partitionKeyFor guarded (askingAlong true).ctx, query)
            response ∧ Interchangeable guarded Regex.ascii (askingAlong true).query query) := by
  rcases run_of_legal guarded askingAlong
    (show legal guarded askingAlong (partitionKeyFor guarded (asking "hi").ctx) payingTurns = true
      from rfl) with ⟨run, -⟩
  have returned : (flight guarded askingAlong payingTurns).stage true = .returned
      { response := some 7, status := .hitSemantic, score := some 1, reason := "semantic",
        entryId := some "t:1" } := rfl
  exact ⟨_, _, rfl, answers_agree run rfl returned⟩

end Semantic
