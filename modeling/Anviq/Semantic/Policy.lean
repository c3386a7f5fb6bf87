import Anviq.Semantic.ServedHit
import Anviq.Text.Regex

/-! # What may be cached

`policy.py`: the requests that are refused before the embedder or the index is touched. The patterns
are those of the source; what they find, a query about the person who asks, one whose answer depends
on the time, an email address or a phone number, is said without them.
-/

namespace Semantic

open Lru (Seconds Ttl WholeSeconds expired)
open Regex (Pattern Place Tables isLetter)

namespace Policy

/-! ## Patterns -/

section Patterns

variable (tables : Tables)

/-- The phrases of `_TIME_SENSITIVE_RE`. -/
def timePhrases : List (List String) :=
  [["today", "tonight", "now", "right now", "currently", "current", "latest", "breaking", "live"],
    ["this week", "this month", "this year"], ["current price"]]

/-- `_TIME_SENSITIVE_RE`. -/
def timeSensitive : Pattern :=
  .oneOf (timePhrases.map fun phrases => tables.standing (.oneOf (phrases.map tables.ignoringCase)))

/-- `i'?` and a rest, between boundaries. -/
def contraction (rest : String) : Pattern :=
  tables.standing
    (.seq (tables.ignoringCase "i")
      (.seq (.optional (.one (tables.alike '\''))) (tables.ignoringCase rest)))

/-- `_PERSONAL_RE`. -/
def personal : Pattern :=
  .oneOf ([tables.standing (.oneOf (["my", "mine", "me", "myself"].map tables.ignoringCase))] ++
    ["m", "ve", "ll", "d"].map (contraction tables) ++ [tables.standing (tables.ignoringCase "i")])

/-- `[\w.+-]`. -/
def isUserChar (char : Char) : Bool :=
  tables.word char || char = '.' || char = '+' || char = '-'

/-- `[\w-]`. -/
def isDomainChar (char : Char) : Bool := tables.word char || char = '-'

/-- `_EMAIL_RE`. -/
def email : Pattern :=
  .seq (.atLeastOne (isUserChar tables)) (.seq (.exact '@')
    (.seq (.atLeastOne (isDomainChar tables)) (.seq (.exact '.')
      (.seq (.exactly isLetter 2) (.many isLetter)))))

/-- `[-.\s]`. -/
def isSeparator (char : Char) : Bool := char = '-' || char = '.' || tables.space char

/-- `(\+?\d{1,3}[-.\s]?)?`. -/
def countryCode : Pattern :=
  .optional (.seq (.optional (.exact '+')) (.seq (.one tables.digit)
    (.seq (.optional (.seq (.one tables.digit) (.optional (.one tables.digit))))
      (.optional (.one (isSeparator tables))))))

/-- `_PHONE_RE`. -/
def phone : Pattern :=
  .seq (.look fun place => !place.before.head?.any tables.digit)
    (.seq (countryCode tables) (.seq (.optional (.exact '(')) (.seq (.exactly tables.digit 3)
      (.seq (.optional (.exact ')')) (.seq (.one (isSeparator tables))
        (.seq (.exactly tables.digit 3) (.seq (.one (isSeparator tables))
          (.seq (.exactly tables.digit 4)
            (.look fun place => !place.after.head?.any tables.digit)))))))))

end Patterns

/-! ## Private queries -/

section Private

variable (tables : Tables)

/-- The words that say that a query is about the person who asks. -/
def personalWords : List String :=
  ["my", "mine", "me", "myself", "i"] ++
    ["m", "ve", "ll", "d"].flatMap fun rest => ["i" ++ rest, "i'" ++ rest]

/-- An email address. -/
inductive IsEmail : List Char → Prop
  | intro (user domain top : List Char) (user_given : user ≠ []) (domain_given : domain ≠ [])
      (top_long : 2 ≤ top.length) (user_chars : ∀ char ∈ user, isUserChar tables char = true)
      (domain_chars : ∀ char ∈ domain, isDomainChar tables char = true)
      (top_chars : ∀ char ∈ top, isLetter char = true) :
      IsEmail (user ++ '@' :: (domain ++ '.' :: top))

/-- A country code, with or without a plus sign before it and a separator after it. -/
inductive IsCountryCode : List Char → Prop
  | intro (plus code separator : List Char) (plus_or : plus = [] ∨ plus = ['+'])
      (code_given : code ≠ []) (code_short : code.length ≤ 3)
      (code_digits : ∀ char ∈ code, tables.digit char = true)
      (separator_or : separator = [] ∨ ∃ char, separator = [char] ∧
        isSeparator tables char = true) :
      IsCountryCode (plus ++ (code ++ separator))

/-- A phone number of three, three and four digits. -/
inductive IsPhone : List Char → Prop
  | intro (country open_ area close exchange line : List Char) (first second : Char)
      (country_or : country = [] ∨ IsCountryCode tables country)
      (open_or : open_ = [] ∨ open_ = ['(']) (close_or : close = [] ∨ close = [')'])
      (first_separates : isSeparator tables first = true)
      (second_separates : isSeparator tables second = true)
      (area_long : area.length = 3) (exchange_long : exchange.length = 3)
      (line_long : line.length = 4)
      (digits : ∀ char ∈ area ++ exchange ++ line, tables.digit char = true) :
      IsPhone (country ++ (open_ ++ (area ++ (close ++ first :: (exchange ++ second :: line)))))

/-- What a query must not say to be cached. -/
inductive Private (text : List Char) : Prop
  | timely (phrase : String) (among : phrase ∈ timePhrases.flatten)
      (stands : tables.Stands phrase text)
  | personal (phrase : String) (among : phrase ∈ personalWords) (stands : tables.Stands phrase text)
  | email (front address back : List Char) (parts : text = front ++ (address ++ back))
      (isEmail : IsEmail tables address)
  | phone (front number back : List Char) (parts : text = front ++ (number ++ back))
      (isPhone : IsPhone tables number) (before : front.getLast?.any tables.digit = false)
      (after : back.head?.any tables.digit = false)

variable {tables} {query : String}

/-- The pattern accepts what is like the phrase. -/
def Reads (tables : Tables) (pattern : Pattern) (phrase : String) : Prop :=
  ∀ before read rest,
    List.Forall₂ (fun expected char => tables.alike expected char = true) phrase.toList read →
      pattern.Accepts before read rest

theorem reads_word (phrase : String) : Reads tables (tables.ignoringCase phrase) phrase :=
  fun _ _ _ same => Pattern.accepts_literal same

theorem reads_oneOf {pattern : Pattern} {patterns : List Pattern} {phrase : String}
    (among : pattern ∈ patterns) (reads : Reads tables pattern phrase) :
    Reads tables (.oneOf patterns) phrase :=
  fun before read rest same => Pattern.accepts_oneOf among (reads before read rest same)

/-- With the apostrophe and without it. -/
theorem reads_contraction (rest phrase : String)
    (phrase_or : phrase.toList = 'i' :: rest.toList ∨ phrase.toList = 'i' :: '\'' :: rest.toList) :
    Reads tables
      (.seq (tables.ignoringCase "i")
        (.seq (.optional (.one (tables.alike '\''))) (tables.ignoringCase rest)))
      phrase := by
  intro before read after same
  have begins {char : Char} {others : List Char} (alike : tables.alike 'i' char = true) :
      (tables.ignoringCase "i").Accepts before [char] others :=
    Pattern.accepts_literal (.cons alike .nil)
  rcases phrase_or with short | long
  · rw [short] at same
    cases same with
    | cons alike tail =>
        exact (begins alike).seq (Pattern.accepts_skipped.seq (Pattern.accepts_literal tail))
  · rw [long] at same
    cases same with
    | cons alike tail =>
        cases tail with
        | cons quoted tail =>
            exact (begins alike).seq ((Pattern.accepts_taken (Pattern.accepts_one quoted)).seq
              (Pattern.accepts_literal tail))

/-- A phrase that stands in a query is found by a pattern that reads it. -/
theorem found_standing {pattern : Pattern} {patterns : List Pattern} {phrase : String}
    (among : tables.standing pattern ∈ patterns) (reads : Reads tables pattern phrase)
    (stands : tables.Stands phrase query.toList) :
    (Pattern.oneOf patterns).found query = true := by
  rcases stands with ⟨front, middle, back, parts, same, begins, ends⟩
  have read := reads front.reverse middle back same
  have inside := read.seq (Pattern.accepts_look ends)
  rw [List.append_nil] at inside
  exact Pattern.found_of_accepts parts
    (Pattern.accepts_oneOf among ((Pattern.accepts_look begins).seq inside))

theorem found_timely {phrase : String} (among : phrase ∈ timePhrases.flatten)
    (stands : tables.Stands phrase query.toList) : (timeSensitive tables).found query = true := by
  rcases List.mem_flatten.mp among with ⟨phrases, listed, one⟩
  exact found_standing (List.mem_map_of_mem listed)
    (reads_oneOf (List.mem_map_of_mem one) (reads_word phrase)) stands

theorem found_personal {phrase : String} (among : phrase ∈ personalWords)
    (stands : tables.Stands phrase query.toList) : (personal tables).found query = true := by
  rcases List.mem_append.mp among with whole | contracted
  · have split : phrase ∈ ["my", "mine", "me", "myself"] ++ ["i"] := whole
    rcases List.mem_append.mp split with mine | i
    · exact found_standing (List.mem_append_left _ (List.mem_append_left _ List.mem_cons_self))
        (reads_oneOf (List.mem_map_of_mem mine) (reads_word phrase)) stands
    · rw [List.mem_singleton.mp i] at stands
      exact found_standing (List.mem_append_right _ List.mem_cons_self) (reads_word "i") stands
  · rcases List.mem_flatMap.mp contracted with ⟨rest, among, forms⟩
    refine found_standing (List.mem_append_left _ (List.mem_append_right _
      (List.mem_map_of_mem among))) (reads_contraction rest phrase ?_) stands
    rcases List.mem_pair.mp forms with rfl | rfl
    · exact .inl (String.toList_append ..)
    · exact .inr (String.toList_append ..)

theorem found_email {front address back : List Char}
    (parts : query.toList = front ++ (address ++ back)) (isEmail : IsEmail tables address) :
    (email tables).found query = true := by
  cases isEmail with
  | intro user domain top user_given domain_given top_long user_chars domain_chars top_chars =>
      have ending {before : List Char} :
          (Pattern.seq (.exactly isLetter 2) (.many isLetter)).Accepts before top back := by
        rw [← List.take_append_drop 2 top]
        exact (Pattern.accepts_exactly (List.length_take_of_le top_long)
          fun char among => top_chars char (List.mem_of_mem_take among)).seq
          (Pattern.accepts_many fun char among => top_chars char (List.mem_of_mem_drop among))
      have host {before : List Char} :
          (Pattern.seq (.atLeastOne (isDomainChar tables)) (.seq (.exact '.')
            (.seq (.exactly isLetter 2) (.many isLetter)))).Accepts before (domain ++ '.' :: top)
            back :=
        (Pattern.accepts_atLeastOne domain_given domain_chars).seq
          ((Pattern.accepts_exact '.').seq ending)
      exact Pattern.found_of_accepts parts
        ((Pattern.accepts_atLeastOne user_given user_chars).seq
          ((Pattern.accepts_exact '@').seq host))

/-- A character that may be there. -/
theorem accepts_mark {char : Char} {before mark rest : List Char}
    (mark_or : mark = [] ∨ mark = [char]) :
    (Pattern.optional (.exact char)).Accepts before mark rest := by
  rcases mark_or with rfl | rfl
  · exact Pattern.accepts_skipped
  · exact Pattern.accepts_taken (Pattern.accepts_exact char)

/-- One digit, two or three, and what comes after them. -/
theorem accepts_code {pattern : Pattern} {before code more rest : List Char} (given : code ≠ [])
    (short : code.length ≤ 3) (digits : ∀ char ∈ code, tables.digit char = true)
    (further : ∀ {before}, pattern.Accepts before more rest) :
    (Pattern.seq (.one tables.digit) (.seq (.optional (.seq (.one tables.digit)
      (.optional (.one tables.digit)))) pattern)).Accepts before (code ++ more) rest := by
  have digit {before rest : List Char} {char : Char} (among : char ∈ code) :
      (Pattern.one tables.digit).Accepts before [char] rest :=
    Pattern.accepts_one (digits char among)
  match code with
  | [] => exact absurd rfl given
  | [_] => exact (digit (by simp)).seq (Pattern.accepts_skipped.seq further)
  | [_, second] =>
      have last {before rest : List Char} : (Pattern.seq (.one tables.digit)
          (.optional (.one tables.digit))).Accepts before [second] rest :=
        (digit (by simp)).seq Pattern.accepts_skipped
      exact (digit (by simp)).seq ((Pattern.accepts_taken last).seq further)
  | [_, second, third] =>
      have last {before rest : List Char} : (Pattern.seq (.one tables.digit)
          (.optional (.one tables.digit))).Accepts before [second, third] rest :=
        (digit (by simp)).seq (Pattern.accepts_taken (digit (by simp)))
      exact (digit (by simp)).seq ((Pattern.accepts_taken last).seq further)
  | _ :: _ :: _ :: _ :: _ => exact absurd short (by simp)

theorem accepts_countryCode {before country rest : List Char}
    (country_or : country = [] ∨ IsCountryCode tables country) :
    (countryCode tables).Accepts before country rest := by
  rcases country_or with rfl | ⟨plus, code, separator, plus_or, given, short, digits, separator_or⟩
  · exact Pattern.accepts_skipped
  · have separated {before rest : List Char} :
        (Pattern.optional (.one (isSeparator tables))).Accepts before separator rest := by
      rcases separator_or with rfl | ⟨char, rfl, separates⟩
      · exact Pattern.accepts_skipped
      · exact Pattern.accepts_taken (Pattern.accepts_one separates)
    exact Pattern.accepts_taken ((accepts_mark plus_or).seq (accepts_code given short digits
      separated))

theorem found_phone {front number back : List Char}
    (parts : query.toList = front ++ (number ++ back)) (isPhone : IsPhone tables number)
    (before : front.getLast?.any tables.digit = false)
    (after : back.head?.any tables.digit = false) : (phone tables).found query = true := by
  cases isPhone with
  | intro country open_ area close exchange line first second country_or open_or close_or
      first_separates second_separates area_long exchange_long line_long digits =>
      rw [List.forall_mem_append, List.forall_mem_append] at digits
      have ends {before : List Char} : (Pattern.seq (.exactly tables.digit 4)
          (.look fun place => !place.after.head?.any tables.digit)).Accepts before line back := by
        have last : (Pattern.look fun place => !place.after.head?.any tables.digit).Accepts
            (line.reverse ++ before) [] back :=
          Pattern.accepts_look (by rw [after, Bool.not_false])
        have whole := (Pattern.accepts_exactly line_long digits.2).seq last
        rwa [List.append_nil] at whole
      have subscriber {before : List Char} : (Pattern.seq (.one (isSeparator tables))
          (.seq (.exactly tables.digit 4)
            (.look fun place => !place.after.head?.any tables.digit))).Accepts before
              (second :: line) back := (Pattern.accepts_one second_separates).seq ends
      have exchanged {before : List Char} : (Pattern.seq (.one (isSeparator tables))
          (.seq (.exactly tables.digit 3) (.seq (.one (isSeparator tables))
            (.seq (.exactly tables.digit 4)
              (.look fun place => !place.after.head?.any tables.digit))))).Accepts before
                (first :: (exchange ++ second :: line)) back :=
        (Pattern.accepts_one first_separates).seq
          ((Pattern.accepts_exactly exchange_long digits.1.2).seq subscriber)
      have begins : (Pattern.look fun place => !place.before.head?.any tables.digit).Accepts
          front.reverse [] ((country ++ (open_ ++ (area ++ (close ++ first ::
            (exchange ++ second :: line))))) ++ back) :=
        Pattern.accepts_look (by rw [List.head?_reverse, before, Bool.not_false])
      exact Pattern.found_of_accepts parts (begins.seq ((accepts_countryCode country_or).seq
        ((accepts_mark open_or).seq ((Pattern.accepts_exactly area_long digits.1.1).seq
          ((accepts_mark close_or).seq exchanged)))))

end Private

/-! ## Decisions -/

/-- What the policy asks of a temperature: whether it exceeds the threshold, and its text. -/
structure Thermometer (Temperature : Type) where
  exceeds : Temperature → Bool
  text : Temperature → String

variable {Temperature : Type} (tables : Tables) (thermometer : Thermometer Temperature)

/-- `is_cacheable`, with the default threshold. -/
def isCacheable (request : Request Temperature) : PolicyDecision :=
  if request.hasTools then { cacheable := false, reason := some "request has tool calls" }
  else if thermometer.exceeds request.temperature then
    { cacheable := false
      reason := some
        s!"temperature {thermometer.text request.temperature} exceeds threshold 0.3" }
  else if (timeSensitive tables).found request.query then
    { cacheable := false, reason := some "time-sensitive query" }
  else if (personal tables).found request.query then
    { cacheable := false, reason := some "personal query" }
  else if (email tables).found request.query then
    { cacheable := false, reason := some "query contains an email address" }
  else if (phone tables).found request.query then
    { cacheable := false, reason := some "query contains a phone number" }
  else { cacheable := true, reason := none }

/-- A request is cacheable if it uses no tools, is not too warm, and no expression is found in its
query. -/
theorem isCacheable_iff (request : Request Temperature) :
    (isCacheable tables thermometer request).cacheable = true ↔
      request.hasTools = false ∧ thermometer.exceeds request.temperature = false ∧
        (timeSensitive tables).found request.query = false ∧
        (personal tables).found request.query = false ∧
        (email tables).found request.query = false ∧
        (phone tables).found request.query = false := by
  unfold isCacheable
  cases request.hasTools <;> cases thermometer.exceeds request.temperature <;>
    cases (timeSensitive tables).found request.query <;>
    cases (personal tables).found request.query <;> cases (email tables).found request.query <;>
    cases (phone tables).found request.query <;> simp

end Policy

end Semantic
