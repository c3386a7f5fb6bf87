import Anviq.Json.Numeral
import Anviq.Json.Order

/-! # The strings of a value

A property of every string and every name of a value, and what it says about the
characters of the text the value is written as.
-/

namespace Json

variable {ν μ : Type}

section Strings

variable (P : String → Prop)

mutual

/-- Every string and every name of a value has a property. -/
def AllStrings : Json ν → Prop
  | .null => True
  | .bool _ => True
  | .num _ => True
  | .str value => P value
  | .arr elements => AllStringElements elements
  | .obj members => AllStringMembers members

def AllStringElements : List (Json ν) → Prop
  | [] => True
  | element :: elements => AllStrings element ∧ AllStringElements elements

def AllStringMembers : Members ν → Prop
  | [] => True
  | (name, value) :: members => P name ∧ AllStrings value ∧ AllStringMembers members

end

variable {P}

/-- The strings of an array are those of its elements. -/
theorem allStrings_arr {elements : List (Json ν)} :
    AllStrings P (.arr elements) ↔ ∀ element ∈ elements, AllStrings P element := by
  change AllStringElements P elements ↔ _
  induction elements with
  | nil => simp [AllStringElements]
  | cons element elements ih => simp [AllStringElements, ih]

/-- The strings of an object are its names and those of its members. -/
theorem allStrings_obj {members : Members ν} :
    AllStrings P (.obj members) ↔ ∀ member ∈ members, P member.1 ∧ AllStrings P member.2 := by
  change AllStringMembers P members ↔ _
  induction members with
  | nil => simp [AllStringMembers]
  | cons member members ih => simp [AllStringMembers, ih, and_assoc]

/-- Sorting keeps the strings. -/
theorem allStrings_sortKeys {json : Json ν} (holds : AllStrings P json) :
    AllStrings P json.sortKeys := by
  induction json using Json.induction with
  | null => trivial
  | bool value => trivial
  | num value => trivial
  | str value => exact holds
  | arr elements ih =>
      rw [allStrings_arr] at holds
      rw [sortKeys, sortElements_eq, allStrings_arr]
      exact List.forall_mem_map.mpr fun element present => ih element present (holds element present)
  | obj members ih =>
      rw [allStrings_obj] at holds
      rw [sortKeys, sortMembers_eq, allStrings_obj]
      intro member present
      obtain ⟨source, among, rfl⟩ := List.mem_map.mp ((Members.sort_perm _).mem_iff.mp present)
      exact ⟨(holds source among).1, ih source among (holds source among).2⟩

end Strings

/-! ## The characters of a text -/

section Characters

variable {escape : Char → List Char} {number : ν → List Char} {Q : Char → Prop}

/-- The punctuation of JSON text. -/
def punctuation : List Char := "\"[]\x7b\x7d,:nulltruefalse".toList

/-- What holds of quotation marks and of every escaped character holds of a quoted text. -/
theorem quote_forall (punctuated : ∀ char ∈ punctuation, Q char) {text : String}
    (escaped : ∀ char ∈ text.toList, ∀ written ∈ escape char, Q written) :
    ∀ char ∈ quote escape text, Q char := by
  have mark : Q '"' := punctuated _ (by decide)
  intro char present
  unfold quote at present
  simp only [List.cons_append, List.mem_cons, List.mem_append, List.mem_flatMap,
    List.not_mem_nil, or_false] at present
  obtain rfl | ⟨source, among, written⟩ | rfl := present
  · exact mark
  · exact escaped source among char written
  · exact mark

theorem printElements_forall (comma : Q ',') {elements : List (Json ν)}
    (each : ∀ element ∈ elements, ∀ char ∈ print escape number element, Q char) :
    ∀ char ∈ printElements escape number elements, Q char := by
  induction elements with
  | nil => exact fun _ absent => absurd absent List.not_mem_nil
  | cons element elements ih =>
      rw [List.forall_mem_cons] at each
      cases elements with
      | nil => exact each.1
      | cons second elements =>
          rw [printElements_cons_cons]
          refine List.forall_mem_append.mpr ⟨each.1, ?_⟩
          exact List.forall_mem_cons.mpr ⟨comma, ih each.2⟩

theorem printMembers_forall (comma : Q ',') (colon : Q ':') {members : Members ν}
    (names : ∀ member ∈ members, ∀ char ∈ quote escape member.1, Q char)
    (each : ∀ member ∈ members, ∀ char ∈ print escape number member.2, Q char) :
    ∀ char ∈ printMembers escape number members, Q char := by
  induction members with
  | nil => exact fun _ absent => absurd absent List.not_mem_nil
  | cons member members ih =>
      rw [List.forall_mem_cons] at names each
      have first : ∀ char ∈ quote escape member.1 ++ ':' :: print escape number member.2, Q char :=
        List.forall_mem_append.mpr ⟨names.1, List.forall_mem_cons.mpr ⟨colon, each.1⟩⟩
      cases members with
      | nil => exact first
      | cons second members =>
          have rest := ih names.2 each.2
          rw [printMembers]
          · exact List.forall_mem_append.mpr ⟨first, List.forall_mem_cons.mpr ⟨comma, rest⟩⟩
          · exact List.cons_ne_nil _ _

/-- What holds of the punctuation, of the numbers and of the escapes of the strings
holds of every character of the text. -/
theorem print_forall {P : String → Prop} (punctuated : ∀ char ∈ punctuation, Q char)
    (numbers : ∀ value, ∀ char ∈ number value, Q char)
    (escaped : ∀ text, P text → ∀ char ∈ text.toList, ∀ written ∈ escape char, Q written)
    {json : Json ν} (strings : AllStrings P json) :
    ∀ char ∈ print escape number json, Q char := by
  have punctuation (chars : List Char) (among : chars ⊆ punctuation) : ∀ char ∈ chars, Q char :=
    fun char present => punctuated char (among present)
  have comma : Q ',' := punctuated _ (by decide)
  have colon : Q ':' := punctuated _ (by decide)
  induction json using Json.induction with
  | null => exact punctuation ['n', 'u', 'l', 'l'] (by decide)
  | bool value =>
      cases value with
      | true => exact punctuation ['t', 'r', 'u', 'e'] (by decide)
      | false => exact punctuation ['f', 'a', 'l', 's', 'e'] (by decide)
  | num value => exact numbers value
  | str value => exact quote_forall punctuated (escaped value strings)
  | arr elements ih =>
      rw [allStrings_arr] at strings
      refine List.forall_mem_append.mpr ⟨List.forall_mem_cons.mpr ⟨punctuated _ (by decide), ?_⟩,
        punctuation _ (by decide)⟩
      exact printElements_forall comma fun element present =>
        ih element present (strings element present)
  | obj members ih =>
      rw [allStrings_obj] at strings
      refine List.forall_mem_append.mpr ⟨List.forall_mem_cons.mpr ⟨punctuated _ (by decide), ?_⟩,
        punctuation _ (by decide)⟩
      exact printMembers_forall comma colon
        (fun member present => quote_forall punctuated (escaped _ (strings member present).1))
        fun member present => ih member present (strings member present).2

end Characters

end Json

/-! ## The characters of a number -/

/-- A character of a number's text. -/
def isNumberChar (char : Char) : Bool :=
  char.isDigit || char = '-' || char = '+' || char = '.' || char = 'e'

/-- A digit is a character of a number. -/
theorem digitsText_chars (digits : List (Fin 10)) :
    ∀ char ∈ digitsText digits, isNumberChar char = true := by
  refine List.forall_mem_map.mpr fun digit _ => ?_
  simp only [isNumberChar, digitChar_isDigit, Bool.true_or]

/-- A numeral is written in the characters of numbers. -/
theorem Numeral.text_chars (numeral : Numeral) :
    ∀ char ∈ numeral.text, isNumberChar char = true := by
  have fraction (digits : List (Fin 10)) :
      ∀ char ∈ fractionText digits, isNumberChar char = true := by
    unfold fractionText
    split
    · exact fun _ absent => absurd absent List.not_mem_nil
    · exact List.forall_mem_cons.mpr ⟨by decide, digitsText_chars digits⟩
  have exponent (power : Option (Bool × List (Fin 10))) :
      ∀ char ∈ exponentText power, isNumberChar char = true := by
    cases power with
    | none => exact fun _ absent => absurd absent List.not_mem_nil
    | some power =>
        obtain ⟨negative, digits⟩ := power
        refine List.forall_mem_cons.mpr ⟨by decide, List.forall_mem_cons.mpr ⟨?_, ?_⟩⟩
        · cases negative <;> decide
        · exact digitsText_chars digits
  exact List.forall_mem_append.mpr
    ⟨List.forall_mem_append.mpr ⟨digitsText_chars _, fraction _⟩, exponent _⟩

/-- A number is laid out with digits, signs, a point and an exponent mark. -/
theorem Number.layout_chars (number : Number) :
    ∀ char ∈ number.layout, isNumberChar char = true := by
  cases number with
  | zero negative => cases negative <;> exact List.all_eq_true.mp rfl
  | finite decimal =>
      rw [layout, Decimal.layout, decimal.magnitudeText_eq]
      split
      · exact List.forall_mem_cons.mpr ⟨by decide, decimal.numeral.text_chars⟩
      · exact decimal.numeral.text_chars
