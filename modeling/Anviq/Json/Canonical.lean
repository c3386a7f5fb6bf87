import Anviq.Json.Numeral
import Anviq.Json.Order
import Anviq.Json.Utf16

/-! # Canonical JSON

The canonical form of RFC 8785: no white space, members sorted by the UTF-16 code
units of their names, strings escaped and numbers written as ECMAScript does.
-/

namespace Json

/-- How ECMAScript's `JSON.stringify` writes a character of a string. -/
def ecmaEscape (char : Char) : List Char :=
  if char = '"' then ['\\', '"']
  else if char = '\\' then ['\\', '\\']
  else if char = '\x08' then ['\\', 'b']
  else if char = '\x0c' then ['\\', 'f']
  else if char = '\n' then ['\\', 'n']
  else if char = '\r' then ['\\', 'r']
  else if char = '\t' then ['\\', 't']
  else if char.toNat < 0x20 then unicodeEscape char.toNat
  else [char]

/-- How ECMAScript's `Number::toString` writes a number. -/
def ecmaNumber : Number → List Char
  | .zero _ => ['0']
  | .finite decimal => decimal.layout

/-- Named items in the UTF-16 order of their names. -/
def sortUtf16 {α : Type} (items : List (String × α)) : List (String × α) :=
  items.insertionSort fun left right => Utf16.le left.1 right.1

/-- The text of a member. -/
def memberText (item : String × List Char) : List Char :=
  quote ecmaEscape item.1 ++ ':' :: item.2

/-- Texts separated by commas. -/
def commaSeparated (texts : List (List Char)) : List Char := List.intercalate [','] texts

mutual

/-- The canonical text of a value. -/
def canonical : Json Number → List Char
  | .null => ['n', 'u', 'l', 'l']
  | .bool true => ['t', 'r', 'u', 'e']
  | .bool false => ['f', 'a', 'l', 's', 'e']
  | .num value => ecmaNumber value
  | .str value => quote ecmaEscape value
  | .arr elements => '[' :: commaSeparated (canonicalElements elements) ++ [']']
  | .obj members =>
      '\x7b' :: commaSeparated ((sortUtf16 (canonicalMembers members)).map memberText) ++ ['\x7d']

def canonicalElements : List (Json Number) → List (List Char)
  | [] => []
  | element :: elements => canonical element :: canonicalElements elements

def canonicalMembers : Members Number → List (String × List Char)
  | [] => []
  | (name, value) :: members => (name, canonical value) :: canonicalMembers members

end

/-! ## The order of names -/

/-- The code units of a text denote its characters. -/
theorem joinSurrogates_utf16 (chars : List Char) :
    joinSurrogates (chars.flatMap Char.utf16Units) = chars := by
  induction chars with
  | nil => rfl
  | cons char chars ih =>
      have valid : char.toNat < 0xD800 ∨ 0xDFFF < char.toNat ∧ char.toNat < 0x110000 := char.valid
      rw [List.flatMap_cons, Char.utf16Units]
      split
      · have plain := (Bool.or_eq_false_iff.mp (not_surrogate char)).1
        rw [List.cons_append, List.nil_append]
        cases rest : chars.flatMap Char.utf16Units with
        | nil =>
            rw [rest] at ih
            rw [joinSurrogates, unitChar_toNat, ← ih]
            rfl
        | cons unit units =>
            rw [rest] at ih
            rw [joinSurrogates, plain, Bool.false_and, if_neg Bool.false_ne_true, unitChar_toNat,
              ih]
      · next astral =>
          have high : isHighSurrogate (0xD800 + (char.toNat - 0x10000) / 0x400) = true := by
            simp only [isHighSurrogate, Bool.and_eq_true, decide_eq_true_eq]
            omega
          have low : isLowSurrogate (0xDC00 + (char.toNat - 0x10000) % 0x400) = true := by
            simp only [isLowSurrogate, Bool.and_eq_true, decide_eq_true_eq]
            omega
          have joined : 0x10000 + (0xD800 + (char.toNat - 0x10000) / 0x400 - 0xD800) * 0x400 +
              (0xDC00 + (char.toNat - 0x10000) % 0x400 - 0xDC00) = char.toNat := by omega
          rw [List.cons_append, List.cons_append, List.nil_append, joinSurrogates, high, low,
            Bool.and_self, if_pos rfl, joined, Char.ofNat_toNat, ih]

/-- Different strings have different code units. -/
theorem utf16Units_injective : Function.Injective String.utf16Units := by
  intro left right same
  have chars := congrArg joinSurrogates same
  unfold String.utf16Units at chars
  rw [joinSurrogates_utf16, joinSurrogates_utf16] at chars
  exact String.toList_injective chars

/-- The comparison is that of the lists of code units. -/
theorem utf16_le_iff {left right : String} :
    Utf16.le left right = true ↔ left.utf16Units ≤ right.utf16Units := by
  simp [Utf16.le, not_lt]

section Sorting

variable {α : Type}

instance : Std.Total fun left right : String × α => Utf16.le left.1 right.1 = true where
  total left right := by
    simp only [utf16_le_iff]
    exact le_total _ _

instance : IsTrans (String × α) fun left right => Utf16.le left.1 right.1 = true where
  trans left middle right := by
    simp only [utf16_le_iff]
    exact le_trans

/-- The sorted items do not depend on the order they were given in. -/
theorem sortUtf16_perm {items reordered : List (String × α)} (same : items.Perm reordered)
    (distinct : (items.map Prod.fst).Nodup) : sortUtf16 items = sortUtf16 reordered := by
  have perm : (sortUtf16 items).Perm (sortUtf16 reordered) :=
    ((List.perm_insertionSort _ _).trans same).trans (List.perm_insertionSort _ _).symm
  refine perm.eq_of_pairwise ?_ (List.pairwise_insertionSort _ _)
    (List.pairwise_insertionSort _ _)
  intro left right leftPresent rightPresent before after
  rw [utf16_le_iff] at before after
  refine List.inj_on_of_nodup_map distinct ((List.perm_insertionSort _ _).mem_iff.mp leftPresent)
    (same.mem_iff.mpr ((List.perm_insertionSort _ _).mem_iff.mp rightPresent)) ?_
  exact utf16Units_injective (le_antisymm before after)

end Sorting

theorem canonicalElements_eq (elements : List (Json Number)) :
    canonicalElements elements = elements.map canonical := by
  induction elements with
  | nil => rfl
  | cons element elements ih => simp only [canonicalElements, List.map_cons, ih]

theorem canonicalMembers_eq (members : Members Number) :
    canonicalMembers members = members.map fun member => (member.1, canonical member.2) := by
  induction members with
  | nil => rfl
  | cons member members ih => simp only [canonicalMembers, List.map_cons, ih]

/-- The canonical text of an object does not depend on the order of its members. -/
theorem canonical_obj_perm {members reordered : Members Number} (same : members.Perm reordered)
    (distinct : (members.map Prod.fst).Nodup) :
    canonical (.obj members) = canonical (.obj reordered) := by
  rw [canonical, canonical, canonicalMembers_eq, canonicalMembers_eq,
    sortUtf16_perm (same.map _) (by simpa [List.map_map, Function.comp_def] using distinct)]

/-- **The canonical text does not depend on the order of members.** -/
theorem canonical_sortKeys {json : Json Number} (distinct : Distinct json) :
    canonical json.sortKeys = canonical json := by
  induction json using Json.induction with
  | null => rfl
  | bool value => rfl
  | num value => rfl
  | str value => rfl
  | arr elements ih =>
      rw [Distinct, namesPairwise_arr] at distinct
      rw [sortKeys, canonical, canonical, canonicalElements_eq, canonicalElements_eq,
        sortElements_eq, List.map_map]
      congr 3
      exact List.map_congr_left fun element present => ih element present (distinct element present)
  | obj members ih =>
      rw [Distinct, namesPairwise_obj] at distinct
      have names : (sortMembers members).map Prod.fst = members.map Prod.fst := by
        rw [sortMembers_eq, List.map_map]
        rfl
      have values : canonicalMembers (sortMembers members) = canonicalMembers members := by
        rw [canonicalMembers_eq, canonicalMembers_eq, sortMembers_eq, List.map_map]
        exact List.map_congr_left fun member present =>
          Prod.ext rfl (ih member present (distinct.2 member present))
      rw [sortKeys, ← canonical_obj_perm (Members.sort_perm (sortMembers members)).symm
        (names ▸ distinct.1), canonical, canonical, values]

end Json
