import Anviq.Harness.CanonicalForm

/-! # The canonical form of Python values

`canonical_json` on whatever Python may hand it: tuples beside lists, strings with
lone surrogates, dictionaries with keys of any type, and objects it refuses. The
values it accepts stand for JSON values, and have one text exactly when these are
the same.
-/

namespace Harness

/-! ## Strings -/

/-- A code point of a `str`; the surrogates are among them. -/
abbrev CodePoint := Fin 0x110000

/-- A code point no character stands for. -/
def CodePoint.Surrogate (code : CodePoint) : Prop := 0xD800 ≤ code.val ∧ code.val ≤ 0xDFFF

instance (code : CodePoint) : Decidable code.Surrogate := inferInstanceAs (Decidable (_ ∧ _))

/-- The code point of a character. -/
def codePoint (char : Char) : CodePoint := Fin.ofNat 0x110000 char.toNat

/-- The code points of a text. -/
def codePoints (text : String) : List CodePoint := text.toList.map codePoint

/-- A step of `_encode_string`. -/
def encodeCode (code : CodePoint) : Except PyError (List Char) :=
  match escapes.find? fun entry => entry.1.toNat = code.val with
  | some entry => .ok entry.2
  | none =>
      if code.val < 0x20 then .ok (Json.unicodeEscape code.val)
      else if code.Surrogate then
        .error (.valueError "lone surrogate is not valid in canonical JSON")
      else .ok [Char.ofNat code.val]

/-- `_encode_string` on any `str`. -/
def encodeText (text : List CodePoint) : Except PyError (List Char) := do
  let pieces ← text.mapM encodeCode
  .ok ('"' :: pieces.flatten ++ ['"'])

/-- The bytes of a code point in `utf-16-be`. -/
def codeBytes (code : CodePoint) : Except PyError (List Nat) :=
  if code.Surrogate then
    .error (.valueError "'utf-16-be' codec can't encode character: surrogates not allowed")
  else .ok ((Char.ofNat code.val).utf16Units.flatMap fun unit => [unit / 256, unit % 256])

/-- `str.encode("utf-16-be")`. -/
def textBytes (text : List CodePoint) : Except PyError (List Nat) := do
  let pieces ← text.mapM codeBytes
  .ok pieces.flatten

/-! ## Python values -/

/-- A key of a `dict`; `other` is a key of another type. -/
inductive PyKey where
  | str (text : List CodePoint)
  | other (typeName : String)

/-- The text of a key that is a string. -/
def PyKey.text? : PyKey → Option (List CodePoint)
  | .str text => some text
  | .other _ => none

/-- `canonical_json` on the keys of a `dict`. -/
def PyKey.text : PyKey → Except PyError (List CodePoint)
  | .str text => .ok text
  | .other typeName =>
      .error (.typeError ("object keys must be strings, got " ++ typeName))

/-- A value `canonical_json` may be called with; `other` is an instance of a type it
does not know. -/
inductive PyValue where
  | none
  | bool (value : Bool)
  | num (value : PyNumber)
  | str (text : List CodePoint)
  | list (elements : List PyValue)
  | tuple (elements : List PyValue)
  | dict (items : List (PyKey × PyValue))
  | other (typeName : String)

/-- An item of a `dict` on its way into the text: the bytes it is sorted by, its key
and what its value encodes to. -/
structure SortItem where
  bytes : List Nat
  key : List CodePoint
  value : Except PyError (List Char)

/-- The item with its sort key. -/
def SortItem.of (key : List CodePoint) (value : Except PyError (List Char)) :
    Except PyError SortItem := do
  let bytes ← textBytes key
  .ok { bytes, key, value }

/-- An item in the text. -/
def SortItem.text (item : SortItem) : Except PyError (List Char) := do
  let key ← encodeText item.key
  let value ← item.value
  .ok (key ++ ':' :: value)

/-- `canonical_json` on a `dict` whose values are encoded. -/
def encodeDict (items : List (PyKey × Except PyError (List Char))) :
    Except PyError (List Char) := do
  let keys ← items.mapM fun item => item.1.text
  let keyed ← (keys.zip (items.map Prod.snd)).mapM fun item => SortItem.of item.1 item.2
  let sorted := keyed.insertionSort fun left right => !decide (right.bytes < left.bytes)
  let texts ← sorted.mapM SortItem.text
  .ok ('\x7b' :: Json.commaSeparated texts ++ ['\x7d'])

mutual

/-- `canonical_json`. -/
def canonicalValue : PyValue → Except PyError (List Char)
  | .none => .ok ['n', 'u', 'l', 'l']
  | .bool true => .ok ['t', 'r', 'u', 'e']
  | .bool false => .ok ['f', 'a', 'l', 's', 'e']
  | .num value => encodeNumber value
  | .str text => encodeText text
  | .list elements => do
      let texts ← canonicalValues elements
      .ok ('[' :: Json.commaSeparated texts ++ [']'])
  | .tuple elements => do
      let texts ← canonicalValues elements
      .ok ('[' :: Json.commaSeparated texts ++ [']'])
  | .dict items => encodeDict (encodedItems items)
  | .other typeName => .error (.typeError ("not JSON-serializable: " ++ typeName))

def canonicalValues : List PyValue → Except PyError (List (List Char))
  | [] => .ok []
  | element :: elements => do
      let text ← canonicalValue element
      let texts ← canonicalValues elements
      .ok (text :: texts)

def encodedItems : List (PyKey × PyValue) → List (PyKey × Except PyError (List Char))
  | [] => []
  | (key, value) :: items => (key, canonicalValue value) :: encodedItems items

end

namespace PyValue

/-- Induction over values. -/
theorem induction {P : PyValue → Prop} (none : P .none) (bool : ∀ value, P (.bool value))
    (num : ∀ value, P (.num value)) (str : ∀ text, P (.str text))
    (list : ∀ elements, (∀ element ∈ elements, P element) → P (.list elements))
    (tuple : ∀ elements, (∀ element ∈ elements, P element) → P (.tuple elements))
    (dict : ∀ items : List (PyKey × PyValue), (∀ item ∈ items, P item.2) → P (.dict items))
    (other : ∀ typeName, P (.other typeName)) (value : PyValue) : P value :=
  value.rec (motive_1 := P) (motive_2 := fun elements => ∀ element ∈ elements, P element)
    (motive_3 := fun items => ∀ item ∈ items, P item.2) (motive_4 := fun item => P item.2)
    none bool num str (fun elements ih => list elements ih) (fun elements ih => tuple elements ih)
    (fun items ih => dict items ih) other
    (fun _ absurdity => absurd absurdity List.not_mem_nil)
    (fun _ _ headHolds tailHolds => List.forall_mem_cons.mpr ⟨headHolds, tailHolds⟩)
    (fun _ absurdity => absurd absurdity List.not_mem_nil)
    (fun _ _ headHolds tailHolds => List.forall_mem_cons.mpr ⟨headHolds, tailHolds⟩)
    (fun _ _ holds => holds)

mutual

/-- No `dict` in the value has a key twice. -/
def Distinct : PyValue → Prop
  | .list elements => AllDistinct elements
  | .tuple elements => AllDistinct elements
  | .dict items => (items.filterMap fun item => item.1.text?).Nodup ∧ ItemsDistinct items
  | _ => True

def AllDistinct : List PyValue → Prop
  | [] => True
  | element :: elements => Distinct element ∧ AllDistinct elements

def ItemsDistinct : List (PyKey × PyValue) → Prop
  | [] => True
  | (_, value) :: items => Distinct value ∧ ItemsDistinct items

end

/-- The text a `str` is, if it has no lone surrogate. -/
def text? (text : List CodePoint) : Option String :=
  if ∃ code ∈ text, code.Surrogate then Option.none
  else some (String.ofList (text.map fun code => Char.ofNat code.val))

mutual

/-- The JSON value a Python value stands for: tuples are arrays. -/
def json? : PyValue → Option PyJson
  | .none => some .null
  | .bool value => some (.bool value)
  | .num value => some (.num value)
  | .str text => (text? text).map .str
  | .list elements => (jsons? elements).map .arr
  | .tuple elements => (jsons? elements).map .arr
  | .dict items => (members? items).map .obj
  | .other _ => Option.none

def jsons? : List PyValue → Option (List PyJson)
  | [] => some []
  | element :: elements => do
      let json ← json? element
      let rest ← jsons? elements
      some (json :: rest)

def members? : List (PyKey × PyValue) → Option PyDict
  | [] => some []
  | (key, value) :: items => do
      let name ← key.text?.bind text?
      let json ← json? value
      let rest ← members? items
      some ((name, json) :: rest)

end

/-- The same JSON value: objects as finite maps, tuples as arrays, numbers by their
value. -/
def Same (left right : PyValue) : Prop :=
  ∃ leftJson rightJson, left.json? = some leftJson ∧ right.json? = some rightJson ∧
    SameJson leftJson rightJson

end PyValue

/-! ## Lists of results -/

theorem mapM_eq_ok {α β : Type} {f : α → Except PyError β} {items : List α} {results : List β} :
    items.mapM f = .ok results ↔
      List.Forall₂ (fun item result => f item = .ok result) items results := by
  induction items generalizing results with
  | nil =>
      cases results with
      | nil => simp [pure, Except.pure]
      | cons result results => simp [pure, Except.pure]
  | cons item items ih =>
      rw [List.mapM_cons, bind_eq_ok]
      simp only [bind_eq_ok, ih, pure, Except.pure, Except.ok.injEq]
      constructor
      · intro steps
        obtain ⟨head, headOk, tail, tailOk, rfl⟩ := steps
        exact .cons headOk tailOk
      · intro each
        cases each with
        | cons headOk tailOk => exact ⟨_, headOk, _, tailOk, rfl⟩

/-- A function that succeeds exactly on the images of `embed`, with the values of
`result`, does so on lists. -/
theorem mapM_embed {α β γ : Type} {f : α → Except PyError β} {embed : γ → α} {result : γ → β}
    (each : ∀ item value, f item = .ok value ↔ ∃ source, item = embed source ∧ value = result source)
    {items : List α} {values : List β} :
    items.mapM f = .ok values ↔
      ∃ sources : List γ, items = sources.map embed ∧ values = sources.map result := by
  rw [mapM_eq_ok]
  constructor
  · intro related
    induction related with
    | nil => exact ⟨[], rfl, rfl⟩
    | cons head _ ih =>
        obtain ⟨source, rfl, rfl⟩ := (each _ _).mp head
        obtain ⟨sources, rfl, rfl⟩ := ih
        exact ⟨source :: sources, rfl, rfl⟩
  · intro images
    obtain ⟨sources, rfl, rfl⟩ := images
    rw [List.forall₂_map_left_iff, List.forall₂_map_right_iff]
    apply List.forall₂_same.mpr
    intro source _
    exact (each _ _).mpr ⟨source, rfl, rfl⟩

/-- Lists related through lists in the middle are related element by element. -/
theorem forall₂_comp {α β γ : Type} {first : α → β → Prop} {second : β → γ → Prop}
    {left : List α} {right : List γ} :
    (∃ middle, List.Forall₂ first left middle ∧ List.Forall₂ second middle right) ↔
      List.Forall₂ (fun source target => ∃ between, first source between ∧ second between target)
        left right := by
  constructor
  · intro through
    obtain ⟨middle, toMiddle, fromMiddle⟩ := through
    induction toMiddle generalizing right with
    | nil =>
        cases fromMiddle
        exact .nil
    | cons head _ ih =>
        cases fromMiddle with
        | cons next rest => exact .cons ⟨_, head, next⟩ (ih rest)
  · intro related
    induction related with
    | nil => exact ⟨[], .nil, .nil⟩
    | cons head _ ih =>
        obtain ⟨between, toBetween, fromBetween⟩ := head
        obtain ⟨middle, toMiddle, fromMiddle⟩ := ih
        exact ⟨between :: middle, .cons toBetween toMiddle, .cons fromBetween fromMiddle⟩

theorem forall₂_exists_right {α β : Type} {related : α → β → Prop} {left : List α} {right : List β}
    (all : List.Forall₂ related left right) {item : α} (present : item ∈ left) :
    ∃ other ∈ right, related item other := by
  induction all with
  | nil => exact absurd present List.not_mem_nil
  | cons head _ ih =>
      obtain rfl | later := List.mem_cons.mp present
      · exact ⟨_, List.mem_cons_self, head⟩
      · obtain ⟨other, otherPresent, holds⟩ := ih later
        exact ⟨other, List.mem_cons_of_mem _ otherPresent, holds⟩

/-- An element on the right of related lists is related to one on the left. -/
theorem forall₂_exists_left {α β : Type} {related : α → β → Prop} {left : List α} {right : List β}
    (all : List.Forall₂ related left right) {result : β} (present : result ∈ right) :
    ∃ item ∈ left, related item result := by
  induction all with
  | nil => exact absurd present List.not_mem_nil
  | cons head _ ih =>
      rcases List.mem_cons.mp present with rfl | later
      · exact ⟨_, List.mem_cons_self, head⟩
      · obtain ⟨item, itemPresent, holds⟩ := ih later
        exact ⟨item, List.mem_cons_of_mem _ itemPresent, holds⟩

/-- Where every element is related to something, the list is related to some list. -/
theorem exists_forall₂ {α β : Type} {related : α → β → Prop} {left : List α}
    (each : ∀ item ∈ left, ∃ other, related item other) :
    ∃ right, List.Forall₂ related left right := by
  induction left with
  | nil => exact ⟨[], .nil⟩
  | cons item left ih =>
      rw [List.forall_mem_cons] at each
      obtain ⟨other, here⟩ := each.1
      obtain ⟨right, there⟩ := ih each.2
      exact ⟨other :: right, .cons here there⟩

/-- Relations that agree on the elements of the first list. -/
theorem forall₂_congr_left {α β : Type} {related other : α → β → Prop} {left : List α}
    (same : ∀ item ∈ left, ∀ result, related item result ↔ other item result) {right : List β} :
    List.Forall₂ related left right ↔ List.Forall₂ other left right := by
  induction left generalizing right with
  | nil => rw [List.forall₂_nil_left_iff, List.forall₂_nil_left_iff]
  | cons item left ih =>
      rw [List.forall_mem_cons] at same
      cases right with
      | nil => exact ⟨nofun, nofun⟩
      | cons result right => rw [List.forall₂_cons, List.forall₂_cons, same.1, ih same.2]

/-! ## Strings without lone surrogates -/

@[simp] theorem codePoint_val (char : Char) : (codePoint char).val = char.toNat := by
  apply Nat.mod_eq_of_lt
  have valid : char.toNat < 0xD800 ∨ 0xDFFF < char.toNat ∧ char.toNat < 0x110000 := char.valid
  omega

theorem codePoint_not_surrogate (char : Char) : ¬ (codePoint char).Surrogate := by
  have valid : char.toNat < 0xD800 ∨ 0xDFFF < char.toNat ∧ char.toNat < 0x110000 := char.valid
  unfold CodePoint.Surrogate
  rw [codePoint_val]
  omega

@[simp] theorem ofNat_codePoint (char : Char) : Char.ofNat (codePoint char).val = char := by
  rw [codePoint_val, Char.ofNat_toNat]

theorem codePoint_ofNat {code : CodePoint} (scalar : ¬ code.Surrogate) :
    codePoint (Char.ofNat code.val) = code := by
  have valid : code.val.isValidChar := by
    unfold CodePoint.Surrogate at scalar
    have bound := code.isLt
    change code.val < 0xD800 ∨ 0xDFFF < code.val ∧ code.val < 0x110000
    omega
  apply Fin.ext
  rw [codePoint_val, Char.ofNat, dif_pos valid]
  rfl

theorem codePoint_injective : Function.Injective codePoint :=
  fun left right same => by
    rw [← ofNat_codePoint left, same, ofNat_codePoint]

/-- A function of code points that refuses exactly the surrogates. -/
theorem scalar_eq_ok {β : Type} {f : CodePoint → Except PyError β} {result : Char → β}
    (refuses : ∀ code : CodePoint, code.Surrogate → ∀ value, f code ≠ .ok value)
    (accepts : ∀ char, f (codePoint char) = .ok (result char)) (code : CodePoint) (value : β) :
    f code = .ok value ↔ ∃ char, code = codePoint char ∧ value = result char := by
  constructor
  · intro ok
    by_cases surrogate : code.Surrogate
    · exact absurd ok (refuses code surrogate value)
    · have same := codePoint_ofNat surrogate
      rw [← same, accepts] at ok
      exact ⟨_, same.symm, (Except.ok.inj ok).symm⟩
  · intro image
    obtain ⟨char, rfl, rfl⟩ := image
    exact accepts char

theorem lookup_eq_find? {α β : Type} [BEq α] (entries : List (α × β)) (key : α) :
    entries.lookup key = (entries.find? fun entry => key == entry.1).map Prod.snd := by
  induction entries with
  | nil => rfl
  | cons entry entries ih =>
      rw [List.lookup_cons, List.find?_cons, ih]
      cases key == entry.1 <;> rfl

theorem encodeCode_codePoint (char : Char) : encodeCode (codePoint char) = .ok (encodeChar char) := by
  have same (entry : Char × List Char) : decide (entry.1.toNat = char.toNat) = (char == entry.1) := by
    rw [Bool.eq_iff_iff, decide_eq_true_iff, beq_iff_eq]
    exact ⟨fun equal => (Char.toNat_inj.mp equal).symm, fun equal => equal ▸ rfl⟩
  unfold encodeCode encodeChar
  simp only [codePoint_val, same, codePoint_not_surrogate, ↓reduceIte, Char.ofNat_toNat,
    lookup_eq_find?]
  cases escapes.find? fun entry => char == entry.1 with
  | some entry => rfl
  | none =>
      change (if char.toNat < 0x20 then _ else _) =
        Except.ok (if char.toNat < 0x20 then _ else [char])
      split <;> rfl

theorem encodeCode_surrogate {code : CodePoint} (surrogate : code.Surrogate)
    (text : List Char) : encodeCode code ≠ .ok text := by
  have plain : (escapes.find? fun entry => decide (entry.1.toNat = code.val)) = none := by
    rw [List.find?_eq_none]
    intro entry present
    unfold CodePoint.Surrogate at surrogate
    have low : entry.1.toNat < 0xD800 :=
      of_decide_eq_true (List.all_eq_true.mp
        (show (escapes.all fun entry => decide (entry.1.toNat < 0xD800)) = true by decide)
        entry present)
    simp only [decide_eq_true_eq]
    omega
  have high : ¬ code.val < 0x20 := by
    unfold CodePoint.Surrogate at surrogate
    omega
  simp [encodeCode, plain, high, surrogate]

/-- `_encode_string` accepts the strings without lone surrogates. -/
theorem encodeText_eq_ok {codes : List CodePoint} {text : List Char} :
    encodeText codes = .ok text ↔
      ∃ string, codes = codePoints string ∧ text = encodeString string := by
  unfold encodeText
  simp only [bind_eq_ok, mapM_embed (scalar_eq_ok (fun _ => encodeCode_surrogate)
    encodeCode_codePoint), Except.ok.injEq]
  constructor
  · intro steps
    obtain ⟨_, ⟨chars, rfl, rfl⟩, rfl⟩ := steps
    refine ⟨String.ofList chars, ?_, ?_⟩
    · rw [codePoints, String.toList_ofList]
    · rw [encodeString, Json.quote, String.toList_ofList, List.flatMap_def]
  · intro image
    obtain ⟨string, rfl, rfl⟩ := image
    exact ⟨_, ⟨string.toList, rfl, rfl⟩, rfl⟩

theorem codeBytes_codePoint (char : Char) : codeBytes (codePoint char) =
    .ok (char.utf16Units.flatMap fun unit => [unit / 256, unit % 256]) := by
  simp only [codeBytes, codePoint_not_surrogate, ↓reduceIte, ofNat_codePoint]

theorem codeBytes_surrogate {code : CodePoint} (surrogate : code.Surrogate)
    (bytes : List Nat) : codeBytes code ≠ .ok bytes := by
  simp [codeBytes, surrogate]

/-- `utf-16-be` encodes the strings without lone surrogates. -/
theorem textBytes_eq_ok {codes : List CodePoint} {bytes : List Nat} :
    textBytes codes = .ok bytes ↔
      ∃ string, codes = codePoints string ∧ bytes = utf16be string := by
  unfold textBytes
  simp only [bind_eq_ok, mapM_embed (scalar_eq_ok (fun _ => codeBytes_surrogate)
    codeBytes_codePoint), Except.ok.injEq]
  constructor
  · intro steps
    obtain ⟨_, ⟨chars, rfl, rfl⟩, rfl⟩ := steps
    refine ⟨String.ofList chars, ?_, ?_⟩
    · rw [codePoints, String.toList_ofList]
    · rw [utf16be, String.utf16Units, String.toList_ofList, List.flatMap_assoc, List.flatMap_def]
  · intro image
    obtain ⟨string, rfl, rfl⟩ := image
    refine ⟨_, ⟨string.toList, rfl, rfl⟩, ?_⟩
    rw [utf16be, String.utf16Units, List.flatMap_assoc, List.flatMap_def]

theorem codePoints_injective : Function.Injective codePoints :=
  fun _ _ same => String.toList_inj.mp (List.map_injective_iff.mpr codePoint_injective same)

/-- A `str` is a text when it has no lone surrogate. -/
theorem text?_eq_some {codes : List CodePoint} {string : String} :
    PyValue.text? codes = some string ↔ codes = codePoints string := by
  unfold PyValue.text?
  constructor
  · intro read
    split at read
    · exact absurd read (by simp)
    · next scalar =>
        rw [← Option.some.inj read, codePoints, String.toList_ofList, List.map_map]
        symm
        calc codes.map (codePoint ∘ fun code => Char.ofNat code.val)
          _ = codes.map id := List.map_congr_left fun code present =>
              codePoint_ofNat fun surrogate => scalar ⟨code, present, surrogate⟩
          _ = codes := List.map_id codes
  · intro image
    have scalar : ¬ ∃ code ∈ codePoints string, code.Surrogate := by
      intro surrogates
      obtain ⟨code, present, surrogate⟩ := surrogates
      obtain ⟨char, -, rfl⟩ := List.mem_map.mp present
      exact codePoint_not_surrogate char surrogate
    have chars : (codePoints string).map (fun code => Char.ofNat code.val) = string.toList := by
      rw [codePoints, List.map_map]
      calc string.toList.map ((fun code : CodePoint => Char.ofNat code.val) ∘ codePoint)
        _ = string.toList.map id := List.map_congr_left fun char _ => ofNat_codePoint char
        _ = string.toList := List.map_id _
    rw [image, if_neg scalar, chars, String.ofList_toList]

/-! ## The text of a value -/

theorem encodedItems_eq (items : List (PyKey × PyValue)) :
    encodedItems items = items.map fun item => (item.1, canonicalValue item.2) := by
  induction items with
  | nil => rfl
  | cons item items ih => rw [encodedItems, ih, List.map_cons]

theorem canonicalValues_eq_ok {elements : List PyValue} {texts : List (List Char)} :
    canonicalValues elements = .ok texts ↔
      List.Forall₂ (fun element text => canonicalValue element = .ok text) elements texts := by
  rw [← mapM_eq_ok]
  apply Eq.congr_left
  induction elements with
  | nil => rfl
  | cons element elements ih =>
      rw [canonicalValues, ih, List.mapM_cons]
      rfl

theorem canonicalElements_forall₂ {elements : List PyJson} {texts : List (List Char)} :
    canonicalElements elements = .ok texts ↔
      List.Forall₂ (fun element text => canonicalJson element = .ok text) elements texts := by
  rw [← mapM_eq_ok]
  apply Eq.congr_left
  induction elements with
  | nil => rfl
  | cons element elements ih =>
      rw [canonicalElements, ih, List.mapM_cons]
      rfl

theorem canonicalMembers_forall₂ {members : PyDict} {items : List (String × List Char)} :
    canonicalMembers members = .ok items ↔
      List.Forall₂ (fun member item => member.1 = item.1 ∧ canonicalJson member.2 = .ok item.2)
        members items := by
  induction members generalizing items with
  | nil => simp [canonicalMembers, eq_comm]
  | cons member members ih =>
      simp only [canonicalMembers, bind_eq_ok, ih, Except.ok.injEq]
      constructor
      · intro steps
        obtain ⟨text, head, rest, tail, rfl⟩ := steps
        exact .cons ⟨rfl, head⟩ tail
      · intro related
        cases related with
        | @cons _ item _ rest head tail =>
            obtain ⟨name, text⟩ := item
            exact ⟨text, head.2, rest, tail, by rw [head.1]⟩

namespace PyValue

theorem jsons?_eq_some {elements : List PyValue} {jsons : List PyJson} :
    jsons? elements = some jsons ↔
      List.Forall₂ (fun element json => element.json? = some json) elements jsons := by
  induction elements generalizing jsons with
  | nil => simp [jsons?, eq_comm]
  | cons element elements ih =>
      simp only [jsons?, Option.bind_eq_bind, Option.bind_eq_some_iff, ih, Option.some.injEq]
      constructor
      · intro steps
        obtain ⟨head, headSome, rest, tail, rfl⟩ := steps
        exact .cons headSome tail
      · intro related
        cases related with
        | cons head tail => exact ⟨_, head, _, tail, rfl⟩

theorem members?_eq_some {items : List (PyKey × PyValue)} {members : PyDict} :
    members? items = some members ↔
      List.Forall₂ (fun item member =>
        item.1 = .str (codePoints member.1) ∧ item.2.json? = some member.2) items members := by
  induction items generalizing members with
  | nil => simp [members?, eq_comm]
  | cons item items ih =>
      simp only [members?, Option.bind_eq_bind, Option.bind_eq_some_iff, ih, Option.some.injEq]
      constructor
      · intro steps
        obtain ⟨name, ⟨codes, keyText, named⟩, json, valued, rest, tail, rfl⟩ := steps
        refine .cons ⟨?_, valued⟩ tail
        rw [← text?_eq_some.mp named]
        cases key : item.1 with
        | str text =>
            rw [key] at keyText
            rw [Option.some.inj keyText]
        | other typeName =>
            rw [key] at keyText
            exact absurd keyText (by simp [PyKey.text?])
      · intro related
        cases related with
        | @cons _ member _ rest head tail =>
            refine ⟨member.1, ⟨codePoints member.1, ?_, text?_eq_some.mpr rfl⟩, member.2, head.2, rest,
              tail, rfl⟩
            rw [head.1]
            rfl

end PyValue

/-- The item of a member on its way into the text. -/
def SortItem.ofEntry (entry : String × List Char) : SortItem where
  bytes := utf16be entry.1
  key := codePoints entry.1
  value := .ok entry.2

theorem SortItem.ofEntry_text (entry : String × List Char) :
    (SortItem.ofEntry entry).text = .ok (encodeString entry.1 ++ ':' :: entry.2) := by
  have key := encodeText_eq_ok.mpr ⟨entry.1, rfl, rfl⟩
  simp only [SortItem.text, SortItem.ofEntry, key]
  rfl

/-- What the keys of a `dict` are sorted with. -/
theorem keyed_eq_ok {items : List (PyKey × Except PyError (List Char))} {keyed : List SortItem} :
    (∃ keys, (items.mapM fun item => item.1.text) = .ok keys ∧
        ((keys.zip (items.map Prod.snd)).mapM fun item => SortItem.of item.1 item.2) = .ok keyed) ↔
      List.Forall₂ (fun item sorted => ∃ name, item.1 = .str (codePoints name) ∧
        sorted = { bytes := utf16be name, key := codePoints name, value := item.2 })
        items keyed := by
  simp only [mapM_eq_ok]
  constructor
  · intro steps
    obtain ⟨keys, texts, sorted⟩ := steps
    induction texts generalizing keyed with
    | nil =>
        cases sorted
        exact .nil
    | @cons item key items keys head tail ih =>
        cases sorted with
        | cons first rest =>
            obtain ⟨bytes, bytesOk, built⟩ := bind_eq_ok.mp first
            obtain ⟨name, named, rfl⟩ := textBytes_eq_ok.mp bytesOk
            change key = _ at named
            refine .cons ⟨name, ?_, ?_⟩ (ih rest)
            · rw [← named]
              cases form : item.1 with
              | str text =>
                  rw [form] at head
                  rw [Except.ok.inj head]
              | other typeName =>
                  rw [form] at head
                  exact absurd head (by simp [PyKey.text])
            · rw [← Except.ok.inj built, ← named]
  · intro related
    induction related with
    | nil => exact ⟨[], .nil, .nil⟩
    | @cons item _ items _ head _ ih =>
        obtain ⟨name, named, rfl⟩ := head
        obtain ⟨keys, texts, sorted⟩ := ih
        refine ⟨codePoints name :: keys, .cons ?_ texts, .cons ?_ sorted⟩
        · rw [named]
          rfl
        · have bytes := textBytes_eq_ok.mpr ⟨name, rfl, rfl⟩
          simp only [SortItem.of, bytes]
          rfl

theorem sorted_ofEntry (entries : List (String × List Char)) :
    (entries.map SortItem.ofEntry).insertionSort
        (fun left right => !decide (right.bytes < left.bytes)) =
      (sortedByName entries).map SortItem.ofEntry := by
  unfold sortedByName
  rw [List.map_insertionSort
    (fun left right : String × List Char => !decide (utf16be right.1 < utf16be left.1))
    (fun left right : SortItem => !decide (right.bytes < left.bytes)) SortItem.ofEntry]
  intro left _ right _
  rfl

/-- `canonical_json` on a `dict`: every key is a text and every value has one. -/
theorem encodeDict_eq_ok {items : List (PyKey × Except PyError (List Char))} {text : List Char} :
    encodeDict items = .ok text ↔
      ∃ entries : List (String × List Char),
        List.Forall₂ (fun item entry => item.1 = .str (codePoints entry.1) ∧ item.2 = .ok entry.2)
          items entries ∧
        text = '\x7b' :: Json.commaSeparated
          ((sortedByName entries).map fun entry => encodeString entry.1 ++ ':' :: entry.2) ++
            ['\x7d'] := by
  have texts (entries : List (String × List Char)) :
      ((sortedByName entries).map SortItem.ofEntry).mapM SortItem.text =
        .ok ((sortedByName entries).map fun entry => encodeString entry.1 ++ ':' :: entry.2) := by
    rw [mapM_eq_ok, List.forall₂_map_left_iff, List.forall₂_map_right_iff, List.forall₂_same]
    intro entry _
    exact SortItem.ofEntry_text entry
  unfold encodeDict
  simp only [bind_eq_ok, Except.ok.injEq]
  constructor
  · intro steps
    obtain ⟨keys, keysOk, keyed, keyedOk, written, writtenOk, rfl⟩ := steps
    have related := keyed_eq_ok.mp ⟨keys, keysOk, keyedOk⟩
    have valued : ∀ item ∈ keyed, ∃ value, item.value = .ok value := by
      intro item present
      have sortedPresent := (List.mem_insertionSort
        (fun left right : SortItem => !decide (right.bytes < left.bytes))).mpr present
      obtain ⟨line, -, lineOk⟩ := forall₂_exists_right (mapM_eq_ok.mp writtenOk) sortedPresent
      obtain ⟨_, _, rest⟩ := bind_eq_ok.mp lineOk
      obtain ⟨value, valueOk, _⟩ := bind_eq_ok.mp rest
      exact ⟨value, valueOk⟩
    have entered : ∃ entries : List (String × List Char), keyed = entries.map SortItem.ofEntry ∧
        List.Forall₂ (fun item entry => item.1 = .str (codePoints entry.1) ∧ item.2 = .ok entry.2)
          items entries := by
      clear keysOk keyedOk writtenOk
      induction related with
      | nil => exact ⟨[], rfl, .nil⟩
      | cons head _ ih =>
          obtain ⟨name, named, rfl⟩ := head
          rw [List.forall_mem_cons] at valued
          obtain ⟨value, valueOk⟩ := valued.1
          obtain ⟨entries, rfl, tail⟩ := ih valued.2
          change _ = Except.ok value at valueOk
          refine ⟨(name, value) :: entries, ?_, .cons ⟨named, valueOk⟩ tail⟩
          rw [List.map_cons, SortItem.ofEntry, ← valueOk]
    obtain ⟨entries, rfl, itemized⟩ := entered
    rw [sorted_ofEntry, texts] at writtenOk
    exact ⟨entries, itemized, by rw [Except.ok.inj writtenOk]⟩
  · intro written
    obtain ⟨entries, itemized, rfl⟩ := written
    have related : List.Forall₂ (fun item sorted => ∃ name, item.1 = .str (codePoints name) ∧
        sorted = { bytes := utf16be name, key := codePoints name, value := item.2 })
        items (entries.map SortItem.ofEntry) := by
      rw [List.forall₂_map_right_iff]
      apply itemized.imp
      intro item entry both
      exact ⟨entry.1, both.1, by rw [SortItem.ofEntry, both.2]⟩
    obtain ⟨keys, keysOk, keyedOk⟩ := keyed_eq_ok.mpr related
    refine ⟨keys, keysOk, _, keyedOk, _, ?_, rfl⟩
    rw [sorted_ofEntry]
    exact texts entries

/-- The text a value has is that of the JSON value it stands for. -/
def PyValue.WrittenAsJson (value : PyValue) : Prop :=
  ∀ text, canonicalValue value = .ok text ↔
    ∃ json, value.json? = some json ∧ canonicalJson json = .ok text

theorem canonicalValues_written {elements : List PyValue}
    (each : ∀ element ∈ elements, element.WrittenAsJson) (texts : List (List Char)) :
    canonicalValues elements = .ok texts ↔
      ∃ jsons, PyValue.jsons? elements = some jsons ∧ canonicalElements jsons = .ok texts := by
  simp only [canonicalValues_eq_ok, PyValue.jsons?_eq_some, canonicalElements_forall₂,
    forall₂_comp]
  exact forall₂_congr_left each

theorem encodedItems_written {items : List (PyKey × PyValue)}
    (each : ∀ item ∈ items, item.2.WrittenAsJson) (entries : List (String × List Char)) :
    List.Forall₂ (fun item entry => item.1 = .str (codePoints entry.1) ∧ item.2 = .ok entry.2)
        (encodedItems items) entries ↔
      ∃ members, PyValue.members? items = some members ∧
        canonicalMembers members = .ok entries := by
  simp only [PyValue.members?_eq_some, canonicalMembers_forall₂, forall₂_comp, encodedItems_eq,
    List.forall₂_map_left_iff]
  apply forall₂_congr_left
  intro item present entry
  rw [each item present]
  constructor
  · intro both
    obtain ⟨keyed, json, read, written⟩ := both
    exact ⟨(entry.1, json), ⟨keyed, read⟩, rfl, written⟩
  · intro through
    obtain ⟨member, ⟨keyed, read⟩, named, written⟩ := through
    exact ⟨named ▸ keyed, member.2, read, written⟩

/-- `canonical_json` accepts the values that stand for a JSON value it accepts, and
writes them alike. -/
theorem canonicalValue_eq_ok (value : PyValue) : value.WrittenAsJson := by
  induction value using PyValue.induction with
  | none => simp [PyValue.WrittenAsJson, canonicalValue, PyValue.json?, canonicalJson]
  | bool value =>
      cases value <;> simp [PyValue.WrittenAsJson, canonicalValue, PyValue.json?, canonicalJson]
  | num value => simp [PyValue.WrittenAsJson, canonicalValue, PyValue.json?, canonicalJson]
  | str codes =>
      intro text
      simp only [canonicalValue, PyValue.json?, Option.map_eq_some_iff, encodeText_eq_ok,
        text?_eq_some]
      constructor
      · intro written
        obtain ⟨string, rfl, rfl⟩ := written
        exact ⟨_, ⟨string, rfl, rfl⟩, rfl⟩
      · intro read
        obtain ⟨_, ⟨string, rfl, rfl⟩, written⟩ := read
        exact ⟨string, rfl, (Except.ok.inj written).symm⟩
  | list elements ih =>
      intro text
      simp only [canonicalValue, PyValue.json?, bind_eq_ok, canonicalValues_written ih,
        Option.map_eq_some_iff]
      constructor
      · intro written
        obtain ⟨texts, ⟨jsons, read, encoded⟩, layout⟩ := written
        exact ⟨_, ⟨jsons, read, rfl⟩, bind_eq_ok.mpr ⟨texts, encoded, layout⟩⟩
      · intro read
        obtain ⟨_, ⟨jsons, read, rfl⟩, written⟩ := read
        obtain ⟨texts, encoded, layout⟩ := bind_eq_ok.mp written
        exact ⟨texts, ⟨jsons, read, encoded⟩, layout⟩
  | tuple elements ih =>
      intro text
      simp only [canonicalValue, PyValue.json?, bind_eq_ok, canonicalValues_written ih,
        Option.map_eq_some_iff]
      constructor
      · intro written
        obtain ⟨texts, ⟨jsons, read, encoded⟩, layout⟩ := written
        exact ⟨_, ⟨jsons, read, rfl⟩, bind_eq_ok.mpr ⟨texts, encoded, layout⟩⟩
      · intro read
        obtain ⟨_, ⟨jsons, read, rfl⟩, written⟩ := read
        obtain ⟨texts, encoded, layout⟩ := bind_eq_ok.mp written
        exact ⟨texts, ⟨jsons, read, encoded⟩, layout⟩
  | dict items ih =>
      intro text
      simp only [canonicalValue, PyValue.json?, encodeDict_eq_ok, encodedItems_written ih,
        Option.map_eq_some_iff]
      constructor
      · intro written
        obtain ⟨entries, ⟨members, read, encoded⟩, rfl⟩ := written
        exact ⟨_, ⟨members, read, rfl⟩, bind_eq_ok.mpr ⟨entries, encoded, rfl⟩⟩
      · intro read
        obtain ⟨_, ⟨members, read, rfl⟩, written⟩ := read
        obtain ⟨entries, encoded, layout⟩ := bind_eq_ok.mp written
        exact ⟨entries, ⟨members, read, encoded⟩, (Except.ok.inj layout).symm⟩
  | other typeName => simp [PyValue.WrittenAsJson, canonicalValue, PyValue.json?]

namespace PyValue

theorem allDistinct_iff (elements : List PyValue) :
    AllDistinct elements ↔ ∀ element ∈ elements, element.Distinct := by
  induction elements with
  | nil => simp [AllDistinct]
  | cons element elements ih => rw [AllDistinct, ih, List.forall_mem_cons]

theorem itemsDistinct_iff (items : List (PyKey × PyValue)) :
    ItemsDistinct items ↔ ∀ item ∈ items, item.2.Distinct := by
  induction items with
  | nil => simp [ItemsDistinct]
  | cons item items ih => rw [ItemsDistinct, ih, List.forall_mem_cons]

theorem members?_names {items : List (PyKey × PyValue)} {members : PyDict}
    (read : members? items = some members) :
    (items.filterMap fun item => item.1.text?) = (members.map Prod.fst).map codePoints := by
  have related := members?_eq_some.mp read
  clear read
  induction related with
  | nil => rfl
  | cons head _ ih =>
      rw [List.filterMap_cons, head.1]
      exact congrArg _ ih

/-- A value whose keys are different stands for one whose names are. -/
theorem distinct_json? {value : PyValue} {json : PyJson} (distinct : value.Distinct)
    (read : value.json? = some json) : json.Distinct := by
  have sequences {elements : List PyValue} {json : PyJson}
      (ih : ∀ element ∈ elements, ∀ {json}, element.Distinct → element.json? = some json →
        json.Distinct) (distinct : AllDistinct elements)
      (read : (jsons? elements).map .arr = some json) : json.Distinct := by
    obtain ⟨jsons, related, rfl⟩ := Option.map_eq_some_iff.mp read
    rw [Json.Distinct, Json.namesPairwise_arr]
    intro json present
    obtain ⟨element, elementPresent, elementRead⟩ :=
      forall₂_exists_left (jsons?_eq_some.mp related) present
    exact ih element elementPresent ((allDistinct_iff elements).mp distinct element elementPresent)
      elementRead
  induction value using PyValue.induction generalizing json with
  | none =>
      obtain rfl := Option.some.inj read
      trivial
  | bool value =>
      obtain rfl := Option.some.inj read
      trivial
  | num value =>
      obtain rfl := Option.some.inj read
      trivial
  | str codes =>
      rw [json?] at read
      obtain ⟨string, -, rfl⟩ := Option.map_eq_some_iff.mp read
      trivial
  | list elements ih => exact sequences ih distinct read
  | tuple elements ih => exact sequences ih distinct read
  | dict items ih =>
      obtain ⟨members, related, rfl⟩ := Option.map_eq_some_iff.mp read
      obtain ⟨keys, values⟩ := distinct
      rw [Json.Distinct, Json.namesPairwise_obj]
      constructor
      · rw [members?_names related] at keys
        exact List.Nodup.of_map codePoints keys
      · intro member present
        obtain ⟨item, itemPresent, itemRead⟩ :=
          forall₂_exists_left (members?_eq_some.mp related) present
        exact ih item itemPresent ((itemsDistinct_iff items).mp values item itemPresent) itemRead.2
  | other typeName => exact absurd read (by simp [json?])

end PyValue

/-- **The canonical form is faithful.** Values `canonical_json` accepts have one text
exactly when they are the same JSON value. -/
theorem canonicalValue_faithful {left right : PyValue} {leftText rightText : List Char}
    (leftDistinct : left.Distinct) (rightDistinct : right.Distinct)
    (leftWritten : canonicalValue left = .ok leftText)
    (rightWritten : canonicalValue right = .ok rightText) :
    leftText = rightText ↔ left.Same right := by
  obtain ⟨leftJson, leftRead, leftEncoded⟩ := (canonicalValue_eq_ok left leftText).mp leftWritten
  obtain ⟨rightJson, rightRead, rightEncoded⟩ :=
    (canonicalValue_eq_ok right rightText).mp rightWritten
  rw [canonicalJson_eq_iff (PyValue.distinct_json? leftDistinct leftRead)
    (PyValue.distinct_json? rightDistinct rightRead) leftEncoded rightEncoded]
  constructor
  · intro same
    exact ⟨leftJson, rightJson, leftRead, rightRead, same⟩
  · intro same
    obtain ⟨first, second, firstRead, secondRead, related⟩ := same
    rw [leftRead] at firstRead
    rw [rightRead] at secondRead
    rw [Option.some.inj firstRead, Option.some.inj secondRead]
    exact related

/-- The order of items, a tuple for a list and the sign of zero make no difference. -/
theorem canonicalValue_faithful_reordered :
    PyValue.Same
      (.dict [(.str [98], .tuple [.num (.float (.zero true))]), (.str [97], .bool true)])
      (.dict [(.str [97], .bool true), (.str [98], .list [.num (.int 0)])]) :=
  (canonicalValue_faithful (by simp [PyValue.Distinct, PyValue.ItemsDistinct,
    PyValue.AllDistinct, PyKey.text?]) (by simp [PyValue.Distinct, PyValue.ItemsDistinct,
    PyValue.AllDistinct, PyKey.text?]) rfl rfl).mp rfl

end Harness
