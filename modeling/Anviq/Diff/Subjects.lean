import Anviq.Diff.Annotations
import Anviq.Diff.Repr
import Anviq.Json.Pointer

/-! # What a finding is about

A finding says by its rule, its message and its two values which property or keyword of two
schemas, or which annotation, it is about. Its path has no part in this.
-/

namespace Harness.Diff

variable {lib : Stdlib} {before after : PyDict} {finding : Finding}

/-! ## Places -/

/-- The keywords that findings are about. -/
def reportedKeywords : List String :=
  ["type", "enum", "maximum", "maxLength", "exclusiveMaximum", "minimum", "minLength",
    "exclusiveMinimum", "pattern", "format", "default", "additionalProperties"]

/-- The keywords of `_diff_constraints`. -/
def constraintKeywords : List String :=
  ["maximum", "maxLength", "exclusiveMaximum", "minimum", "minLength", "exclusiveMinimum",
    "pattern", "format"]

/-- What of a schema a finding is about: a property or a keyword. -/
inductive Place where
  | property (name : String)
  | keyword (name : String) (reported : name ∈ reportedKeywords)

/-- What a place adds to a path. -/
def Place.segments : Place → List String
  | .property name => ["properties", name]
  | .keyword name _ => [name]

/-! ## Rules -/

/-- The rules of the findings about schemas. -/
inductive Rule where
  | typeChanged
  | enumValueRemoved
  | enumValueAdded
  | constraintTightened
  | defaultChanged
  | additionalPropertiesRestricted
  | paramRenamed
  | paramRemoved
  | paramAddedRequired
  | paramAddedOptional
  | requiredAdded
  | requiredRemoved
deriving DecidableEq

/-- The text of a rule. -/
def Rule.id : Rule → String
  | typeChanged => "TYPE_CHANGED"
  | enumValueRemoved => "ENUM_VALUE_REMOVED"
  | enumValueAdded => "ENUM_VALUE_ADDED"
  | constraintTightened => "CONSTRAINT_TIGHTENED"
  | defaultChanged => "DEFAULT_CHANGED"
  | additionalPropertiesRestricted => "ADDITIONAL_PROPERTIES_RESTRICTED"
  | paramRenamed => "PARAM_RENAMED"
  | paramRemoved => "PARAM_REMOVED"
  | paramAddedRequired => "PARAM_ADDED_REQUIRED"
  | paramAddedOptional => "PARAM_ADDED_OPTIONAL"
  | requiredAdded => "REQUIRED_ADDED"
  | requiredRemoved => "REQUIRED_REMOVED"

theorem Rule.id_injective : Function.Injective Rule.id := by
  intro left right same
  cases left <;> cases right <;> first | rfl | exact absurd same (by decide)

/-- The rules that may be about what only the definition before has. -/
def removingRules : List String :=
  ["TYPE_CHANGED", "ENUM_VALUE_REMOVED", "DEFAULT_CHANGED", "PARAM_REMOVED", "ANNOTATION_CHANGED"]

/-! ## What findings say -/

/-- The schema has the property, with this schema of its own. -/
def HasOwn (schema : PyDict) (name : String) (own : PyDict) : Prop :=
  ∃ properties, propertySchemas schema = .ok properties ∧ name ∈ properties.map Prod.fst ∧
    schemaOf properties name = own

/-- The schema does not have the property. -/
def Lacks (schema : PyDict) (name : String) : Prop :=
  ∃ properties, propertySchemas schema = .ok properties ∧ name ∉ properties.map Prod.fst

/-- The schema requires the property, or does not. -/
def RequiresIs (schema : PyDict) (name : String) (answer : Bool) : Prop :=
  ∃ names, requiredNames schema = .ok names ∧ contains names (.str name) = answer

/-- The message begins with these words. -/
def Finding.Begins (finding : Finding) (words : String) : Prop :=
  words.toList <+: finding.message.toList

/-- The message and the values of a finding are those of a rule at a place of two schemas. -/
inductive Reports (lib : Stdlib) (before after : PyDict) (finding : Finding) : Rule → Place → Prop
  | typeChanged {reported : "type" ∈ reportedKeywords} (apart : typeSet before ≠ typeSet after)
      (old : finding.before = .arr ((typeSet before).map .str))
      (new : finding.after = .arr ((typeSet after).map .str)) :
      Reports lib before after finding .typeChanged (.keyword "type" reported)
  | enumValueRemoved {reported : "enum" ∈ reportedKeywords}
      (given : getOrNone before "enum" ≠ .null)
      (old : finding.before = getOrNone before "enum")
      (new : finding.after = getOrNone after "enum") :
      Reports lib before after finding .enumValueRemoved (.keyword "enum" reported)
  | enumValueAdded {reported : "enum" ∈ reportedKeywords}
      (given : getOrNone after "enum" ≠ .null)
      (old : finding.before = getOrNone before "enum")
      (new : finding.after = getOrNone after "enum") :
      Reports lib before after finding .enumValueAdded (.keyword "enum" reported)
  | constraintTightened {key : String} {reported : key ∈ reportedKeywords}
      (constraint : key ∈ constraintKeywords) (named : finding.Begins (key ++ " "))
      (given : getOrNone after key ≠ .null) (old : finding.before = getOrNone before key)
      (new : finding.after = getOrNone after key) :
      Reports lib before after finding .constraintTightened (.keyword key reported)
  | defaultChanged {reported : "default" ∈ reportedKeywords}
      (given : (before.get? "default").isSome ∨ (after.get? "default").isSome)
      (apart : ∀ b a, before.get? "default" = some b → after.get? "default" = some a →
        equals a b = false)
      (old : finding.before = getOrNone before "default")
      (new : finding.after = getOrNone after "default") :
      Reports lib before after finding .defaultChanged (.keyword "default" reported)
  | additionalPropertiesRestricted {reported : "additionalProperties" ∈ reportedKeywords}
      (old : finding.before = (before.get? "additionalProperties").getD (.bool true))
      (allowed : finding.before = .bool true ∨ (dict? finding.before).isSome)
      (restricted : after.get? "additionalProperties" = some (.bool false))
      (new : finding.after = .bool false) :
      Reports lib before after finding .additionalPropertiesRestricted
        (.keyword "additionalProperties" reported)
  | paramRenamed {oldName name : String} {was is : PyDict}
      (named : finding.Begins
        s!"parameter {reprString lib oldName} looks renamed to {reprString lib name} ")
      (gone : HasOwn before oldName was ∧ Lacks after oldName)
      (came : HasOwn after name is ∧ Lacks before name)
      (old : finding.before = .obj (merged [("name", .str oldName)] was))
      (new : finding.after = .obj (merged [("name", .str name)] is)) :
      Reports lib before after finding .paramRenamed (.property name)
  | paramRemoved {name : String} {was : PyDict}
      (named : finding.Begins s!"parameter {reprString lib name} was removed")
      (gone : HasOwn before name was ∧ Lacks after name) (old : finding.before = .obj was)
      (new : finding.after = .null) :
      Reports lib before after finding .paramRemoved (.property name)
  | paramAddedRequired {name : String} {is : PyDict}
      (named : finding.Begins s!"required parameter {reprString lib name} was added")
      (came : HasOwn after name is ∧ Lacks before name) (required : RequiresIs after name true)
      (old : finding.before = .null) (new : finding.after = .obj is) :
      Reports lib before after finding .paramAddedRequired (.property name)
  | paramAddedOptional {name : String} {is : PyDict}
      (named : finding.Begins s!"optional parameter {reprString lib name} was added")
      (came : HasOwn after name is ∧ Lacks before name) (optional : RequiresIs after name false)
      (old : finding.before = .null) (new : finding.after = .obj is) :
      Reports lib before after finding .paramAddedOptional (.property name)
  | requiredAdded {name : String} {was is : PyDict}
      (named : finding.Begins s!"parameter {reprString lib name} became required")
      (stays : HasOwn before name was ∧ HasOwn after name is)
      (changed : RequiresIs before name false ∧ RequiresIs after name true)
      (old : finding.before = .bool false) (new : finding.after = .bool true) :
      Reports lib before after finding .requiredAdded (.property name)
  | requiredRemoved {name : String} {was is : PyDict}
      (named : finding.Begins s!"parameter {reprString lib name} is no longer required")
      (stays : HasOwn before name was ∧ HasOwn after name is)
      (changed : RequiresIs before name true ∧ RequiresIs after name false)
      (old : finding.before = .bool true) (new : finding.after = .bool false) :
      Reports lib before after finding .requiredRemoved (.property name)

/-- The finding speaks of this place of two schemas. -/
def SpeaksOf (lib : Stdlib) (before after : PyDict) (finding : Finding) (place : Place) : Prop :=
  ∃ rule, finding.ruleId = Rule.id rule ∧ Reports lib before after finding rule place

/-! ## One subject -/

/-- Messages that go on alike up to the `repr` of a name have the same one. -/
theorem repr_of_begins {front left right : String} {text rest rest' : List Char}
    (first : text = front.toList ++ ((reprString lib left).toList ++ rest))
    (second : text = front.toList ++ ((reprString lib right).toList ++ rest')) :
    left = right ∧ rest = rest' :=
  reprString_eq (List.append_cancel_left (first.symm.trans second))

/-- What a message that begins with the `repr` of a name is made of. -/
theorem Finding.Begins.split {front name back : String}
    (begins : finding.Begins (front ++ reprString lib name ++ back)) :
    ∃ rest, finding.message.toList =
      front.toList ++ ((reprString lib name).toList ++ (back.toList ++ rest)) := by
  rcases begins with ⟨rest, whole⟩
  exact ⟨rest, by simp [← whole]⟩

theorem Finding.Begins.name_eq {front left right back back' : String}
    (first : finding.Begins (front ++ reprString lib left ++ back))
    (second : finding.Begins (front ++ reprString lib right ++ back')) : left = right := by
  rcases first.split with ⟨_, whole⟩
  rcases second.split with ⟨_, whole'⟩
  exact (repr_of_begins whole whole').1

/-- A message about a renamed property names one new property. -/
theorem Finding.Begins.renamed_eq {oldName otherName left right : String}
    (first : finding.Begins
      s!"parameter {reprString lib oldName} looks renamed to {reprString lib left} ")
    (second : finding.Begins
      s!"parameter {reprString lib otherName} looks renamed to {reprString lib right} ") :
    left = right := by
  have parts {oldName name : String}
      (begins : finding.Begins
        s!"parameter {reprString lib oldName} looks renamed to {reprString lib name} ") :
      ∃ rest, finding.message.toList = "parameter ".toList ++ ((reprString lib oldName).toList ++
        (" looks renamed to ".toList ++ ((reprString lib name).toList ++
          (" ".toList ++ rest)))) := by
    rcases begins with ⟨rest, whole⟩
    refine ⟨rest, ?_⟩
    rw [← whole]
    simp only [String.toList_append, List.append_assoc]
    rfl
  rcases parts first with ⟨_, whole⟩
  rcases parts second with ⟨_, whole'⟩
  rcases repr_of_begins whole whole' with ⟨-, onward⟩
  exact (reprString_eq (List.append_cancel_left onward)).1

/-- A message names one keyword. -/
theorem Finding.Begins.key_eq {left right : String} (among : left ∈ constraintKeywords)
    (among' : right ∈ constraintKeywords) (first : finding.Begins (left ++ " "))
    (second : finding.Begins (right ++ " ")) : left = right := by
  have apart : ∀ left ∈ constraintKeywords, ∀ right ∈ constraintKeywords,
      (left ++ " ").toList <+: (right ++ " ").toList → left = right := by decide +kernel
  rcases List.prefix_or_prefix_of_prefix first second with shorter | longer
  · exact apart left among right among' shorter
  · exact (apart right among' left among longer).symm

/-- A finding speaks of one place. -/
theorem SpeaksOf.unique {place other : Place} (about : SpeaksOf lib before after finding place)
    (about' : SpeaksOf lib before after finding other) : place = other := by
  rcases about with ⟨rule, isRule, reports⟩
  rcases about' with ⟨rule', isRule', reports'⟩
  obtain rfl : rule = rule' := Rule.id_injective (isRule.symm.trans isRule')
  cases reports with
  | typeChanged => cases reports'; rfl
  | enumValueRemoved => cases reports'; rfl
  | enumValueAdded => cases reports'; rfl
  | constraintTightened constraint named =>
      cases reports' with
      | constraintTightened constraint' named' =>
          obtain rfl := named.key_eq constraint constraint' named'
          rfl
  | defaultChanged => cases reports'; rfl
  | additionalPropertiesRestricted => cases reports'; rfl
  | paramRenamed named =>
      cases reports' with
      | paramRenamed named' =>
          exact congrArg Place.property (named.renamed_eq named')
  | paramRemoved named =>
      cases reports' with
      | paramRemoved named' => exact congrArg Place.property (named.name_eq named')
  | paramAddedRequired named =>
      cases reports' with
      | paramAddedRequired named' => exact congrArg Place.property (named.name_eq named')
  | paramAddedOptional named =>
      cases reports' with
      | paramAddedOptional named' => exact congrArg Place.property (named.name_eq named')
  | requiredAdded named =>
      cases reports' with
      | requiredAdded named' => exact congrArg Place.property (named.name_eq named')
  | requiredRemoved named =>
      cases reports' with
      | requiredRemoved named' => exact congrArg Place.property (named.name_eq named')

/-! ## Annotations -/

/-- The message of the finding names the annotation. -/
def Finding.NamesHint (lib : Stdlib) (finding : Finding) (name : String) : Prop :=
  name = "readOnlyHint" ∧ finding.Begins "readOnlyHint flipped " ∨
    name = "destructiveHint" ∧ finding.Begins "destructiveHint flipped " ∨
      finding.Begins s!"annotation {reprString lib name} changed "

/-- The finding speaks of this annotation of two sets of them. -/
structure SpeaksOfHint (lib : Stdlib) (before after : PyJson) (finding : Finding) (name : String) :
    Prop where
  rule : finding.ruleId = "ANNOTATION_CHANGED"
  named : finding.NamesHint lib name
  old : annotationOf before (.str name) = .ok finding.before
  new : annotationOf after (.str name) = .ok finding.after
  apart : equals finding.before finding.after = false

/-- A message does not begin with words neither of which begin the other. -/
theorem Finding.Begins.clash {words words' : String} (first : finding.Begins words)
    (second : finding.Begins words') (apart : ¬ words.toList <+: words'.toList)
    (apart' : ¬ words'.toList <+: words.toList) : False :=
  (List.prefix_or_prefix_of_prefix first second).elim apart apart'

/-- A finding speaks of one annotation. -/
theorem SpeaksOfHint.unique {before after : PyJson} {name other : String}
    (speaks : SpeaksOfHint lib before after finding name)
    (speaks' : SpeaksOfHint lib before after finding other) : name = other := by
  have annotated {name : String}
      (changed : finding.Begins s!"annotation {reprString lib name} changed ") :
      finding.Begins "annotation " := by
    rcases changed.split with ⟨_, whole⟩
    exact ⟨_, whole.symm⟩
  rcases speaks.named with ⟨rfl, flipped⟩ | ⟨rfl, flipped⟩ | changed
  · rcases speaks'.named with ⟨rfl, -⟩ | ⟨-, flipped'⟩ | changed
    · rfl
    · exact (flipped.clash flipped' (by decide +kernel) (by decide +kernel)).elim
    · exact (flipped.clash (annotated changed) (by decide +kernel) (by decide +kernel)).elim
  · rcases speaks'.named with ⟨-, flipped'⟩ | ⟨rfl, -⟩ | changed
    · exact (flipped.clash flipped' (by decide +kernel) (by decide +kernel)).elim
    · rfl
    · exact (flipped.clash (annotated changed) (by decide +kernel) (by decide +kernel)).elim
  · rcases speaks'.named with ⟨-, flipped⟩ | ⟨-, flipped⟩ | changed'
    · exact (flipped.clash (annotated changed) (by decide +kernel) (by decide +kernel)).elim
    · exact (flipped.clash (annotated changed) (by decide +kernel) (by decide +kernel)).elim
    · exact changed.name_eq changed'

/-- What the differ says of an annotation that changed. -/
theorem annotationFinding_speaks {before after b a : PyJson} {tool name : String}
    (old : annotationOf before (.str name) = .ok b) (new : annotationOf after (.str name) = .ok a)
    (apart : equals b a = false) :
    SpeaksOfHint lib before after (annotationFinding lib tool (.str name) b a) name := by
  unfold annotationFinding
  dsimp only
  split
  · next flips =>
      refine ⟨rfl, .inl ⟨Json.str.inj flips.1, ?_⟩, old, new, apart⟩
      unfold Finding.Begins
      dsimp only
      decide +kernel
  · split
    · next flips =>
        refine ⟨rfl, .inr (.inl ⟨Json.str.inj flips.1, ?_⟩), old, new, apart⟩
        unfold Finding.Begins
        dsimp only
        decide +kernel
    · refine ⟨rfl, .inr (.inr ?_), old, new, apart⟩
      simp [Finding.Begins, ToString.toString, repr]

/-! ## Where a place is -/

theorem at?_singleton (members : PyDict) (name : String) :
    (Json.obj members).at? [name] = members.get? name := by
  rw [Json.at?, Json.child?]
  cases members.get? name <;> rfl

theorem get?_of_getOrNone {members : PyDict} {name : String}
    (given : getOrNone members name ≠ .null) :
    (members.get? name).isSome := by
  rw [getOrNone] at given
  cases found : members.get? name with
  | none => exact absurd (congrArg (Option.getD · Json.null) found) given
  | some value => rfl

/-- The properties of a schema are members of what it has under `properties`. -/
theorem propertySchemas_found {schema : PyDict} {properties : List (String × PyDict)}
    (read : propertySchemas schema = .ok properties) {property : String × PyDict}
    (present : property ∈ properties) :
    ∃ members : PyDict, schema.get? "properties" = some (.obj members) ∧
      (property.1, .obj property.2) ∈ members := by
  unfold propertySchemas at read
  split at read
  · next members whole =>
      cases read
      obtain ⟨member, among, taken⟩ := List.mem_filterMap.mp present
      obtain ⟨own, isDict, rfl⟩ := Option.map_eq_some_iff.mp taken
      have held : schema.get? "properties" = some (.obj members) := by
        unfold orElse at whole
        split at whole
        · rw [getOrNone] at whole
          cases found : schema.get? "properties" with
          | none =>
              have absent := congrArg (Option.getD · Json.null) found
              have impossible := whole.symm.trans absent
              cases impossible
          | some value =>
              have given := congrArg (Option.getD · Json.null) found
              exact congrArg some (given.symm.trans whole)
        · cases whole
          exact absurd among List.not_mem_nil
      refine ⟨members, held, ?_⟩
      obtain ⟨name, value⟩ := member
      cases value with
      | obj inner =>
          cases isDict
          exact among
      | _ => cases isDict
  · cases read

/-- A property of a schema is where its place says. -/
theorem HasOwn.isSome {schema own : PyDict} {name : String} (has : HasOwn schema name own) :
    ((Json.obj schema).at? (Place.property name).segments).isSome := by
  rcases has with ⟨properties, read, present, -⟩
  obtain ⟨property, among, rfl⟩ := List.mem_map.mp present
  obtain ⟨members, held, inside⟩ := propertySchemas_found read among
  rw [Place.segments, Json.at?, Json.child?, held, Option.bind_some, at?_singleton,
    Option.isSome_iff_ne_none]
  intro absent
  exact Json.Members.get?_eq_none.mp absent (List.mem_map_of_mem inside)

/-- A keyword of a schema is where its place says. -/
theorem isSome_keyword {schema : PyDict} {name : String} {reported : name ∈ reportedKeywords} :
    ((Json.obj schema).at? (Place.keyword name reported).segments).isSome ↔
      (schema.get? name).isSome := by
  rw [Place.segments, at?_singleton]

/-- The rule of a finding about a type. -/
theorem SpeaksOf.typeChanged {place : Place} (about : SpeaksOf lib before after finding place)
    (isType : place.segments = ["type"]) : finding.ruleId = "TYPE_CHANGED" := by
  rcases about with ⟨rule, isRule, reports⟩
  rw [isRule]
  cases reports with
  | typeChanged => rfl
  | constraintTightened constraint =>
      obtain rfl := (List.cons.inj isType).1
      exact absurd constraint (by decide)
  | _ => exact absurd isType (by simp [Place.segments])

/-- What a finding is about, a type apart, is there after the change; or it is gone, and the rule
is one for that. -/
theorem SpeaksOf.resolves {place : Place} (about : SpeaksOf lib before after finding place)
    (other : place.segments ≠ ["type"]) :
    ((Json.obj after).at? place.segments).isSome ∨
      finding.ruleId ∈ removingRules ∧ ((Json.obj before).at? place.segments).isSome := by
  rcases about with ⟨rule, isRule, reports⟩
  rw [isRule]
  cases reports with
  | typeChanged => exact absurd rfl other
  | enumValueRemoved given =>
      exact .inr ⟨by decide, isSome_keyword.mpr (get?_of_getOrNone given)⟩
  | enumValueAdded given => exact .inl (isSome_keyword.mpr (get?_of_getOrNone given))
  | constraintTightened _ _ given => exact .inl (isSome_keyword.mpr (get?_of_getOrNone given))
  | defaultChanged given =>
      rcases given with was | is
      · exact .inr ⟨by decide, isSome_keyword.mpr was⟩
      · exact .inl (isSome_keyword.mpr is)
  | additionalPropertiesRestricted _ _ restricted =>
      exact .inl (isSome_keyword.mpr (restricted ▸ rfl))
  | paramRenamed _ _ came => exact .inl came.1.isSome
  | paramRemoved _ gone => exact .inr ⟨by decide, gone.1.isSome⟩
  | paramAddedRequired _ came => exact .inl came.1.isSome
  | paramAddedOptional _ came => exact .inl came.1.isSome
  | requiredAdded _ stays => exact .inl stays.2.isSome
  | requiredRemoved _ stays => exact .inl stays.2.isSome

end Harness.Diff
