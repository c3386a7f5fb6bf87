import Anviq.Diff.References
import Anviq.Diff.Renames
import Anviq.Diff.Subjects

/-! # Where a finding is

`_diff_node` builds the path of a finding from the names it went through. Here is the place it
stands for: the steps from a schema to one of its parts, and what is reported there. Two places
have one path only if a property has a `/` in its name.
-/

namespace Harness.Diff

variable {lib : Stdlib} {tool pointer : String} {before after : PyDict} {finding : Finding}

/-! ## Distinct names -/

theorem empty_distinct : (Json.obj [] : PyJson).Distinct := ⟨.nil, trivial⟩

/-- Merging repeats no name. -/
theorem merged_distinct {base changes : PyDict} (first : (Json.obj base).Distinct)
    (second : (Json.obj changes).Distinct) : (Json.obj (merged base changes)).Distinct := by
  rw [Json.Distinct, Json.namesPairwise_obj] at first second ⊢
  have kept : (base.map fun member => (member.1, (changes.get? member.1).getD member.2)).map
      Prod.fst = base.map Prod.fst := by
    rw [List.map_map]
    rfl
  refine ⟨?_, ?_⟩
  · rw [merged, List.map_append, kept]
    refine List.pairwise_append.mpr ⟨first.1, second.1.sublist (List.filter_sublist.map _), ?_⟩
    intro name old other new same
    obtain ⟨member, added, rfl⟩ := List.mem_map.mp new
    have absent := (List.mem_filter.mp added).2
    rw [Option.isNone_iff_eq_none, Json.Members.get?_eq_none] at absent
    exact absent (same ▸ old)
  · intro member among
    obtain base | changed := List.mem_append.mp among
    · obtain ⟨own, present, rfl⟩ := List.mem_map.mp base
      cases found : changes.get? own.1 with
      | none =>
          rw [Option.getD_none]
          exact first.2 own present
      | some value =>
          rw [Option.getD_some]
          exact second.2 _ (Json.Members.mem_of_get? found)
    · exact second.2 member (List.mem_filter.mp changed).1

/-- The members of a value without repeated names repeat none. -/
theorem members_distinct {node : PyJson} (distinct : node.Distinct) :
    (Json.obj node.members).Distinct := by
  cases node with
  | obj members => exact distinct
  | _ => exact empty_distinct

theorem orElse_distinct {value other : PyJson} (first : value.Distinct) (second : other.Distinct) :
    (orElse value other).Distinct := by
  unfold orElse
  split
  · exact first
  · exact second

theorem getOrNone_distinct (distinct : (Json.obj after).Distinct) (name : String) :
    (getOrNone after name).Distinct :=
  Json.getD_distinct distinct name trivial

section Resolve

variable {root : PyJson} {follow : List String → PyJson → Except PyError PyJson}
  {seen : List String}

/-- Resolving keeps the names of members. -/
theorem resolveMembers_names {members resolved : PyDict}
    (found : resolveMembers lib root follow seen members = .ok resolved) :
    resolved.map Prod.fst = members.map Prod.fst := by
  have related := resolveMembers_ok.mp found
  clear found
  induction related with
  | nil => rfl
  | cons same _ ih => rw [List.map_cons, List.map_cons, same.1, ih]

/-- Expanding the references of a value keeps names apart. -/
theorem resolveNode_distinct (whole : root.Distinct)
    (followed : ∀ {seen target resolved}, Json.Distinct target →
      follow seen target = .ok resolved → Json.Distinct resolved)
    {node resolved : PyJson} (distinct : node.Distinct)
    (found : resolveNode lib root follow seen node = .ok resolved) : resolved.Distinct := by
  induction node using Json.induction generalizing resolved with
  | arr elements ih =>
      obtain ⟨values, each, same⟩ := bind_eq_ok.mp found
      cases same
      rw [Json.Distinct, Json.namesPairwise_arr] at distinct ⊢
      intro value present
      obtain ⟨element, among, here⟩ := forall₂_exists_left (resolveElements_ok.mp each) present
      exact ih element among (distinct element among) here
  | obj members ih =>
      have names := distinct
      rw [Json.Distinct, Json.namesPairwise_obj] at distinct
      rw [resolveNode] at found
      split at found
      · next ref referred =>
          split at found
          · cases found
            exact empty_distinct
          · obtain ⟨target, pointed, found⟩ := bind_eq_ok.mp found
            have pointedDistinct : target.Distinct :=
              jsonPointerGet_holds (P := Json.Distinct) trivial
                (fun members holds => (Json.namesPairwise_obj.mp holds).2)
                (fun elements holds => Json.namesPairwise_arr.mp holds) whole pointed
            split at found
            · cases found
              exact names
            · obtain ⟨inner, expanded, same⟩ := bind_eq_ok.mp found
              cases same
              apply merged_distinct (members_distinct (followed pointedDistinct expanded))
              rw [Json.Distinct, Json.namesPairwise_obj]
              exact ⟨distinct.1.sublist (List.filter_sublist.map _),
                fun member among => distinct.2 member (List.mem_filter.mp among).1⟩
      · obtain ⟨values, each, same⟩ := bind_eq_ok.mp found
        cases same
        rw [Json.Distinct, Json.namesPairwise_obj]
        refine ⟨?_, ?_⟩
        · rw [resolveMembers_names each]
          exact distinct.1
        · intro value present
          obtain ⟨member, among, -, here⟩ := forall₂_exists_left (resolveMembers_ok.mp each) present
          exact ih member among (distinct.2 member among) here
  | _ =>
      cases found
      exact distinct

/-- Resolving repeats no name, -/
theorem resolveRefs_distinct (whole : root.Distinct) (fuel : Nat) :
    ∀ {seen : List String} {node resolved : PyJson}, node.Distinct →
      resolveRefs lib root fuel seen node = .ok resolved → resolved.Distinct := by
  induction fuel with
  | zero =>
      intro seen node resolved distinct found
      refine resolveNode_distinct whole ?_ distinct found
      intro _ _ _ _ same
      cases same
      exact empty_distinct
  | succ fuel ih =>
      intro seen node resolved distinct found
      exact resolveNode_distinct whole ih distinct found

/-- in the schema of a definition either. -/
theorem resolvedSchema_distinct {definition : PyDict} {name : String} {resolved : PyJson}
    (distinct : (Json.obj definition).Distinct)
    (found : resolvedSchema lib definition name = .ok resolved) : resolved.Distinct := by
  have whole : (orElse (getOrNone definition name) (.obj [])).Distinct :=
    orElse_distinct (getOrNone_distinct distinct name) empty_distinct
  exact resolveRefs_distinct whole _ whole found

end Resolve

/-! ## Places -/

/-- Names as a path. -/
def pathText : List String → String
  | [] => ""
  | segment :: segments => "/" ++ segment ++ pathText segments

/-- The text of a longer path. -/
theorem pathText_append (front back : List String) :
    pathText (front ++ back) = pathText front ++ pathText back := by
  induction front with
  | nil => simp [pathText]
  | cons segment front ih => simp [pathText, ih, String.append_assoc]

/-- A step of `_diff_node` to what a schema holds. -/
inductive Step where
  | property (name : String)
  | items

/-- What a step adds to a path. -/
def Step.segments : Step → List String
  | .property name => ["properties", name]
  | .items => ["items"]

/-- What a step leads to: the schemas of a property of both, or of the items. -/
inductive Child (before after : PyDict) : Step → PyJson → PyJson → Prop where
  | property {bProps aProps : List (String × PyDict)} {name : String}
      (old : propertySchemas before = .ok bProps) (new : propertySchemas after = .ok aProps)
      (common : name ∈ bProps.map Prod.fst ∧ hasProperty aProps name = true) :
      Child before after (.property name) (.obj (schemaOf bProps name))
        (.obj (schemaOf aProps name))
  | items : Child before after .items (getOrNone before "items") (getOrNone after "items")

/-- What steps lead to. -/
inductive Reaches : List Step → PyJson → PyJson → PyJson → PyJson → Prop where
  | here (before after : PyJson) : Reaches [] before after before after
  | step {step : Step} {steps : List Step} {before after innerBefore innerAfter last next : PyJson}
      (child : Child before.members after.members step innerBefore innerAfter)
      (rest : Reaches steps innerBefore innerAfter last next) :
      Reaches (step :: steps) before after last next

/-- The findings of `_diff_node` about two schemas themselves. -/
def ownFindings (lib : Stdlib) (tool pointer : String) (before after : PyDict) :
    Except PyError (List Finding) :=
  diffObjects lib tool pointer before after fun _ _ _ => .ok []

/-- A finding about a place of two schemas, which has the path of the place. -/
structure AtPlace (lib : Stdlib) (tool pointer : String) (before after : PyDict) (place : Place)
    (finding : Finding) : Prop where
  tool : finding.tool = some tool
  path : finding.path = pointer ++ pathText place.segments
  distinct : (Json.obj after).Distinct → finding.after.Distinct
  about : SpeaksOf lib before after finding place

section Own

theorem mem_ite_singleton {α : Type} {condition : Prop} [Decidable condition] {item other : α}
    (among : item ∈ if condition then [other] else []) : item = other := by
  split at among
  · exact List.mem_singleton.mp among
  · exact absurd among List.not_mem_nil

theorem of_mem_ite {α : Type} {condition : Prop} [Decidable condition] {item : α} {items : List α}
    (among : item ∈ if condition then items else []) : condition := by
  split at among
  · assumption
  · exact absurd among List.not_mem_nil

theorem not_of_mem_ite {α : Type} {condition : Prop} [Decidable condition] {item : α}
    {items : List α} (among : item ∈ if condition then [] else items) : ¬ condition := by
  split at among
  · exact absurd among List.not_mem_nil
  · assumption

theorem mem_ite_nil {α : Type} {condition : Prop} [Decidable condition] {item other : α}
    (among : item ∈ if condition then [] else [other]) : item = other := by
  split at among
  · exact absurd among List.not_mem_nil
  · exact List.mem_singleton.mp among

/-- The path of a property. -/
theorem property_path (pointer name : String) :
    s!"{pointer}/properties/{name}" = pointer ++ pathText ["properties", name] := by
  change pointer ++ "/properties/" ++ name =
    pointer ++ ("/" ++ "properties" ++ ("/" ++ name ++ ""))
  have joined : "/properties/" ++ name = "/" ++ "properties" ++ ("/" ++ name) := by
    rw [← String.append_assoc]
    rfl
  rw [String.append_assoc, String.append_empty, joined]

/-- A finding about a property. -/
theorem atPlace_property {severity : Severity} (rule : Rule) {name message : String}
    {old new : PyJson} (distinct : (Json.obj after).Distinct → new.Distinct)
    (reports : Reports lib before after
      (propertyFinding tool pointer severity rule.id name message old new) rule (.property name)) :
    AtPlace lib tool pointer before after (.property name)
      (propertyFinding tool pointer severity rule.id name message old new) :=
  ⟨rfl, property_path pointer name, distinct, rule, rfl, reports⟩

theorem names_distinct (names : List String) : (Json.arr (names.map .str) : PyJson).Distinct := by
  rw [Json.Distinct, Json.namesPairwise_arr]
  intro element among
  obtain ⟨name, -, rfl⟩ := List.mem_map.mp among
  trivial

/-- A change of type is about the keyword `type`. -/
theorem diffType_atPlace (among : finding ∈ diffType lib tool pointer before after) :
    ∃ place, AtPlace lib tool pointer before after place finding := by
  unfold diffType at among
  split at among
  · exact absurd among List.not_mem_nil
  · next severity kind changed =>
      rw [List.mem_singleton] at among
      subst among
      have apart : typeSet before ≠ typeSet after := by
        intro same
        rw [classifyTypeChange, if_pos same] at changed
        cases changed
      exact ⟨.keyword "type" (by simp [reportedKeywords]), rfl, rfl, fun _ => names_distinct _,
        .typeChanged, rfl, .typeChanged apart rfl rfl⟩

/-- An `enum` that is not there has no values. -/
theorem enumSet_null : enumSet lib .null = .ok [] := rfl

/-- A change of the enumerated values is about `enum`. -/
theorem diffEnum_atPlace {findings : List Finding}
    (found : diffEnum lib tool pointer before after = .ok findings) (among : finding ∈ findings) :
    ∃ place, AtPlace lib tool pointer before after place finding := by
  unfold diffEnum at found
  dsimp only at found
  split at found
  · cases found
    exact absurd among List.not_mem_nil
  · obtain ⟨old, oldValues, found⟩ := bind_eq_ok.mp found
    obtain ⟨new, newValues, same⟩ := bind_eq_ok.mp found
    cases same
    refine ⟨.keyword "enum" (by simp [reportedKeywords]), ?_⟩
    obtain removed | added := List.mem_append.mp among
    · have some := not_of_mem_ite removed
      rw [mem_ite_nil removed]
      refine ⟨rfl, rfl, fun distinct => getOrNone_distinct distinct _, .enumValueRemoved, rfl,
        .enumValueRemoved ?_ rfl rfl⟩
      intro absent
      rw [absent, enumSet_null, Except.ok.injEq] at oldValues
      subst oldValues
      exact some rfl
    · have some := not_of_mem_ite added
      rw [mem_ite_nil added]
      refine ⟨rfl, rfl, fun distinct => getOrNone_distinct distinct _, .enumValueAdded, rfl,
        .enumValueAdded ?_ rfl rfl⟩
      intro absent
      rw [absent, enumSet_null, Except.ok.injEq] at newValues
      subst newValues
      exact some rfl

/-- The keywords of `_diff_constraints` are among those that findings are about. -/
theorem constraint_reported {key : String} (constraint : key ∈ constraintKeywords) :
    key ∈ reportedKeywords := by
  revert key
  decide

/-- A finding that names a constraint is about it. -/
theorem atPlace_constraint {key message : String} (constraint : key ∈ constraintKeywords)
    (named : (constraintFinding tool pointer before after key message).Begins (key ++ " "))
    (given : getOrNone after key ≠ .null) :
    AtPlace lib tool pointer before after (.keyword key (constraint_reported constraint))
      (constraintFinding tool pointer before after key message) := by
  refine ⟨rfl, ?_, fun distinct => getOrNone_distinct distinct _, .constraintTightened, rfl,
    .constraintTightened constraint named given rfl rfl⟩
  change pointer ++ "/" ++ key = _
  simp [Place.segments, pathText, String.append_assoc]

/-- A bound that is tightened is the one the finding is about. -/
theorem diffBound_atPlace {tighter : PyJson → PyJson → Except PyError Bool} {key : String}
    (constraint : key ∈ constraintKeywords) {findings : List Finding}
    (found : diffBound lib tool pointer before after tighter key = .ok findings)
    (among : finding ∈ findings) :
    ∃ place, AtPlace lib tool pointer before after place finding := by
  unfold diffBound at found
  dsimp only at found
  split at found
  · cases found
    exact absurd among List.not_mem_nil
  · next isNumber =>
      let b := getOrNone before key
      let a := getOrNone after key
      obtain rfl : finding = constraintFinding tool pointer before after key
          s!"{key} tightened from {str lib b} to {str lib a}" := by
        split at found <;>
        · obtain ⟨tightened, -, same⟩ := bind_eq_ok.mp found
          cases same
          exact mem_ite_singleton among
      refine ⟨_, atPlace_constraint constraint ?_ ?_⟩
      · simp [Finding.Begins, constraintFinding, ToString.toString]
      · intro absent
        rw [absent] at isNumber
        exact isNumber rfl

/-- So is a pattern or a format that changes. -/
theorem diffText_atPlace {key : String} (constraint : key ∈ constraintKeywords)
    (among : finding ∈ diffText lib tool pointer before after key) :
    ∃ place, AtPlace lib tool pointer before after place finding := by
  have given := (of_mem_ite among).1
  rw [mem_ite_singleton among]
  refine ⟨_, atPlace_constraint constraint ?_ given⟩
  simp [Finding.Begins, constraintFinding, ToString.toString]

/-- Findings about constraints are each about one of them. -/
theorem diffConstraints_atPlace {findings : List Finding}
    (found : diffConstraints lib tool pointer before after = .ok findings)
    (among : finding ∈ findings) :
    ∃ place, AtPlace lib tool pointer before after place finding := by
  have bounded {keys : List String} {tighter : PyJson → PyJson → Except PyError Bool}
      {lists : List (List Finding)} (constraints : ∀ key ∈ keys, key ∈ constraintKeywords)
      (each : keys.mapM (diffBound lib tool pointer before after tighter) = .ok lists)
      (among : finding ∈ lists.flatten) :
      ∃ place, AtPlace lib tool pointer before after place finding := by
    obtain ⟨list, listed, among⟩ := List.mem_flatten.mp among
    obtain ⟨key, present, own⟩ := forall₂_exists_left (mapM_eq_ok.mp each) listed
    exact diffBound_atPlace (constraints key present) own among
  obtain ⟨upper, uppers, found⟩ := bind_eq_ok.mp found
  obtain ⟨lower, lowers, same⟩ := bind_eq_ok.mp found
  cases same
  obtain bounds | texts := List.mem_append.mp among
  · obtain among | among := List.mem_append.mp bounds
    · exact bounded (by simp [constraintKeywords]) uppers among
    · exact bounded (by simp [constraintKeywords]) lowers among
  · obtain ⟨key, present, among⟩ := List.mem_flatMap.mp texts
    refine diffText_atPlace ?_ among
    revert key
    simp [constraintKeywords]

/-- A change of the default is about `default`. -/
theorem diffDefault_atPlace (among : finding ∈ diffDefault lib tool pointer before after) :
    ∃ place, AtPlace lib tool pointer before after place finding := by
  have changed := not_of_mem_ite among
  rw [mem_ite_nil among]
  refine ⟨.keyword "default" (by simp [reportedKeywords]), rfl, rfl,
    fun distinct => getOrNone_distinct distinct "default", .defaultChanged, rfl,
    .defaultChanged ?_ ?_ rfl rfl⟩
  · cases old : before.get? "default" with
    | some value => exact Or.inl rfl
    | none =>
        cases new : after.get? "default" with
        | some value => exact Or.inr rfl
        | none =>
            rw [old, new] at changed
            exact absurd rfl changed
  · intro b a old new
    rw [old, new] at changed
    exact Bool.eq_false_of_not_eq_true changed

/-- A restriction is about `additionalProperties`. -/
theorem diffAdditionalProperties_atPlace
    (among : finding ∈ diffAdditionalProperties tool pointer before after) :
    ∃ place, AtPlace lib tool pointer before after place finding := by
  obtain ⟨allowed, restricted⟩ := of_mem_ite among
  rw [mem_ite_singleton among]
  refine ⟨.keyword "additionalProperties" (by simp [reportedKeywords]), rfl, rfl,
    fun distinct => Json.getD_distinct distinct _ trivial, .additionalPropertiesRestricted, rfl,
    .additionalPropertiesRestricted rfl allowed ?_ restricted⟩
  cases new : after.get? "additionalProperties" with
  | some value =>
      rw [new] at restricted
      exact congrArg some restricted
  | none =>
      rw [new] at restricted
      exact nomatch restricted

theorem schemaOf_distinct {properties : List (String × PyDict)}
    (distinct : ∀ property ∈ properties, (Json.obj property.2).Distinct) (name : String) :
    (Json.obj (schemaOf properties name)).Distinct := by
  unfold schemaOf
  cases found : properties.find? fun property => property.1 == name with
  | none => exact empty_distinct
  | some property => exact distinct property (List.mem_of_find?_eq_some found)

/-- The schemas of properties repeat no name. -/
theorem propertySchemas_distinct {schema : PyDict} {properties : List (String × PyDict)}
    (distinct : (Json.obj schema).Distinct) (found : propertySchemas schema = .ok properties) :
    ∀ property ∈ properties, (Json.obj property.2).Distinct := by
  unfold propertySchemas at found
  split at found
  · next members held =>
      cases found
      have whole : (Json.obj members).Distinct := by
        rw [← held]
        exact orElse_distinct (getOrNone_distinct distinct _) empty_distinct
      intro property among
      obtain ⟨member, present, taken⟩ := List.mem_filterMap.mp among
      obtain ⟨own, isDict, rfl⟩ := Option.map_eq_some_iff.mp taken
      have holds := (Json.namesPairwise_obj.mp whole).2 member present
      cases value : member.2 with
      | obj members =>
          rw [value] at isDict holds
          cases isDict
          exact holds
      | _ =>
          rw [value] at isDict
          cases isDict
  · cases found

section Properties

variable {bProps aProps : List (String × PyDict)} {bRequired aRequired : List PyJson}
  {name : String}

/-- The names only one of two schemas has. -/
theorem mem_onlyIn {own others : List (String × PyDict)} :
    name ∈ (own.map Prod.fst).filter (fun name => !hasProperty others name) ↔
      name ∈ own.map Prod.fst ∧ name ∉ others.map Prod.fst := by
  rw [List.mem_filter, hasProperty, Bool.not_eq_true', List.any_eq_false, List.mem_map,
    List.mem_map]
  refine and_congr_right fun _ => ?_
  constructor
  · rintro absent ⟨property, among, rfl⟩
    exact absent property among (beq_self_eq_true _)
  · intro absent property among same
    exact absent ⟨property, among, beq_iff_eq.mp same⟩

/-- A finding about a renaming is about the new property. -/
theorem renamedFinding_atPlace (old : propertySchemas before = .ok bProps)
    (new : propertySchemas after = .ok aProps) {rename : Rename}
    (gone : rename.2.1 ∈ (bProps.map Prod.fst).filter fun name => !hasProperty aProps name)
    (came : rename.2.2 ∈ (aProps.map Prod.fst).filter fun name => !hasProperty bProps name) :
    AtPlace lib tool pointer before after (.property rename.2.2)
      (renamedFinding lib tool pointer bProps aProps rename) := by
  have parts (distinct : (Json.obj after).Distinct) := propertySchemas_distinct distinct new
  rw [mem_onlyIn] at gone came
  refine atPlace_property .paramRenamed (fun distinct => ?_)
    (.paramRenamed ?_ ⟨⟨_, old, gone.1, rfl⟩, _, new, gone.2⟩
      ⟨⟨_, new, came.1, rfl⟩, _, old, came.2⟩ rfl rfl)
  · apply merged_distinct
    · simp [Json.Distinct, Json.NamesPairwise]
    · exact schemaOf_distinct (parts distinct) _
  · simp [Finding.Begins, propertyFinding, ToString.toString]

/-- One about a removal is about the property that is gone. -/
theorem removedFinding_atPlace (old : propertySchemas before = .ok bProps)
    (new : propertySchemas after = .ok aProps)
    (gone : name ∈ (bProps.map Prod.fst).filter fun name => !hasProperty aProps name) :
    AtPlace lib tool pointer before after (.property name)
      (removedFinding lib tool pointer bProps name) := by
  rw [mem_onlyIn] at gone
  exact atPlace_property .paramRemoved (fun _ => trivial)
    (.paramRemoved List.prefix_rfl ⟨⟨_, old, gone.1, rfl⟩, _, new, gone.2⟩ rfl rfl)

/-- One about an addition is about the property that has come. -/
theorem addedFinding_atPlace (old : propertySchemas before = .ok bProps)
    (new : propertySchemas after = .ok aProps) (isRequired : requiredNames after = .ok aRequired)
    (came : name ∈ (aProps.map Prod.fst).filter fun name => !hasProperty bProps name) :
    AtPlace lib tool pointer before after (.property name)
      (addedFinding lib tool pointer aProps aRequired name) := by
  have parts (distinct : (Json.obj after).Distinct) := propertySchemas_distinct distinct new
  rw [mem_onlyIn] at came
  have arrived : HasOwn after name (schemaOf aProps name) ∧ Lacks before name :=
    ⟨⟨_, new, came.1, rfl⟩, _, old, came.2⟩
  unfold addedFinding
  split
  · next required =>
      exact atPlace_property .paramAddedRequired
        (fun distinct => schemaOf_distinct (parts distinct) _)
        (.paramAddedRequired List.prefix_rfl arrived ⟨_, isRequired, required⟩ rfl rfl)
  · next optional =>
      exact atPlace_property .paramAddedOptional
        (fun distinct => schemaOf_distinct (parts distinct) _)
        (.paramAddedOptional List.prefix_rfl arrived
          ⟨_, isRequired, Bool.eq_false_of_not_eq_true optional⟩ rfl rfl)

/-- One about a property that is newly required, or no longer, is about the property. -/
theorem requiredFindings_atPlace (old : propertySchemas before = .ok bProps)
    (new : propertySchemas after = .ok aProps) (wasRequired : requiredNames before = .ok bRequired)
    (isRequired : requiredNames after = .ok aRequired) (kept : name ∈ bProps.map Prod.fst)
    (shared : hasProperty aProps name = true)
    (among : finding ∈ requiredFindings lib tool pointer bRequired aRequired name) :
    AtPlace lib tool pointer before after (.property name) finding := by
  have stays : HasOwn before name (schemaOf bProps name) ∧
      HasOwn after name (schemaOf aProps name) :=
    ⟨⟨_, old, kept, rfl⟩, _, new, by simpa [hasProperty] using shared, rfl⟩
  unfold requiredFindings at among
  dsimp only at among
  split at among
  · next became =>
      rw [List.mem_singleton.mp among]
      rw [Bool.and_eq_true, Bool.not_eq_true'] at became
      exact atPlace_property .requiredAdded (fun _ => trivial)
        (.requiredAdded List.prefix_rfl stays
          ⟨⟨_, wasRequired, became.2⟩, _, isRequired, became.1⟩ rfl rfl)
  · have ceased := of_mem_ite among
    rw [mem_ite_singleton among]
    rw [Bool.and_eq_true, Bool.not_eq_true'] at ceased
    exact atPlace_property .requiredRemoved (fun _ => trivial)
      (.requiredRemoved List.prefix_rfl stays
        ⟨⟨_, wasRequired, ceased.1⟩, _, isRequired, ceased.2⟩ rfl rfl)

end Properties

/-- What `_diff_properties` finds is about a property, or found within one. -/
theorem diffProperties_atPlace
    {recurse : String → PyJson → PyJson → Except PyError (List Finding)} {findings : List Finding}
    (found : diffProperties lib tool pointer before after recurse = .ok findings)
    (among : finding ∈ findings) : (∃ place, AtPlace lib tool pointer before after place finding) ∨
      ∃ step old new inner, Child before after step old new ∧
        recurse (pointer ++ pathText step.segments) old new = .ok inner ∧ finding ∈ inner := by
  obtain ⟨bProps, old, found⟩ := bind_eq_ok.mp found
  obtain ⟨aProps, new, found⟩ := bind_eq_ok.mp found
  obtain ⟨bRequired, wasRequired, found⟩ := bind_eq_ok.mp found
  obtain ⟨aRequired, isRequired, found⟩ := bind_eq_ok.mp found
  dsimp only at found
  obtain ⟨common, each, same⟩ := bind_eq_ok.mp found
  cases same
  obtain ⟨renames, removes, adds⟩ := @matchRenames_subset lib
    (fun old new => renameConfidence lib old new (schemaOf bProps old) (schemaOf aProps new))
    ((bProps.map Prod.fst).filter fun name => !hasProperty aProps name)
    ((aProps.map Prod.fst).filter fun name => !hasProperty bProps name)
  rw [List.mem_append, List.mem_append, List.mem_append] at among
  obtain ((renamed | removed) | added) | inner := among
  · obtain ⟨rename, taken, rfl⟩ := List.mem_map.mp renamed
    have named := renames rename taken
    exact Or.inl ⟨_, renamedFinding_atPlace old new named.1 named.2⟩
  · obtain ⟨name, gone, rfl⟩ := List.mem_map.mp removed
    exact Or.inl ⟨_, removedFinding_atPlace old new (removes gone)⟩
  · obtain ⟨name, came, rfl⟩ := List.mem_map.mp added
    exact Or.inl ⟨_, addedFinding_atPlace old new isRequired (adds came)⟩
  · obtain ⟨list, listed, among⟩ := List.mem_flatten.mp inner
    obtain ⟨name, present, own⟩ := forall₂_exists_left (mapM_eq_ok.mp each) listed
    obtain ⟨within, recursed, same⟩ := bind_eq_ok.mp own
    cases same
    obtain ⟨kept, shared⟩ := List.mem_filter.mp present
    obtain required | among := List.mem_append.mp among
    · exact Or.inl ⟨_, requiredFindings_atPlace old new wasRequired isRequired kept shared required⟩
    · rw [property_path] at recursed
      exact Or.inr ⟨.property name, _, _, within, .property old new ⟨kept, shared⟩, recursed, among⟩

/-- What `_diff_node` finds about the properties of two schemas. -/
def nodeProperties (lib : Stdlib) (tool pointer : String) (before after : PyDict)
    (recurse : String → PyJson → PyJson → Except PyError (List Finding)) :
    Except PyError (List Finding) :=
  if concerns before after "object" "properties" then do
    let properties ← diffProperties lib tool pointer before after recurse
    .ok (properties ++ diffAdditionalProperties tool pointer before after)
  else .ok []

/-- What `_diff_node` finds about the items of two schemas. -/
def nodeItems (pointer : String) (before after : PyDict)
    (recurse : String → PyJson → PyJson → Except PyError (List Finding)) :
    Except PyError (List Finding) :=
  if concerns before after "array" "items" &&
      ((dict? (getOrNone before "items")).isSome || (dict? (getOrNone after "items")).isSome)
  then recurse (pointer ++ "/items") (getOrNone before "items") (getOrNone after "items")
  else .ok []

/-- What is found of two objects is found of their keywords, their properties and their items. -/
theorem diffObjects_ok {recurse : String → PyJson → PyJson → Except PyError (List Finding)}
    {findings : List Finding} :
    diffObjects lib tool pointer before after recurse = .ok findings ↔
      ∃ enum constraints properties items, diffEnum lib tool pointer before after = .ok enum ∧
        diffConstraints lib tool pointer before after = .ok constraints ∧
        nodeProperties lib tool pointer before after recurse = .ok properties ∧
        nodeItems pointer before after recurse = .ok items ∧
        findings = diffType lib tool pointer before after ++ enum ++ constraints ++
          diffDefault lib tool pointer before after ++ properties ++ items := by
  have sequence : diffObjects lib tool pointer before after recurse = (do
      let enum ← diffEnum lib tool pointer before after
      let constraints ← diffConstraints lib tool pointer before after
      let properties ← nodeProperties lib tool pointer before after recurse
      let items ← nodeItems pointer before after recurse
      .ok (diffType lib tool pointer before after ++ enum ++ constraints ++
        diffDefault lib tool pointer before after ++ properties ++ items)) := by
    unfold diffObjects nodeProperties nodeItems
    cases diffEnum lib tool pointer before after with
    | error => rfl
    | ok enum =>
        cases diffConstraints lib tool pointer before after with
        | error => rfl
        | ok constraints =>
            dsimp only [bind, Except.bind]
            split
            · cases diffProperties lib tool pointer before after recurse with
              | error => rfl
              | ok properties =>
                  dsimp only
                  split <;> rfl
            · dsimp only
              split <;> rfl
  rw [sequence]
  constructor
  · intro found
    obtain ⟨enum, enumOk, found⟩ := bind_eq_ok.mp found
    obtain ⟨constraints, constraintsOk, found⟩ := bind_eq_ok.mp found
    obtain ⟨properties, propertiesOk, found⟩ := bind_eq_ok.mp found
    obtain ⟨items, itemsOk, same⟩ := bind_eq_ok.mp found
    cases same
    exact ⟨_, _, _, _, enumOk, constraintsOk, propertiesOk, itemsOk, rfl⟩
  · intro parts
    obtain ⟨enum, constraints, properties, items, enumOk, constraintsOk, propertiesOk, itemsOk,
      rfl⟩ := parts
    rw [enumOk, constraintsOk, propertiesOk, itemsOk]
    rfl

/-- What is found about two schemas is about a place of them, or found within one. -/
theorem diffObjects_atPlace
    {recurse : String → PyJson → PyJson → Except PyError (List Finding)} {findings : List Finding}
    (found : diffObjects lib tool pointer before after recurse = .ok findings)
    (among : finding ∈ findings) : (∃ place, AtPlace lib tool pointer before after place finding) ∨
      ∃ step old new inner, Child before after step old new ∧
        recurse (pointer ++ pathText step.segments) old new = .ok inner ∧ finding ∈ inner := by
  obtain ⟨enum, constraints, properties, items, enumOk, constraintsOk, propertiesOk, itemsOk,
    rfl⟩ := diffObjects_ok.mp found
  simp only [List.mem_append] at among
  obtain ((((type | enumerated) | constraint) | default) | property) | item := among
  · exact Or.inl (diffType_atPlace type)
  · exact Or.inl (diffEnum_atPlace enumOk enumerated)
  · exact Or.inl (diffConstraints_atPlace constraintsOk constraint)
  · exact Or.inl (diffDefault_atPlace default)
  · unfold nodeProperties at propertiesOk
    split at propertiesOk
    · obtain ⟨list, listOk, same⟩ := bind_eq_ok.mp propertiesOk
      cases same
      obtain among | additional := List.mem_append.mp property
      · exact diffProperties_atPlace listOk among
      · exact Or.inl (diffAdditionalProperties_atPlace additional)
    · cases propertiesOk
      exact absurd property List.not_mem_nil
  · unfold nodeItems at itemsOk
    split at itemsOk
    · exact Or.inr ⟨.items, _, _, items, .items, itemsOk, item⟩
    · cases itemsOk
      exact absurd item List.not_mem_nil

/-- What `_diff_properties` finds is found without the schemas of the properties, or within
one. -/
theorem diffProperties_own
    {recurse : String → PyJson → PyJson → Except PyError (List Finding)} {findings : List Finding}
    (found : diffProperties lib tool pointer before after recurse = .ok findings) :
    ∃ own, diffProperties lib tool pointer before after (fun _ _ _ => .ok []) = .ok own ∧
      ∀ finding ∈ findings, finding ∈ own ∨
        ∃ step old new inner, Child before after step old new ∧
          recurse (pointer ++ pathText step.segments) old new = .ok inner ∧ finding ∈ inner := by
  obtain ⟨bProps, old, found⟩ := bind_eq_ok.mp found
  obtain ⟨aProps, new, found⟩ := bind_eq_ok.mp found
  obtain ⟨bRequired, wasRequired, found⟩ := bind_eq_ok.mp found
  obtain ⟨aRequired, isRequired, found⟩ := bind_eq_ok.mp found
  dsimp only at found
  obtain ⟨common, each, same⟩ := bind_eq_ok.mp found
  cases same
  have silent : ∀ names : List String, names.mapM (fun name => (do
      let inner ← (fun _ _ _ => .ok [] : String → PyJson → PyJson → Except PyError (List Finding))
        s!"{pointer}/properties/{name}" (.obj (schemaOf bProps name)) (.obj (schemaOf aProps name))
      .ok (requiredFindings lib tool pointer bRequired aRequired name ++ inner) :
        Except PyError (List Finding))) =
      .ok (names.map fun name => requiredFindings lib tool pointer bRequired aRequired name) := by
    intro names
    rw [mapM_eq_ok, List.forall₂_map_right_iff]
    refine List.forall₂_same.mpr fun name _ => ?_
    exact congrArg Except.ok (List.append_nil _)
  refine ⟨_, bind_eq_ok.mpr ⟨bProps, old, bind_eq_ok.mpr ⟨aProps, new, bind_eq_ok.mpr
    ⟨bRequired, wasRequired, bind_eq_ok.mpr ⟨aRequired, isRequired, bind_eq_ok.mpr
      ⟨_, silent _, rfl⟩⟩⟩⟩⟩, ?_⟩
  intro finding among
  obtain outside | inner := List.mem_append.mp among
  · exact Or.inl (List.mem_append_left _ outside)
  · obtain ⟨list, listed, among⟩ := List.mem_flatten.mp inner
    obtain ⟨name, present, own⟩ := forall₂_exists_left (mapM_eq_ok.mp each) listed
    obtain ⟨within, recursed, same⟩ := bind_eq_ok.mp own
    cases same
    obtain required | among := List.mem_append.mp among
    · exact Or.inl (List.mem_append_right _
        (List.mem_flatten.mpr ⟨_, List.mem_map_of_mem present, required⟩))
    · rw [property_path] at recursed
      obtain ⟨kept, shared⟩ := List.mem_filter.mp present
      exact Or.inr ⟨.property name, _, _, within, .property old new ⟨kept, shared⟩, recursed, among⟩

/-- What is found of properties is their own and what the recursion finds within them. -/
theorem nodeProperties_own
    {recurse : String → PyJson → PyJson → Except PyError (List Finding)} {findings : List Finding}
    (found : nodeProperties lib tool pointer before after recurse = .ok findings) :
    ∃ own, nodeProperties lib tool pointer before after (fun _ _ _ => .ok []) = .ok own ∧
      ∀ finding ∈ findings, finding ∈ own ∨
        ∃ step old new inner, Child before after step old new ∧
          recurse (pointer ++ pathText step.segments) old new = .ok inner ∧ finding ∈ inner := by
  unfold nodeProperties at found ⊢
  split at found
  · next concerned =>
      obtain ⟨list, listOk, same⟩ := bind_eq_ok.mp found
      cases same
      obtain ⟨own, ownOk, sorted⟩ := diffProperties_own listOk
      rw [if_pos concerned, ownOk]
      refine ⟨_, rfl, ?_⟩
      intro finding among
      obtain property | additional := List.mem_append.mp among
      · exact (sorted finding property).imp_left (List.mem_append_left _)
      · exact Or.inl (List.mem_append_right _ additional)
  · next concerned =>
      cases found
      rw [if_neg concerned]
      exact ⟨_, rfl, fun finding among => absurd among List.not_mem_nil⟩

/-- What is found about two schemas is among their own findings, or found within one. -/
theorem diffObjects_own
    {recurse : String → PyJson → PyJson → Except PyError (List Finding)} {findings : List Finding}
    (found : diffObjects lib tool pointer before after recurse = .ok findings)
    (among : finding ∈ findings) :
    (∃ own, ownFindings lib tool pointer before after = .ok own ∧ finding ∈ own) ∨
      ∃ step old new inner, Child before after step old new ∧
        recurse (pointer ++ pathText step.segments) old new = .ok inner ∧ finding ∈ inner := by
  obtain ⟨enum, constraints, properties, items, enumOk, constraintsOk, propertiesOk, itemsOk,
    rfl⟩ := diffObjects_ok.mp found
  obtain ⟨own, ownOk, sorted⟩ := nodeProperties_own propertiesOk
  have silent : nodeItems pointer before after (fun _ _ _ => .ok []) = .ok [] := ite_self _
  have whole := diffObjects_ok.mpr ⟨_, _, _, _, enumOk, constraintsOk, ownOk, silent, rfl⟩
  obtain among | item := List.mem_append.mp among
  · obtain others | property := List.mem_append.mp among
    · exact Or.inl ⟨_, whole, List.mem_append_left _ (List.mem_append_left _ others)⟩
    · refine (sorted finding property).imp_left fun here => ⟨_, whole, ?_⟩
      exact List.mem_append_left _ (List.mem_append_right _ here)
  · unfold nodeItems at itemsOk
    split at itemsOk
    · exact Or.inr ⟨.items, _, _, items, .items, itemsOk, item⟩
    · cases itemsOk
      exact absurd item List.not_mem_nil

/-- What is found about two schemas is one of the own findings about two that steps lead to. -/
theorem diffNode_own (fuel : Nat) :
    ∀ {pointer : String} {before after : PyJson} {findings : List Finding},
      diffNode lib tool fuel pointer before after = .ok findings → finding ∈ findings →
      ∃ steps last next own, Reaches steps before after last next ∧
        ownFindings lib tool (pointer ++ pathText (steps.flatMap Step.segments)) last.members
          next.members = .ok own ∧ finding ∈ own := by
  induction fuel with
  | zero =>
      intro pointer before after findings found among
      cases found
      exact absurd among List.not_mem_nil
  | succ fuel ih =>
      intro pointer before after findings found among
      obtain ⟨own, ownOk, here⟩ | ⟨step, old, new, inner, child, recursed, within⟩ :=
        diffObjects_own found among
      · refine ⟨[], before, after, own, .here _ _, ?_, here⟩
        rw [List.flatMap_nil, pathText, String.append_empty]
        exact ownOk
      · obtain ⟨steps, last, next, own, reached, ownOk, here⟩ := ih recursed within
        refine ⟨step :: steps, last, next, own, .step child reached, ?_, here⟩
        rw [List.flatMap_cons, pathText_append, ← String.append_assoc]
        exact ownOk

/-- An own finding is about a place. -/
theorem ownFindings_atPlace {own : List Finding}
    (found : ownFindings lib tool pointer before after = .ok own) (among : finding ∈ own) :
    ∃ place, AtPlace lib tool pointer before after place finding := by
  obtain here | ⟨step, old, new, inner, -, silent, within⟩ := diffObjects_atPlace found among
  · exact here
  · cases silent
    exact absurd within List.not_mem_nil

/-- Names stay apart in what steps lead to. -/
theorem Child.distinct {step : Step} {old new : PyJson} (child : Child before after step old new)
    (distinct : (Json.obj after).Distinct) : new.Distinct := by
  cases child with
  | property _ new _ => exact schemaOf_distinct (propertySchemas_distinct distinct new) _
  | items => exact getOrNone_distinct distinct _

/-- What is reached repeats no name. -/
theorem Reaches.distinct {steps : List Step} {before after last next : PyJson}
    (reached : Reaches steps before after last next) (distinct : after.Distinct) :
    next.Distinct := by
  induction reached with
  | here => exact distinct
  | step child _ ih => exact ih (child.distinct (members_distinct distinct))

end Own

end Harness.Diff
