import Anviq.Diff.Report

/-! # Where findings point

The path of a finding, read as a JSON pointer into the definitions. The differ joins names as
they are, and a pointer has `/` and `~` escaped; and a type that changed may be nowhere written.
Otherwise a path points at the very part of a definition that its finding is about.
-/

namespace Harness.Diff

/-! ## Schemas without references -/

section Resolve

variable {lib : Stdlib} {root : PyJson} {follow : List String → PyJson → Except PyError PyJson}
  {seen : List String}

/-- A schema without references is resolved already. -/
theorem resolveNode_free {node : PyJson} (free : refsOf node = []) :
    resolveNode lib root follow seen node = .ok node := by
  induction node using Json.induction with
  | arr elements ih =>
      rw [refsOf_arr_eq_nil] at free
      have each : resolveElements lib root follow seen elements = .ok elements :=
        resolveElements_ok.mpr (List.forall₂_same.mpr fun element among =>
          ih element among (free element among))
      rw [resolveNode, each]
      rfl
  | obj members ih =>
      obtain ⟨plain, free⟩ := refsOf_obj_eq_nil.mp free
      have each : resolveMembers lib root follow seen members = .ok members :=
        resolveMembers_ok.mpr (List.forall₂_same.mpr fun member among =>
          ⟨rfl, ih member among (free member among)⟩)
      rw [resolveNode, plain, each]
      rfl
  | _ => rfl

end Resolve

/-- The schema in a member of a definition. -/
def rawSchema (definition : PyDict) (name : SchemaName) : PyJson :=
  orElse (getOrNone definition name.text) (.obj [])

/-- The schemas of a definition hold no references. -/
def ReferenceFree (definition : PyDict) : Prop := ∀ name, refsOf (rawSchema definition name) = []

theorem resolvedSchema_free {lib : Stdlib} {definition : PyDict} (free : ReferenceFree definition)
    (name : SchemaName) :
    resolvedSchema lib definition name.text = .ok (rawSchema definition name) := by
  change resolveLocalRefs lib (rawSchema definition name) = .ok (rawSchema definition name)
  rw [resolveLocalRefs, free name]
  exact resolveNode_free (free name)

/-! ## What steps lead to -/

section Reach

variable {before after inner inner' last next : PyJson} {step : Step} {steps : List Step}

/-- Both definitions take the same steps. -/
theorem Child.swap (child : Child before.members after.members step inner inner') :
    Child after.members before.members step inner' inner := by
  have listed {properties : List (String × PyDict)} {name : String} :
      hasProperty properties name = true ↔ name ∈ properties.map Prod.fst := by
    simp [hasProperty]
  cases child with
  | property old new common =>
      exact .property new old ⟨listed.mp common.2, listed.mpr common.1⟩
  | items => exact .items

theorem Reaches.swap (reached : Reaches steps before after last next) :
    Reaches steps after before next last := by
  induction reached with
  | here before after => exact .here after before
  | step child _ ih => exact .step child.swap ih

theorem schemaOf_mem {properties : List (String × PyDict)} {name : String}
    (present : name ∈ properties.map Prod.fst) : (name, schemaOf properties name) ∈ properties := by
  unfold schemaOf
  cases found : properties.find? fun property => property.1 == name with
  | none =>
      obtain ⟨property, among, rfl⟩ := List.mem_map.mp present
      exact absurd (beq_self_eq_true property.1) (List.find?_eq_none.mp found property among)
  | some property =>
      have named := List.find?_some found
      rw [beq_iff_eq] at named
      rw [← named]
      exact List.mem_of_find?_eq_some found

theorem child?_properties (json : PyJson) :
    json.child? "properties" = json.members.get? "properties" :=
  Json.child?_eq_members ⟨'p', by simp, rfl⟩

theorem child?_items (json : PyJson) : json.child? "items" = json.members.get? "items" :=
  Json.child?_eq_members ⟨'i', by simp, rfl⟩

/-- A step leads to what it is taken to, or to nothing that has members. -/
theorem at?_step (child : Child before.members after.members step inner inner')
    (distinct : before.Distinct) :
    (∀ value, before.at? step.segments = some value → value = inner) ∧
      (inner.members ≠ [] → before.at? step.segments = some inner) := by
  have names := Json.namesPairwise_obj.mp (members_distinct distinct)
  cases child with
  | @property bProps aProps name old new common =>
      obtain ⟨members, held, among⟩ := propertySchemas_found old (schemaOf_mem common.1)
      have inside := Json.namesPairwise_obj.mp (names.2 _ (Json.Members.mem_of_get? held))
      have leads : before.at? (Step.property name).segments =
          some (.obj (schemaOf bProps name)) := by
        rw [Step.segments, Json.at?, child?_properties, held, Option.bind_some, at?_singleton]
        exact Json.Members.get?_of_mem inside.1 among
      exact ⟨fun value found => Option.some.inj (found.symm.trans leads), fun _ => leads⟩
  | items =>
      have leads : before.at? Step.items.segments = before.members.get? "items" := by
        rw [Step.segments, Json.at?, child?_items]
        cases before.members.get? "items" <;> rfl
      rw [leads]
      cases found : before.members.get? "items" with
      | none =>
          have none : getOrNone before.members "items" = .null :=
            congrArg (Option.getD · Json.null) found
          rw [none]
          constructor
          · intro value absent
            cases absent
          · intro given
            exact absurd rfl given
      | some value =>
          have some : getOrNone before.members "items" = value :=
            congrArg (Option.getD · Json.null) found
          rw [some]
          exact ⟨fun other same => (Option.some.inj same).symm, fun _ => rfl⟩

/-- What is within a schema without members has none. -/
theorem Child.members_eq_nil (child : Child before.members after.members step inner inner')
    (empty : before.members = []) : inner.members = [] := by
  rw [empty] at child
  cases child with
  | property old _ common =>
      have none : propertySchemas [] = .ok [] := rfl
      rw [none, Except.ok.injEq] at old
      subst old
      exact absurd common.1 List.not_mem_nil
  | items => rfl

theorem Reaches.members_eq_nil (reached : Reaches steps before after last next)
    (empty : before.members = []) : last.members = [] := by
  induction reached with
  | here => exact empty
  | step child _ ih => exact ih (child.members_eq_nil empty)

/-- Steps lead to a part of the schema, or to nothing that has members. -/
theorem Reaches.at? (reached : Reaches steps before after last next) (distinct : before.Distinct) :
    (∀ value, before.at? (steps.flatMap Step.segments) = some value → value = last) ∧
      (last.members ≠ [] → before.at? (steps.flatMap Step.segments) = some last) := by
  induction reached with
  | here => exact ⟨fun value found => (Option.some.inj found).symm, fun _ => rfl⟩
  | @step step steps before after inner inner' last next child rest ih =>
      obtain ⟨only, leads⟩ := ih (child.swap.distinct (members_distinct distinct))
      rw [List.flatMap_cons, Json.at?_append]
      constructor
      · intro value found
        obtain ⟨reached, first, rest⟩ := Option.bind_eq_some_iff.mp found
        rw [(at?_step child distinct).1 reached first] at rest
        exact only value rest
      · intro given
        have between : inner.members ≠ [] := fun empty => given (rest.members_eq_nil empty)
        rw [(at?_step child distinct).2 between, Option.bind_some]
        exact leads given

end Reach

/-! ## Sites -/

/-- A part of a definition that a finding is about. -/
inductive Site where
  | schema (name : SchemaName) (steps : List Step) (place : Place)
  | hint (name : String)

/-- The names that lead to the part. -/
def Site.names : Site → List String
  | .schema name steps place => name.text :: (steps.flatMap Step.segments ++ place.segments)
  | .hint name => ["annotations", name]

/-- The annotations of a definition. -/
def rawHints (definition : PyDict) : PyJson :=
  orElse (getOrNone definition "annotations") (.obj [])

/-- The differ has the finding of this part of the two definitions: it is among those made where
steps lead, or among those about annotations, and speaks of the part. -/
inductive FoundAt (lib : Stdlib) (tool : String) (before after : PyDict) : Site → Finding → Prop
  | schema {name : SchemaName} {steps : List Step} {place : Place} {last next : PyJson}
      {own : List Finding} {finding : Finding}
      (reached : Reaches steps (rawSchema before name) (rawSchema after name) last next)
      (found : ownFindings lib tool ("/" ++ name.text ++ pathText (steps.flatMap Step.segments))
        last.members next.members = .ok own)
      (among : finding ∈ own) (speaks : SpeaksOf lib last.members next.members finding place) :
      FoundAt lib tool before after (.schema name steps place) finding
  | hint {name : String} {own : List Finding} {finding : Finding}
      (found : diffAnnotations lib tool (getOrNone before "annotations")
        (getOrNone after "annotations") = .ok own)
      (among : finding ∈ own)
      (speaks : SpeaksOfHint lib (rawHints before) (rawHints after) finding name) :
      FoundAt lib tool before after (.hint name) finding

/-- The path of the finding is the pointer to the part, which is in the definition after, or in
the one before if the rule is one for what is gone. -/
def PointsAt (before after : PyDict) (site : Site) (finding : Finding) : Prop :=
  Json.pointerNames finding.path.toList = some site.names ∧
    (((Json.obj after).at? site.names).isSome ∨
      finding.ruleId ∈ removingRules ∧ ((Json.obj before).at? site.names).isSome)

/-- No name on the way holds a `/` or a `~`. -/
def Site.Plain (site : Site) : Prop := ∀ name ∈ site.names, Json.PlainName name

/-- A type that changed is written in one of the two schemas. -/
def Site.Written (before after : PyDict) : Site → Prop
  | .schema name steps place => place.segments = ["type"] → ∃ last next,
      Reaches steps (rawSchema before name) (rawSchema after name) last next ∧
        ((last.members.get? "type").isSome ∨ (next.members.get? "type").isSome)
  | .hint _ => True

section Points

variable {lib : Stdlib} {tool : String} {before after : PyDict} {site other : Site}
  {finding : Finding}

/-! ## Paths as pointers -/

theorem pathText_toList (names : List String) :
    (pathText names).toList = names.flatMap fun name => '/' :: name.toList := by
  induction names with
  | nil => rfl
  | cons name names ih => rw [pathText_cons, ih, List.flatMap_cons, List.cons_append]

theorem distinctItems_subset (items : List PyJson) : distinctItems items ⊆ items := by
  induction items with
  | nil => exact List.Subset.refl _
  | cons item items ih =>
      intro other present
      rcases List.mem_cons.mp present with rfl | later
      · exact List.mem_cons_self
      · exact List.mem_cons_of_mem _ (ih (List.mem_filter.mp later).1)

/-- The keys of annotations that are an object are texts. -/
theorem annotationKeys_text {hints : PyJson} {keys : List PyJson} {name : PyJson} {value : PyJson}
    (read : annotationKeys hints = .ok keys) (given : annotationOf hints name = .ok value) :
    ∀ key ∈ keys, ∃ text, key = .str text := by
  cases hints with
  | obj members =>
      rw [annotationKeys_obj, Except.ok.injEq] at read
      subst read
      intro key present
      obtain ⟨member, -, rfl⟩ := List.mem_map.mp (distinctItems_subset _ present)
      exact ⟨member.1, rfl⟩
  | _ => exact nomatch given

theorem sortedKeys_text {keys sorted : List PyJson} (texts : ∀ key ∈ keys, ∃ text, key = .str text)
    (sorts : sortedKeys keys = .ok sorted) : ∀ key ∈ sorted, ∃ text, key = .str text := by
  unfold sortedKeys at sorts
  split at sorts
  · cases sorts
    exact texts
  · split at sorts
    · cases sorts
      intro key present
      obtain ⟨name, -, rfl⟩ := List.mem_map.mp present
      exact ⟨name, rfl⟩
    · split at sorts
      · cases sorts
        intro key present
        exact texts key ((List.mem_insertionSort _).mp present)
      · cases sorts

/-- A finding about annotations has the path of one of them, and speaks of it. -/
theorem mem_diffAnnotations {findings : List Finding}
    (found : diffAnnotations lib tool (getOrNone before "annotations")
      (getOrNone after "annotations") = .ok findings) (among : finding ∈ findings) :
    ∃ name, finding.path = pathText ["annotations", name] ∧
      SpeaksOfHint lib (rawHints before) (rawHints after) finding name := by
  obtain ⟨beforeKeys, readBefore, found⟩ := bind_eq_ok.mp found
  obtain ⟨afterKeys, readAfter, found⟩ := bind_eq_ok.mp found
  obtain ⟨keys, sorts, found⟩ := bind_eq_ok.mp found
  obtain ⟨lists, each, same⟩ := bind_eq_ok.mp found
  cases same
  obtain ⟨list, listed, among⟩ := List.mem_flatten.mp among
  obtain ⟨key, present, made⟩ := forall₂_exists_left (mapM_eq_ok.mp each) listed
  obtain ⟨b, old, made⟩ := bind_eq_ok.mp made
  obtain ⟨a, new, same⟩ := bind_eq_ok.mp made
  cases same
  have apart := Bool.eq_false_of_not_eq_true (not_of_mem_ite among)
  have texts := annotationKeys_text readBefore old
  have texts' := annotationKeys_text readAfter new
  obtain ⟨name, rfl⟩ : ∃ name, key = .str name := by
    apply sortedKeys_text _ sorts key present
    intro key among
    rcases List.mem_append.mp among with first | second
    · exact texts key first
    · exact texts' key (List.mem_filter.mp second).1
  rw [mem_ite_nil among]
  refine ⟨name, ?_, annotationFinding_speaks old new apart⟩
  rw [(@annotationFinding_about lib tool (.str name) b a).1.path]
  change "/" ++ "annotations" ++ ("/" ++ str lib (.str name)) =
    "/" ++ "annotations" ++ ("/" ++ name ++ "")
  rw [String.append_empty]
  rfl

/-- The path of a finding joins the names of its site. -/
theorem FoundAt.path (foundAt : FoundAt lib tool before after site finding) :
    finding.path = pathText site.names := by
  cases foundAt with
  | schema reached found among speaks =>
      rcases ownFindings_atPlace found among with ⟨place, placed⟩
      obtain rfl := speaks.unique placed.about
      rw [placed.path, Site.names, pathText, pathText_append]
      simp only [String.append_assoc]
  | hint found among speaks =>
      rcases mem_diffAnnotations found among with ⟨name, path, speaks'⟩
      obtain rfl := speaks.unique speaks'
      exact path

/-- The path is read as the names of the site exactly if these are plain. -/
theorem FoundAt.names_iff (foundAt : FoundAt lib tool before after site finding) :
    Json.pointerNames finding.path.toList = some site.names ↔ site.Plain := by
  rw [foundAt.path, Json.pointerNames_eq_some, pathText_toList]
  exact Json.join_eq_pointerText_iff

/-- Parts with plain names have paths of their own. -/
theorem FoundAt.names_eq {finding' : Finding} (foundAt : FoundAt lib tool before after site finding)
    (foundAt' : FoundAt lib tool before after other finding') (plain : site.Plain)
    (plain' : other.Plain) (same : finding.path = finding'.path) : site.names = other.names := by
  have names := foundAt.names_iff.mpr plain
  rw [same, foundAt'.names_iff.mpr plain'] at names
  exact (Option.some.inj names).symm

theorem Site.names_injective (same : site.names = other.names) : site = other := by
  cases site with
  | schema name steps place =>
      cases other with
      | schema name' steps' place' =>
          obtain ⟨named, rest⟩ := List.cons.inj same
          obtain ⟨rfl, rfl⟩ := segments_injective rest
          have schemas : name = name' := by
            cases name <;> cases name' <;> simp_all [SchemaName.text]
          rw [schemas]
      | hint name' =>
          have named := (List.cons.inj same).1
          cases name <;> simp [SchemaName.text] at named
  | hint name =>
      cases other with
      | schema name' steps' place' =>
          have named := (List.cons.inj same).1
          cases name' <;> simp [SchemaName.text] at named
      | hint name' =>
          obtain rfl := (List.cons.inj (List.cons.inj same).2).1
          rfl

/-! ## What the names lead to -/

/-- What is no object but an empty one leads nowhere. -/
theorem truthy_of_child? {json value : PyJson} {name : String}
    (leads : json.child? name = some value) : truthy json = true := by
  cases json with
  | obj members =>
      cases members with
      | nil => exact nomatch leads
      | cons member members => rfl
  | arr elements =>
      cases elements with
      | nil => exact nomatch leads
      | cons element elements => rfl
  | _ => exact nomatch leads

/-- What a name leads to in a definition is there as the differ takes it. -/
theorem orElse_of_at? {definition : PyDict} {name next : String} {names : List String}
    {value : PyJson} (leads : (Json.obj definition).at? (name :: next :: names) = some value) :
    (orElse (getOrNone definition name) (.obj [])).at? (next :: names) = some value := by
  obtain ⟨inner, found, rest⟩ := Option.bind_eq_some_iff.mp leads
  obtain ⟨child, here, -⟩ := Option.bind_eq_some_iff.mp rest
  have held : getOrNone definition name = inner := congrArg (Option.getD · Json.null) found
  rw [held, orElse, if_pos (truthy_of_child? here)]
  exact rest

/-- What the differ takes from a definition is there if it has members. -/
theorem get?_of_orElse {definition : PyDict} {name : String}
    (given : (orElse (getOrNone definition name) (.obj [])).members ≠ []) :
    definition.get? name = some (orElse (getOrNone definition name) (.obj [])) := by
  unfold orElse at given ⊢
  split at given
  · next isTruthy =>
      rw [if_pos isTruthy]
      cases found : definition.get? name with
      | none =>
          have none : getOrNone definition name = .null := congrArg (Option.getD · Json.null) found
          rw [none] at given
          exact absurd rfl given
      | some value =>
          have held : getOrNone definition name = value := congrArg (Option.getD · Json.null) found
          rw [held]
  · exact absurd rfl given

/-- A place is looked for among members. -/
theorem at?_place (json : PyJson) (place : Place) :
    json.at? place.segments = (Json.obj json.members).at? place.segments := by
  cases place with
  | property name =>
      rw [Place.segments, Json.at?, Json.at?, child?_properties, child?_properties]
      rfl
  | keyword name reported =>
      have named : ∃ char ∈ name.toList, char.isDigit = false := by
        revert name
        simp [reportedKeywords]
      rw [Place.segments, Json.at?, Json.at?, Json.child?_eq_members named,
        Json.child?_eq_members named]
      rfl

theorem Place.segments_eq_cons (place : Place) : ∃ name names, place.segments = name :: names := by
  cases place <;> exact ⟨_, _, rfl⟩

theorem rawSchema_distinct {definition : PyDict} (distinct : (Json.obj definition).Distinct)
    (name : SchemaName) : (rawSchema definition name).Distinct :=
  orElse_distinct (getOrNone_distinct distinct _) empty_distinct

/-- A part of a schema is in the definition exactly if it is in what steps lead to. -/
theorem Reaches.at?_site {name : SchemaName} {steps : List Step} {last next : PyJson}
    (reached : Reaches steps (rawSchema before name) (rawSchema after name) last next)
    (distinct : (Json.obj before).Distinct) (place : Place) :
    ((Json.obj before).at? (Site.schema name steps place).names).isSome ↔
      ((Json.obj last.members).at? place.segments).isSome := by
  obtain ⟨only, leads⟩ := reached.at? (rawSchema_distinct distinct name)
  rw [← at?_place, Site.names]
  constructor
  · intro found
    obtain ⟨value, found⟩ := Option.isSome_iff_exists.mp found
    have raw : (rawSchema before name).at? (steps.flatMap Step.segments ++ place.segments) =
        some value := by
      obtain ⟨first, rest, ends⟩ := place.segments_eq_cons
      cases front : steps.flatMap Step.segments with
      | nil =>
          rw [front, ends] at found
          rw [ends]
          exact orElse_of_at? found
      | cons name' names =>
          rw [front] at found
          exact orElse_of_at? found
    rw [Json.at?_append] at raw
    obtain ⟨inner, first, rest⟩ := Option.bind_eq_some_iff.mp raw
    rw [only inner first] at rest
    rw [rest]
    rfl
  · intro found
    have given : last.members ≠ [] := by
      intro empty
      obtain ⟨first, rest, ends⟩ := place.segments_eq_cons
      rw [at?_place, empty, ends] at found
      exact nomatch found
    have raw : (rawSchema before name).members ≠ [] :=
      fun empty => given (reached.members_eq_nil empty)
    have held : (Json.obj before).child? name.text = some (rawSchema before name) :=
      get?_of_orElse raw
    rw [Json.at?, held, Option.bind_some, Json.at?_append, leads given, Option.bind_some]
    exact found

/-- An annotation that changed is in the definition after, or it is gone and was in the one
before. -/
theorem SpeaksOfHint.resolves {name : String}
    (speaks : SpeaksOfHint lib (rawHints before) (rawHints after) finding name) :
    ((Json.obj after).at? ["annotations", name]).isSome ∨
      finding.ruleId ∈ removingRules ∧
        ((Json.obj before).at? ["annotations", name]).isSome := by
  have found {definition : PyDict} {value : PyJson}
      (read : annotationOf (rawHints definition) (.str name) = .ok value) (given : value ≠ .null) :
      ((Json.obj definition).at? ["annotations", name]).isSome := by
    cases hints : rawHints definition with
    | obj members =>
        rw [hints] at read
        have held : getOrNone members name = value := Except.ok.inj read
        have isSome : (Json.Members.get? members name).isSome := by
          apply get?_of_getOrNone
          rw [held]
          exact given
        have there : (rawHints definition).members ≠ [] := by
          rw [hints]
          rintro rfl
          exact Bool.false_ne_true isSome
        have leads : (Json.obj definition).child? "annotations" = some (rawHints definition) :=
          get?_of_orElse there
        rw [Json.at?, leads, Option.bind_some, hints, at?_singleton]
        exact isSome
    | _ =>
        rw [hints] at read
        cases read
  have apart := speaks.apart
  by_cases gone : finding.after = .null
  · refine Or.inr ⟨by simp [speaks.rule, removingRules], found speaks.old ?_⟩
    intro none
    rw [gone, none] at apart
    exact Bool.false_ne_true apart.symm
  · exact Or.inl (found speaks.new gone)

/-- The type of a schema is in one of the two definitions exactly if it is written there. -/
theorem Reaches.type_iff {name : SchemaName} {steps : List Step} {place : Place}
    {last next : PyJson}
    (reached : Reaches steps (rawSchema before name) (rawSchema after name) last next)
    (distinct : (Json.obj before).Distinct) (distinct' : (Json.obj after).Distinct)
    (isType : place.segments = ["type"]) :
    (((Json.obj after).at? (Site.schema name steps place).names).isSome ∨
        ((Json.obj before).at? (Site.schema name steps place).names).isSome) ↔
      (last.members.get? "type").isSome ∨ (next.members.get? "type").isSome := by
  rw [reached.at?_site distinct, reached.swap.at?_site distinct', isType, at?_singleton,
    at?_singleton]
  exact or_comm

/-- **A path points at the change** exactly if no name on the way holds a `/` or a `~`, and a type
that changed is written. -/
theorem FoundAt.pointsAt_iff (foundAt : FoundAt lib tool before after site finding)
    (distinct : (Json.obj before).Distinct) (distinct' : (Json.obj after).Distinct) :
    PointsAt before after site finding ↔ site.Plain ∧ site.Written before after := by
  rw [PointsAt, foundAt.names_iff]
  apply and_congr_right
  intro _
  cases foundAt with
  | @schema name steps place last next own finding reached found among speaks =>
      rw [Site.Written]
      by_cases isType : place.segments = ["type"]
      · have rule : finding.ruleId ∈ removingRules := by
          rw [speaks.typeChanged isType]
          decide
        constructor
        · intro resolves _
          exact ⟨last, next, reached, (reached.type_iff distinct distinct' isType).mp
            (resolves.imp_right And.right)⟩
        · intro written
          obtain ⟨last', next', reached', typed⟩ := written isType
          exact ((reached'.type_iff distinct distinct' isType).mpr typed).imp_right
            fun there => ⟨rule, there⟩
      · refine iff_of_true ?_ fun isType' => absurd isType' isType
        rw [reached.at?_site distinct, reached.swap.at?_site distinct']
        exact speaks.resolves isType
  | hint found among speaks => exact iff_of_true speaks.resolves trivial

/-! ## Every finding is about a part -/

/-- A finding about schemas is about a part of them. -/
theorem diffSchemas_foundAt (name : SchemaName) {findings : List Finding}
    (free : ReferenceFree before) (free' : ReferenceFree after)
    (found : diffSchemas lib tool name.text before after = .ok findings)
    (among : finding ∈ findings) : ∃ site, FoundAt lib tool before after site finding := by
  obtain ⟨old, oldSchema, found⟩ := bind_eq_ok.mp found
  obtain ⟨new, newSchema, found⟩ := bind_eq_ok.mp found
  rw [resolvedSchema_free free, Except.ok.injEq] at oldSchema
  rw [resolvedSchema_free free', Except.ok.injEq] at newSchema
  subst oldSchema newSchema
  obtain ⟨steps, last, next, own, reached, ownOk, here⟩ := diffNode_own _ found among
  obtain ⟨place, placed⟩ := ownFindings_atPlace ownOk here
  exact ⟨.schema name steps place, .schema reached ownOk here placed.about⟩

/-- A finding about annotations is about one of them. -/
theorem diffAnnotations_foundAt {findings : List Finding}
    (found : diffAnnotations lib tool (getOrNone before "annotations")
      (getOrNone after "annotations") = .ok findings) (among : finding ∈ findings) :
    ∃ site, FoundAt lib tool before after site finding := by
  rcases mem_diffAnnotations found among with ⟨name, -, speaks⟩
  exact ⟨.hint name, .hint found among speaks⟩

/-- Every finding of `diff_tool` is about a part of the definitions. -/
theorem diffTool_foundAt {findings : List Finding} (free : ReferenceFree before)
    (free' : ReferenceFree after) (found : diffTool lib tool before after = .ok findings)
    (among : finding ∈ findings) : ∃ site, FoundAt lib tool before after site finding := by
  obtain ⟨name, own, ownOk, here⟩ | ⟨own, ownOk, here⟩ := mem_diffTool found among
  · exact diffSchemas_foundAt name free free' ownOk here
  · exact diffAnnotations_foundAt ownOk here

end Points

/-- **Findings point at the change** exactly where paths need no escaping and a type that changed
is written; every finding of `diff_tool` is about a part of the definitions, and different parts
whose names need no escaping have different paths. -/
theorem diffTool_pointsAt_iff (lib : Stdlib) (tool : String) (before after : PyDict)
    (distinct : (Json.obj before).Distinct) (distinct' : (Json.obj after).Distinct)
    (free : ReferenceFree before) (free' : ReferenceFree after) {findings : List Finding}
    (found : diffTool lib tool before after = .ok findings) :
    (∀ finding ∈ findings, ∃ site, FoundAt lib tool before after site finding) ∧
      (∀ site finding, FoundAt lib tool before after site finding →
        (PointsAt before after site finding ↔ site.Plain ∧ site.Written before after)) ∧
      ∀ site finding site' finding', FoundAt lib tool before after site finding →
        FoundAt lib tool before after site' finding' → site.Plain → site'.Plain → site ≠ site' →
          finding.path ≠ finding'.path := by
  refine ⟨?_, ?_, ?_⟩
  · intro finding among
    exact diffTool_foundAt free free' found among
  · intro site finding foundAt
    exact foundAt.pointsAt_iff distinct distinct'
  · intro site finding site' finding' foundAt foundAt' plain plain' apart same
    exact apart (Site.names_injective (foundAt.names_eq foundAt' plain plain' same))

/-- A tool whose input has a limit, with a default. -/
def limitTool (limit : Int) : PyDict :=
  [("name", .str "t"),
    ("inputSchema", .obj [("properties", .obj [
      ("limit", .obj [("type", .str "integer"), ("default", .num (.int limit))])])])]

/-- The default of the limit. -/
def limitDefault : Site :=
  .schema .inputSchema [.property "limit"] (.keyword "default" (by decide))

/-- The finding about another default. -/
def limitFinding : Finding where
  severity := .warn
  ruleId := "DEFAULT_CHANGED"
  path := "/inputSchema/properties/limit/default"
  message := "default changed from 10 to 20"
  tool := some "t"
  before := .num (.int 10)
  after := .num (.int 20)

/-- A new default is reported at `default`, which no pointer to another keyword is. -/
theorem diffTool_pointsAt_default :
    diffTool plainLib "t" (limitTool 10) (limitTool 20) = .ok [limitFinding] ∧
      PointsAt (limitTool 10) (limitTool 20) limitDefault limitFinding ∧
      ¬ PointsAt (limitTool 10) (limitTool 20)
        (.schema .inputSchema [.property "limit"] (.keyword "type" (by decide))) limitFinding := by
  have distinct : ∀ limit, limit = 10 ∨ limit = 20 → (Json.obj (limitTool limit)).Distinct := by
    rintro limit (rfl | rfl) <;> decide +kernel
  have free : ∀ limit, limit = 10 ∨ limit = 20 → ReferenceFree (limitTool limit) := by
    rintro limit (rfl | rfl) name <;> cases name <;> decide +kernel
  have found : diffTool plainLib "t" (limitTool 10) (limitTool 20) = .ok [limitFinding] :=
    toOption_eq_some.mp (by decide +kernel)
  have reached : Reaches [.property "limit"] (rawSchema (limitTool 10) .inputSchema)
      (rawSchema (limitTool 20) .inputSchema) _ _ :=
    .step (.property rfl rfl ⟨List.mem_cons_self, rfl⟩) (.here _ _)
  have foundAt : FoundAt plainLib "t" (limitTool 10) (limitTool 20) limitDefault limitFinding := by
    refine .schema reached (toOption_eq_some.mp (show _ = some [limitFinding] by decide +kernel))
      (List.mem_singleton_self _) ⟨.defaultChanged, rfl, .defaultChanged (.inl rfl) ?_ rfl rfl⟩
    intro b a old new
    cases old
    cases new
    rfl
  have points := (diffTool_pointsAt_iff plainLib "t" _ _ (distinct 10 (.inl rfl))
    (distinct 20 (.inr rfl)) (free 10 (.inl rfl)) (free 20 (.inr rfl)) found).2.1 _ _ foundAt
  refine ⟨found, points.mpr ⟨?_, ?_⟩, ?_⟩
  · unfold Site.Plain Json.PlainName
    decide +kernel
  · exact fun isType => absurd isType (by decide)
  · intro elsewhere
    exact absurd elsewhere.1 (by decide +kernel)

/-- A tool whose input has no properties. -/
def bareTool : PyDict := [("name", .str "t"), ("inputSchema", .obj [("properties", .obj [])])]

/-- A tool whose input has the property `a/b`. -/
def slashTool : PyDict :=
  [("name", .str "t"),
    ("inputSchema", .obj [("properties", .obj [("a/b", .obj [("type", .str "string")])])])]

theorem bareTool_distinct : (Json.obj bareTool).Distinct := by decide +kernel

theorem slashTool_distinct : (Json.obj slashTool).Distinct := by decide +kernel

theorem bareTool_free : ReferenceFree bareTool := by
  intro name
  cases name <;> decide +kernel

theorem slashTool_free : ReferenceFree slashTool := by
  intro name
  cases name <;> decide +kernel

/-- The path of the property that was added. -/
theorem diffTool_slash : ∃ finding, diffTool plainLib "t" bareTool slashTool = .ok [finding] ∧
    finding.path = "/inputSchema/properties/a/b" := by
  have paths : (match diffTool plainLib "t" bareTool slashTool with
      | .ok findings => findings.map Finding.path
      | _ => []) = ["/inputSchema/properties/a/b"] := by
    decide +kernel
  split at paths
  · next findings found =>
      obtain ⟨finding, rfl, path⟩ := List.map_eq_singleton_iff.mp paths
      exact ⟨finding, found, path⟩
  · exact nomatch paths

/-- The path of the property `a/b` is read as that of the property `b` of something else. -/
theorem diffTool_pointsAt_slash :
    ¬ ∀ (lib : Stdlib) (tool : String) (before after : PyDict), (Json.obj before).Distinct →
      (Json.obj after).Distinct → ReferenceFree before → ReferenceFree after →
      ∀ findings, diffTool lib tool before after = .ok findings → ∀ finding ∈ findings, ∃ site,
        FoundAt lib tool before after site finding ∧ PointsAt before after site finding := by
  intro points
  obtain ⟨finding, found, path⟩ := diffTool_slash
  obtain ⟨site, -, names, leads⟩ := points plainLib "t" bareTool slashTool bareTool_distinct
    slashTool_distinct bareTool_free slashTool_free _ found finding (List.mem_singleton_self _)
  have read : Json.pointerNames finding.path.toList =
      some ["inputSchema", "properties", "a", "b"] := by
    rw [path]
    decide +kernel
  rw [← Option.some.inj (read.symm.trans names)] at leads
  have nowhere : ¬ (((Json.obj slashTool).at? ["inputSchema", "properties", "a", "b"]).isSome ∨
      ((Json.obj bareTool).at? ["inputSchema", "properties", "a", "b"]).isSome) := by
    decide +kernel
  exact nowhere (leads.imp_right And.right)

end Harness.Diff
