import Anviq.Proxy.Canonical

/-! # The schema cache

`schemacache.Cache` compiles an input schema once per definition hash. The
compiler under it refuses a resource it already has, and it keeps the resource
of a schema that did not compile; so the first schema seen with a hash decides
what every later call with that hash is answered
(`Proxy.Cache.compiled_transparent_iff`).
-/

namespace Proxy

/-- The compiler of JSON schemas: whether a document compiles, and which arguments
the schema it compiles to accepts. -/
structure Compiler (Schema : Type) where
  compile : Json.Members Number → Except String Schema
  accepts : Schema → GoJson → Bool

variable {Schema : Type}

/-- Two compilations that end alike: both fail, or both give a schema and the
schemas accept the same arguments. -/
def Compiler.Alike (compiler : Compiler Schema) :
    Except String Schema → Except String Schema → Prop
  | .ok left, .ok right =>
      ∀ arguments, compiler.accepts left arguments = compiler.accepts right arguments
  | .error _, .error _ => True
  | _, _ => False

/-- `Cache`: the resources added to the compiler, and the schemas by their hash. -/
structure Cache (Schema : Type) where
  resources : List String := []
  schemas : List (String × Schema) := []

/-- The address of the resource of a hash. -/
def resourceUrl (defHash : String) : String := "mem://tool-schema/" ++ defHash

theorem resourceUrl_inj {left right : String} :
    resourceUrl left = resourceUrl right ↔ left = right := by
  constructor
  · intro same
    have texts : "mem://tool-schema/".toList ++ left.toList =
        "mem://tool-schema/".toList ++ right.toList := by
      rw [← String.toList_append, ← String.toList_append]
      exact congrArg String.toList same
    exact String.ext (List.append_cancel_left texts)
  · exact congrArg resourceUrl

/-- A definition with an input schema, as `observeTool` hands it to the cache. -/
structure SchemaCall (env : Env) where
  tool : Tool
  defHash : String
  inputSchema : Json.Members Number
  hashed : env.toolHash tool = .ok defHash
  schema : tool.get? "inputSchema" = some (.obj inputSchema)

namespace Cache

section Compiled

variable (compiler : Compiler Schema)

/-- `Compiled` returns the compiled schema of a hash, compiling it on first use. -/
def compiled (cache : Cache Schema) (defHash : String) (inputSchema : Json.Members Number) :
    Cache Schema × Except String Schema :=
  match cache.schemas.lookup defHash with
  | some schema => (cache, .ok schema)
  | none =>
      let url := resourceUrl defHash
      if url ∈ cache.resources then
        (cache, .error ("schemacache: AddResource " ++ defHash ++ ": resource " ++ url ++
          " already exists"))
      else
        let added := { cache with resources := url :: cache.resources }
        match compiler.compile inputSchema with
        | .error error => (added, .error ("schemacache: Compile " ++ defHash ++ ": " ++ error))
        | .ok schema => ({ added with schemas := (defHash, schema) :: cache.schemas }, .ok schema)

variable {env : Env}

/-- The cache after some calls. -/
def after (calls : List (SchemaCall env)) : Cache Schema :=
  calls.foldl (fun cache call => (cache.compiled compiler call.defHash call.inputSchema).1) {}

/-- What a call after some others returns. -/
def answer (before : List (SchemaCall env)) (call : SchemaCall env) : Except String Schema :=
  ((after compiler before).compiled compiler call.defHash call.inputSchema).2

/-- Every call is answered as a cache of its own would answer it. -/
def Transparent (calls : List (SchemaCall env)) : Prop :=
  ∀ before call rest, calls = before ++ call :: rest →
    compiler.Alike (answer compiler before call) (answer compiler [] call)

end Compiled

end Cache

/-! ## Alike -/

namespace Compiler.Alike

variable {compiler : Compiler Schema} {first second third : Except String Schema}

theorem refl (result : Except String Schema) : compiler.Alike result result := by
  cases result with
  | error error => trivial
  | ok schema => exact fun _ => rfl

theorem symm (alike : compiler.Alike first second) : compiler.Alike second first := by
  cases first with
  | error error => cases second <;> exact alike
  | ok left =>
      cases second with
      | error error => exact alike
      | ok right => exact fun arguments => (alike arguments).symm

theorem trans (alike : compiler.Alike first second) (alike' : compiler.Alike second third) :
    compiler.Alike first third := by
  cases second with
  | error error =>
      cases first with
      | error error => cases third <;> exact alike'
      | ok left => exact alike.elim
  | ok middle =>
      cases first with
      | error error => exact alike.elim
      | ok left =>
          cases third with
          | error error => exact alike'
          | ok right => exact fun arguments => (alike arguments).trans (alike' arguments)

/-- Only the schema counts, not what an error says. -/
theorem of_toOption (same : first.toOption = second.toOption) : compiler.Alike first second := by
  cases first <;> cases second <;> simp_all [Except.toOption, Compiler.Alike]

end Compiler.Alike

/-! ## What the cache remembers -/

namespace Cache

variable (compiler : Compiler Schema) {env : Env}

/-- What the first schema seen with a hash compiles to. -/
def firstCompiled (calls : List (SchemaCall env)) (defHash : String) : Option Schema :=
  (calls.find? fun call => call.defHash = defHash).bind
    fun call => (compiler.compile call.inputSchema).toOption

/-- The cache holds what the first schema of every hash compiled to, and a resource
for every hash it has seen. -/
structure Remembers (cache : Cache Schema) (calls : List (SchemaCall env)) : Prop where
  schemas : ∀ defHash, cache.schemas.lookup defHash = firstCompiled compiler calls defHash
  resources : ∀ defHash,
    resourceUrl defHash ∈ cache.resources ↔ ∃ call ∈ calls, call.defHash = defHash

theorem find?_concat (calls : List (SchemaCall env)) (call : SchemaCall env) (defHash : String) :
    (calls ++ [call]).find? (fun call => call.defHash = defHash) =
      (calls.find? fun call => call.defHash = defHash).or
        (if call.defHash = defHash then some call else none) := by
  rw [List.find?_append]
  by_cases same : call.defHash = defHash <;> simp [same]

theorem firstCompiled_concat_of_ne {calls : List (SchemaCall env)} {call : SchemaCall env}
    {defHash : String} (other : call.defHash ≠ defHash) :
    firstCompiled compiler (calls ++ [call]) defHash = firstCompiled compiler calls defHash := by
  rw [firstCompiled, find?_concat, if_neg other, Option.or_none, firstCompiled]

/-- A hash seen before keeps its answer. -/
theorem firstCompiled_concat_of_mem {calls : List (SchemaCall env)} {call seen : SchemaCall env}
    (known : seen ∈ calls) :
    firstCompiled compiler (calls ++ [call]) seen.defHash =
      firstCompiled compiler calls seen.defHash := by
  have found : (calls.find? fun call => call.defHash = seen.defHash).isSome := by
    rw [List.find?_isSome]
    exact ⟨seen, known, by simp⟩
  obtain ⟨first, found⟩ := Option.isSome_iff_exists.mp found
  rw [firstCompiled, find?_concat, found, Option.some_or, firstCompiled, found]

/-- The first schema of a hash answers for it. -/
theorem firstCompiled_concat_of_fresh {calls : List (SchemaCall env)} {call : SchemaCall env}
    (fresh : ¬ ∃ seen ∈ calls, seen.defHash = call.defHash) :
    firstCompiled compiler (calls ++ [call]) call.defHash =
      (compiler.compile call.inputSchema).toOption := by
  have absent : calls.find? (fun seen => seen.defHash = call.defHash) = none := by
    rw [List.find?_eq_none]
    intro seen present
    simpa using fun same => fresh ⟨seen, present, same⟩
  rw [firstCompiled, find?_concat, absent, Option.none_or, if_pos rfl, Option.bind_some]

/-- A call is answered with what the first schema of its hash compiled to, and the
cache remembers the call. -/
theorem Remembers.compiled {cache : Cache Schema} {calls : List (SchemaCall env)}
    (remembers : cache.Remembers compiler calls) (call : SchemaCall env) :
    (cache.compiled compiler call.defHash call.inputSchema).1.Remembers compiler (calls ++ [call]) ∧
      (cache.compiled compiler call.defHash call.inputSchema).2.toOption =
        firstCompiled compiler (calls ++ [call]) call.defHash := by
  have known : ∀ defHash, (∃ seen ∈ calls ++ [call], seen.defHash = defHash) ↔
      (∃ seen ∈ calls, seen.defHash = defHash) ∨ call.defHash = defHash := by
    intro defHash
    simp only [List.mem_append, List.mem_singleton, or_and_right, exists_or, exists_eq_left]
  by_cases seen : ∃ seen ∈ calls, seen.defHash = call.defHash
  · obtain ⟨first, present, same⟩ := seen
    have kept (defHash : String) : firstCompiled compiler (calls ++ [call]) defHash =
        firstCompiled compiler calls defHash := by
      by_cases other : call.defHash = defHash
      · rw [← other, ← same]
        exact firstCompiled_concat_of_mem compiler present
      · exact firstCompiled_concat_of_ne compiler other
    have unchanged : cache.Remembers compiler (calls ++ [call]) := by
      refine ⟨fun defHash => (remembers.schemas defHash).trans (kept defHash).symm, ?_⟩
      intro defHash
      rw [remembers.resources, known]
      constructor
      · exact Or.inl
      · rintro (earlier | rfl)
        · exact earlier
        · exact ⟨first, present, same⟩
    unfold Cache.compiled
    rw [remembers.schemas, ← kept call.defHash]
    cases found : firstCompiled compiler (calls ++ [call]) call.defHash with
    | some schema => exact ⟨unchanged, rfl⟩
    | none =>
        have added := (remembers.resources call.defHash).mpr ⟨first, present, same⟩
        simp only [added, ↓reduceIte]
        exact ⟨unchanged, rfl⟩
  · have absent : firstCompiled compiler calls call.defHash = none := by
      rw [firstCompiled, List.find?_eq_none.mpr, Option.bind_none]
      intro earlier present
      simpa using fun same => seen ⟨earlier, present, same⟩
    have unadded : resourceUrl call.defHash ∉ cache.resources :=
      fun added => seen ((remembers.resources _).mp added)
    have resources (defHash : String) :
        resourceUrl defHash ∈ resourceUrl call.defHash :: cache.resources ↔
          ∃ seen ∈ calls ++ [call], seen.defHash = defHash := by
      rw [List.mem_cons, remembers.resources, known, resourceUrl_inj, eq_comm, or_comm]
    have answered := firstCompiled_concat_of_fresh compiler seen
    unfold Cache.compiled
    rw [remembers.schemas, absent]
    simp only [unadded, ↓reduceIte]
    cases compilation : compiler.compile call.inputSchema with
    | error error =>
        rw [compilation] at answered
        refine ⟨⟨?_, resources⟩, answered.symm⟩
        intro defHash
        by_cases other : call.defHash = defHash
        · rw [← other, answered, remembers.schemas, absent]
          rfl
        · rw [firstCompiled_concat_of_ne compiler other]
          exact remembers.schemas defHash
    | ok schema =>
        rw [compilation] at answered
        refine ⟨⟨?_, resources⟩, answered.symm⟩
        intro defHash
        by_cases other : call.defHash = defHash
        · rw [← other, answered, List.lookup_cons_self]
          rfl
        · rw [firstCompiled_concat_of_ne compiler other, List.lookup_cons,
            (by simpa using fun same => other same.symm : (defHash == call.defHash) = false)]
          exact remembers.schemas defHash

/-- After any calls the cache remembers them. -/
theorem remembers_after (calls : List (SchemaCall env)) :
    (after compiler calls).Remembers compiler calls := by
  induction calls using List.reverseRecOn with
  | nil =>
      refine ⟨fun _ => rfl, ?_⟩
      intro defHash
      simp [after]
  | append_singleton calls call ih =>
      rw [after, List.foldl_append, List.foldl_cons, List.foldl_nil]
      exact (ih.compiled compiler call).1

/-- A call is answered with what the first schema of its hash compiled to. -/
theorem answer_toOption (before : List (SchemaCall env)) (call : SchemaCall env) :
    (answer compiler before call).toOption =
      firstCompiled compiler (before ++ [call]) call.defHash :=
  ((remembers_after compiler before).compiled compiler call).2

/-- A cache of its own answers a call with what its schema compiles to. -/
theorem answer_nil (call : SchemaCall env) :
    compiler.Alike (answer compiler [] call) (compiler.compile call.inputSchema) := by
  apply Compiler.Alike.of_toOption
  rw [answer_toOption, firstCompiled_concat_of_fresh]
  simp

/-- A call whose hash an earlier one had first is answered as that one. -/
theorem answer_of_first {before : List (SchemaCall env)} {call first : SchemaCall env}
    (found : before.find? (fun seen => seen.defHash = call.defHash) = some first) :
    compiler.Alike (answer compiler before call) (compiler.compile first.inputSchema) := by
  apply Compiler.Alike.of_toOption
  rw [answer_toOption, firstCompiled, find?_concat, found]
  rfl

/-- Once a hash has compiled, every call with it gets a schema. -/
theorem answer_ok {before rest : List (SchemaCall env)} {earlier call : SchemaCall env}
    {schema : Schema} (same : earlier.defHash = call.defHash)
    (answered : answer compiler before earlier = .ok schema) :
    answer compiler (before ++ earlier :: rest) call = .ok schema := by
  have first := answer_toOption compiler before earlier
  have again := answer_toOption compiler (before ++ earlier :: rest) call
  have kept (more : List (SchemaCall env)) :
      firstCompiled compiler ((before ++ [earlier]) ++ more) earlier.defHash =
        firstCompiled compiler (before ++ [earlier]) earlier.defHash := by
    have present : earlier ∈ before ++ [earlier] := by simp
    induction more using List.reverseRecOn with
    | nil => rw [List.append_nil]
    | append_singleton more call ih =>
        rw [← List.append_assoc, firstCompiled_concat_of_mem compiler
          (List.mem_append_left more present), ih]
  rw [← same, show before ++ earlier :: rest ++ [call] = (before ++ [earlier]) ++ (rest ++ [call]) by
    simp, kept, ← first, answered] at again
  cases result : answer compiler (before ++ earlier :: rest) call with
  | error error =>
      rw [result] at again
      exact absurd again (by simp [Except.toOption])
  | ok other =>
      rw [result] at again
      exact congrArg _ (Option.some.inj again)

/-- **The cache is transparent where hashes tell schemas apart.** Every call is
answered as by a cache of its own exactly if all the schemas that come with one
hash compile alike. -/
theorem compiled_transparent_iff (calls : List (SchemaCall env)) :
    Transparent compiler calls ↔
      ∀ first ∈ calls, ∀ second ∈ calls, first.defHash = second.defHash →
        compiler.Alike (compiler.compile first.inputSchema) (compiler.compile second.inputSchema) := by
  constructor
  · intro transparent
    have leader : ∀ call ∈ calls, ∀ lead,
        calls.find? (fun seen => seen.defHash = call.defHash) = some lead →
        compiler.Alike (compiler.compile call.inputSchema) (compiler.compile lead.inputSchema) := by
      intro call present lead found
      obtain ⟨before, rest, split⟩ := List.append_of_mem present
      have answered := (transparent before call rest split).trans (answer_nil compiler call)
      rw [split, List.find?_append] at found
      cases earlier : before.find? (fun seen => seen.defHash = call.defHash) with
      | none =>
          rw [earlier, Option.none_or, List.find?_cons_of_pos (by simp)] at found
          rw [Option.some.inj found]
          exact .refl _
      | some first =>
          rw [earlier, Option.some_or] at found
          obtain rfl := Option.some.inj found
          exact answered.symm.trans (answer_of_first compiler earlier)
    intro first firstPresent second secondPresent same
    have known : (calls.find? fun seen => seen.defHash = second.defHash).isSome := by
      rw [List.find?_isSome]
      exact ⟨second, secondPresent, by simp⟩
    obtain ⟨lead, found⟩ := Option.isSome_iff_exists.mp known
    exact (leader first firstPresent lead (same ▸ found)).trans
      (leader second secondPresent lead found).symm
  · intro alike before call rest split
    have present : call ∈ calls := by simp [split]
    refine .trans ?_ (answer_nil compiler call).symm
    cases earlier : before.find? (fun seen => seen.defHash = call.defHash) with
    | none =>
        apply Compiler.Alike.of_toOption
        rw [answer_toOption, firstCompiled, find?_concat, earlier, Option.none_or, if_pos rfl,
          Option.bind_some]
    | some first =>
        have firstPresent : first ∈ calls := by
          rw [split]
          exact List.mem_append_left _ (List.mem_of_find?_eq_some earlier)
        have same : first.defHash = call.defHash := by
          simpa using List.find?_some earlier
        exact (answer_of_first compiler earlier).trans (alike first firstPresent call present same)

/-! A schema that names a required argument twice is not valid, and normalising it
makes it the corrected one. -/

/-- A tool whose input schema requires some names. -/
def requiring (names : List String) : Tool :=
  [("name", .str "read"),
    ("inputSchema", .obj [("type", .str "object"), ("required", .arr (names.map .str))])]

/-- A compiler that knows `required`: its names are different, and arguments have
them all. -/
def requiredCompiler : Compiler (List String) where
  compile := fun schema =>
    let names := match schema.get? "required" with
      | some (.arr names) => names.filterMap fun
          | .str name => some name
          | _ => none
      | _ => []
    if names.Nodup then .ok names else .error "at '/required': items at 0 and 1 are equal"
  accepts := fun names arguments => names.all fun name => (arguments.members.get? name).isSome

/-- Surroundings whose hash of a value is its text. -/
def textEnv : Env := ⟨fun value => .ok ("sha256:" ++ marshal value), fun _ => ""⟩

/-- Repeated names are hashed as the same names once. -/
theorem requiring_normalized :
    normalizeTool (requiring ["path", "path"]) = normalizeTool (requiring ["path"]) := by decide

/-- A definition that requires some names, handed to the cache. -/
def requiringCall (names : List String)
    (normalized : normalizeTool (requiring names) = normalizeTool (requiring ["path"])) :
    SchemaCall textEnv where
  tool := requiring names
  defHash := "sha256:" ++ marshal (.obj (normalizeTool (requiring ["path"])))
  inputSchema := [("type", .str "object"), ("required", .arr (names.map .str))]
  hashed := by rw [Env.toolHash, normalized, textEnv]
  schema := rfl

/-- The corrected schema compiles by itself, and not after the one it corrects. -/
theorem compiled_transparent_repeated :
    ¬ Transparent requiredCompiler
      [requiringCall ["path", "path"] requiring_normalized, requiringCall ["path"] rfl] := by
  intro transparent
  have alike := (answer_nil requiredCompiler _).symm.trans
    ((transparent [requiringCall ["path", "path"] requiring_normalized]
      (requiringCall ["path"] rfl) [] rfl).symm.trans
        (answer_of_first requiredCompiler (List.find?_cons_of_pos (by simp [requiringCall]))))
  exact alike

end Cache

end Proxy
