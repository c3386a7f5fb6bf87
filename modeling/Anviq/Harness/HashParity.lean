import Anviq.Canonical.Laws
import Anviq.Harness.Canonical
import Anviq.Proxy.Canonical

/-! # Hashes across the ports

A definition the proxy hashed is encoded by `json.Marshal`, decoded by
`json.loads`, which reads whole numbers as ints, and hashed again by
`compute_hash`. Normalising commutes with that journey, and the two canonical
texts agree exactly when the numbers of the normalised definition are portable.
-/

namespace Harness

open Canonical
open Proxy (GoJson Tool toolName)

/-! ## Canonical text -/

/-- A value with its numbers as `json.loads` reads them. -/
def received (value : GoJson) : PyJson := value.map PyNumber.ofNumber

/-- What `json.loads` reads from an encoded value. -/
def reread (value : GoJson) : PyJson := (received value.sortKeys).collapse

theorem loads_marshal_eq (value : GoJson) : loads (Proxy.marshal value) = some (reread value) := by
  have numbers : (fun token : String => PyNumber.ofText token.toList) ∘
      (fun number : Number => String.ofList number.layout) = PyNumber.ofNumber := by
    funext number
    simp [PyNumber.ofText_layout]
  rw [loads, Proxy.parse_marshal, Option.map_some, Json.map_map, numbers]
  rfl

/-- Sorting changes nothing in a map. -/
theorem reread_sorted {value : GoJson} (sorted : value.Sorted) : reread value = received value := by
  rw [reread, Json.sortKeys_of_sorted sorted]
  exact Json.collapse_of_distinct (Json.namesPairwise_map.mpr sorted.distinct)

/-- What `json.loads` reads from an encoded map. -/
theorem loads_marshal {value : GoJson} (sorted : value.Sorted) :
    loads (Proxy.marshal value) = some (received value) := by
  rw [loads_marshal_eq, reread_sorted sorted]

theorem canonicalElements_ok {elements : List GoJson}
    (each : ∀ element ∈ elements, canonicalJson (received element) = .ok element.canonical) :
    canonicalElements (elements.map received) = .ok (elements.map Json.canonical) := by
  induction elements with
  | nil => rfl
  | cons element elements ih =>
      rw [List.forall_mem_cons] at each
      rw [List.map_cons, canonicalElements, each.1, ih each.2]
      rfl

theorem canonicalMembers_ok {members : Json.Members Number}
    (each : ∀ member ∈ members, canonicalJson (received member.2) = .ok member.2.canonical) :
    canonicalMembers (members.map fun member => (member.1, received member.2)) =
      .ok (members.map fun member => (member.1, member.2.canonical)) := by
  induction members with
  | nil => rfl
  | cons member members ih =>
      rw [List.forall_mem_cons] at each
      rw [List.map_cons, canonicalMembers, each.1, ih each.2]
      rfl

theorem received_arr (elements : List GoJson) :
    received (.arr elements) = .arr (elements.map received) := by
  rw [received, Json.map, Json.mapElements_eq]
  rfl

theorem received_obj (members : Json.Members Number) :
    received (.obj members) = .obj (members.map fun member => (member.1, received member.2)) := by
  rw [received, Json.map, Json.mapMembers_eq]
  rfl

/-- Python writes the canonical text of a value with portable numbers. -/
theorem canonicalJson_received {value : GoJson} (portable : value.AllNumbers Number.Portable) :
    canonicalJson (received value) = .ok value.canonical := by
  induction value using Json.induction with
  | null => rfl
  | bool value => cases value <;> rfl
  | num value => exact (encodeNumber_ofNumber value).1 portable
  | str value =>
      change Except.ok (encodeString value) = .ok (Json.quote Json.ecmaEscape value)
      rw [encodeString, encodeChar_eq]
  | arr elements ih =>
      rw [Json.allNumbers_arr] at portable
      rw [received_arr, canonicalJson, canonicalElements_ok fun element present =>
        ih element present (portable element present)]
      simp only [Json.canonical, Json.canonicalElements_eq]
      rfl
  | obj members ih =>
      rw [Json.allNumbers_obj] at portable
      rw [received_obj, canonicalJson, canonicalMembers_ok fun member present =>
        ih member present (portable member present)]
      simp only [Json.canonical, Json.canonicalMembers_eq, sortedByName_eq, encodeString,
        encodeChar_eq]
      rfl

theorem portable_of_canonicalElements {elements : List GoJson} {texts : List (List Char)}
    (each : ∀ element ∈ elements, ∀ text, canonicalJson (received element) = .ok text →
      element.AllNumbers Number.Portable)
    (written : canonicalElements (elements.map received) = .ok texts) :
    ∀ element ∈ elements, element.AllNumbers Number.Portable := by
  induction elements generalizing texts with
  | nil => exact fun _ absent => absurd absent List.not_mem_nil
  | cons element elements ih =>
      rw [List.forall_mem_cons] at each ⊢
      rw [List.map_cons, canonicalElements] at written
      cases first : canonicalJson (received element) with
      | error error => simp [first, bind, Except.bind] at written
      | ok text =>
          cases rest : canonicalElements (elements.map received) with
          | error error => simp [first, rest, bind, Except.bind] at written
          | ok texts => exact ⟨each.1 text first, ih each.2 rest⟩

theorem portable_of_canonicalMembers {members : Json.Members Number}
    {items : List (String × List Char)}
    (each : ∀ member ∈ members, ∀ text, canonicalJson (received member.2) = .ok text →
      member.2.AllNumbers Number.Portable)
    (written : canonicalMembers (members.map fun member => (member.1, received member.2)) =
      .ok items) :
    ∀ member ∈ members, member.2.AllNumbers Number.Portable := by
  induction members generalizing items with
  | nil => exact fun _ absent => absurd absent List.not_mem_nil
  | cons member members ih =>
      rw [List.forall_mem_cons] at each ⊢
      rw [List.map_cons, canonicalMembers] at written
      cases first : canonicalJson (received member.2) with
      | error error => simp [first, bind, Except.bind] at written
      | ok text =>
          cases rest : canonicalMembers (members.map fun member => (member.1, received member.2)) with
          | error error => simp [first, rest, bind, Except.bind] at written
          | ok items => exact ⟨each.1 text first, ih each.2 rest⟩

/-- Python writes no value with a number that is not portable. -/
theorem portable_of_canonicalJson {value : GoJson} {text : List Char}
    (written : canonicalJson (received value) = .ok text) : value.AllNumbers Number.Portable := by
  induction value using Json.induction generalizing text with
  | null => trivial
  | bool value => trivial
  | num value => exact (encodeNumber_ofNumber value).2 text written
  | str value => trivial
  | arr elements ih =>
      rw [Json.allNumbers_arr]
      rw [received_arr, canonicalJson] at written
      cases texts : canonicalElements (elements.map received) with
      | error error => simp [texts, bind, Except.bind] at written
      | ok texts => exact portable_of_canonicalElements (fun element present _ => ih element present) texts
  | obj members ih =>
      rw [Json.allNumbers_obj]
      rw [received_obj, canonicalJson] at written
      cases items : canonicalMembers (members.map fun member => (member.1, received member.2)) with
      | error error => simp [items, bind, Except.bind] at written
      | ok items => exact portable_of_canonicalMembers (fun member present _ => ih member present) items

/-! ## Definitions -/

/-- A definition the proxy can report: it has a name and an object as its input
schema. -/
structure Reportable (tool : Tool) : Prop where
  named : toolName tool ≠ ""
  schema : ∃ inputSchema, tool.get? "inputSchema" = some (.obj inputSchema)

theorem Reportable.name {tool : Tool} (reportable : Reportable tool) :
    ∃ name, tool.get? "name" = some (.str name) := by
  have named := reportable.named
  unfold toolName at named
  split at named
  · next name found => exact ⟨name, found⟩
  · exact absurd rfl named

/-- The ports normalise a reportable definition alike. -/
theorem normalizeTool_received {tool : Tool} (reportable : Reportable tool) :
    normalizeTool (Json.mapMembers PyNumber.ofNumber tool) =
      .ok (Json.mapMembers PyNumber.ofNumber (Proxy.normalizeTool tool)) := by
  obtain ⟨name, named⟩ := reportable.name
  obtain ⟨inputSchema, schema⟩ := reportable.schema
  have description : ((tool.get? "description").map (Json.map PyNumber.ofNumber)).getD (.str "") =
      ((tool.get? "description").getD (.str "")).map PyNumber.ofNumber := by
    cases tool.get? "description" <;> rfl
  have normalized := normalizeSchema_map PyNumber.ofNumber (.obj inputSchema)
  simp only [normalizeTool, Proxy.normalizeTool, Json.Members.get?_map, named, schema,
    Option.map_some, Option.getD_some, normalizeOptional_map, normalized, description,
    Json.mapMembers_append]
  rfl

/-- A normalised definition names each of its members once. -/
theorem normalizeTool_distinct {tool : Tool} (distinct : (Json.obj tool).Distinct) :
    (Json.obj (Proxy.normalizeTool tool)).Distinct :=
  normalized_distinct distinct (Json.getD_distinct distinct "name" trivial)
    (Json.getD_distinct distinct "description" trivial)
    (normalizeSchema_namesPairwise (Json.getD_distinct distinct "inputSchema" trivial))

/-- A normalised definition has no other numbers than the definition. -/
theorem normalizeTool_allNumbers {P : Number → Prop} {tool : Tool}
    (holds : (Json.obj tool).AllNumbers P) :
    (Json.obj (Proxy.normalizeTool tool)).AllNumbers P :=
  normalized_allNumbers holds (Json.getD_allNumbers holds "name" trivial)
    (Json.getD_allNumbers holds "description" trivial)
    (normalizeSchema_allNumbers (Json.getD_allNumbers holds "inputSchema" trivial))

section Parity

variable {jcs : String → Except String String} {double : Number → Prop} (sha : String → String)
  (clock : Nat → String) {tool : Tool}

/-- The hash the proxy computes is that of the canonical text. -/
theorem proxy_toolHash (rfc : Proxy.Rfc8785 jcs double) (distinct : (Json.obj tool).Distinct)
    (doubles : (Json.obj tool).AllNumbers double) :
    (Proxy.hashingEnv jcs sha clock).toolHash tool =
      .ok ("sha256:" ++ sha (String.ofList (Json.obj (Proxy.normalizeTool tool)).canonical)) := by
  have written := rfc.transforms _ (normalizeTool_distinct distinct) (normalizeTool_allNumbers doubles)
  simp only [Proxy.Env.toolHash, Proxy.hashingEnv, Proxy.sha256Hex, Proxy.canonicalJson, written]
  rfl

/-- **Hash parity.** A definition the proxy reports is decoded by the control plane
to one with the same hash exactly when the numbers of its normalised form are
portable; otherwise `compute_hash` raises an exception. -/
theorem definition_hashed_alike (rfc : Proxy.Rfc8785 jcs double)
    (decoded : (Json.obj tool).Sorted) (doubles : (Json.obj tool).AllNumbers double)
    (reportable : Reportable tool) :
    (∃ definition hash, loads (Proxy.marshal (.obj tool)) = some (.obj definition) ∧
        (Proxy.hashingEnv jcs sha clock).toolHash tool = .ok hash ∧
        toolHash sha definition = .ok hash) ↔
      (Json.obj (Proxy.normalizeTool tool)).AllNumbers Number.Portable := by
  have hashed := proxy_toolHash sha clock rfc decoded.distinct doubles
  have read : loads (Proxy.marshal (.obj tool)) =
      some (.obj (Json.mapMembers PyNumber.ofNumber tool)) := loads_marshal decoded
  have recomputed : toolHash sha (Json.mapMembers PyNumber.ofNumber tool) =
      sha256Hex sha (received (.obj (Proxy.normalizeTool tool))) := by
    rw [toolHash, normalizeTool_received reportable]
    rfl
  constructor
  · rintro ⟨definition, hash, received, -, computed⟩
    obtain rfl : Json.mapMembers PyNumber.ofNumber tool = definition := by
      rw [read] at received
      exact Json.obj.inj (Option.some.inj received)
    rw [recomputed, sha256Hex] at computed
    cases written : canonicalJson (Harness.received (.obj (Proxy.normalizeTool tool))) with
    | error error =>
        rw [written] at computed
        exact absurd computed (by simp [bind, Except.bind])
    | ok text => exact portable_of_canonicalJson written
  · intro portable
    refine ⟨_, _, read, hashed, ?_⟩
    rw [recomputed, sha256Hex, canonicalJson_received portable]
    rfl

/-- A definition whose bound is a whole number that Go prints without an exponent. -/
def wideBound : Tool :=
  [("inputSchema", .obj [("maximum", .num (.ofDigits false [1] 20))]), ("name", .str "read")]

theorem wideBound_sorted : (Json.obj wideBound).Sorted := by
  simp only [Json.Sorted, wideBound, Json.NamesPairwise, Json.MembersPairwise, and_true]
  decide

/-- The proxy hashes `wideBound`; the control plane decodes it and cannot hash it. -/
theorem wideBound_refused :
    (∃ hash, (Proxy.hashingEnv Proxy.transform id fun _ => "").toolHash wideBound = .ok hash) ∧
      ∃ definition, loads (Proxy.marshal (.obj wideBound)) = some (.obj definition) ∧
        toolHash id definition = .error
          (.valueError "integer outside IEEE-754 safe range; not portable across languages") := by
  have doubles : (Json.obj wideBound).AllNumbers fun _ => True := by
    simp [wideBound, Json.AllNumbers, Json.AllMembers]
  refine ⟨⟨_, proxy_toolHash id _ Proxy.transform_rfc8785 wideBound_sorted.distinct doubles⟩,
    _, loads_marshal wideBound_sorted, ?_⟩
  decide +kernel

/-- A definition whose bound is a plain integer of few digits. -/
def narrowBound : Tool :=
  [("inputSchema", .obj [("maximum", .num (.ofDigits false [1] 3))]), ("name", .str "read")]

/-- A bound of few digits is hashed alike in both languages. -/
theorem definition_hashed_alike_narrowBound :
    ∃ definition hash, loads (Proxy.marshal (.obj narrowBound)) = some (.obj definition) ∧
      (Proxy.hashingEnv Proxy.transform id fun _ => "").toolHash narrowBound = .ok hash ∧
      toolHash id definition = .ok hash := by
  refine (definition_hashed_alike id (fun _ => "") Proxy.transform_rfc8785 ?_ ?_ ?_).mpr ?_
  · simp only [Json.Sorted, narrowBound, Json.NamesPairwise, Json.MembersPairwise, and_true]
    decide
  · simp [narrowBound, Json.AllNumbers, Json.AllMembers]
  · exact ⟨by decide, [("maximum", .num (.ofDigits false [1] 3))], by decide⟩
  · have normalized : Proxy.normalizeTool narrowBound =
        [("name", .str "read"), ("description", .str ""),
          ("inputSchema", .obj [("maximum", .num (.ofDigits false [1] 3))])] := by decide
    simp only [normalized, Json.AllNumbers, Json.AllMembers, and_true, true_and]
    decide

end Parity

end Harness
