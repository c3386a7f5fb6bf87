import Anviq.Canonical.Normalize
import Anviq.Json.Canonical
import Anviq.Proxy.Marshal
import Anviq.Proxy.Session

/-! # Hashing definitions in the proxy

`canonical.NormalizeTool`, `canonical.ToolHash` and the canonicaliser under them,
which hands the text of `json.Marshal` to an implementation of RFC 8785. A
missing member of a Go map reads as nil, which is encoded as `null`.
-/

namespace Proxy

open Canonical

/-- `NormalizeTool` projects a definition onto the members that define its
contract. -/
def normalizeTool (tool : Tool) : Tool :=
  [("name", (tool.get? "name").getD .null),
    ("description", (tool.get? "description").getD (.str "")),
    ("inputSchema", normalizeSchema ((tool.get? "inputSchema").getD .null))] ++
    normalizeOptional tool "outputSchema" ++ normalizeOptional tool "annotations"

/-- `ToolHash`. -/
def Env.toolHash (env : Env) (tool : Tool) : Except String String :=
  env.sha256Hex (.obj (normalizeTool tool))

/-! ## The canonicaliser -/

section Canonicaliser

variable (jcs : String → Except String String) (sha : String → String)

/-- `CanonicalJSON`; `jcs` is `jcs.Transform`. -/
def canonicalJson (value : GoJson) : Except String String :=
  match jcs (marshal value) with
  | .error error => .error ("canonical: JCS transform failed: " ++ error)
  | .ok text => .ok text

/-- `Sha256Hex`; `sha` is the hexadecimal SHA-256 digest of a text. -/
def sha256Hex (value : GoJson) : Except String String := do
  let text ← canonicalJson jcs value
  .ok ("sha256:" ++ sha text)

/-- A session's surroundings that hash with this canonicaliser. -/
def hashingEnv (clock : Nat → String) : Env where
  sha256Hex := sha256Hex jcs sha
  clock := clock

/-- What `jcs.Transform` is documented to do with the text of a value whose numbers
are doubles: it writes the canonical form of RFC 8785. -/
structure Rfc8785 (double : Number → Prop) : Prop where
  transforms : ∀ value : GoJson, value.Distinct → value.AllNumbers double →
    jcs (marshal value) = .ok (String.ofList value.canonical)

end Canonicaliser

/-- A transformation of JSON text that reads the text and writes the canonical form
of what it read. -/
def transform (text : String) : Except String String :=
  match Json.parse text with
  | none => .error "invalid JSON"
  | some tree =>
      .ok (String.ofList (tree.map fun token => Number.ofText token.toList).canonical)

/-- Reading and rewriting implements RFC 8785. -/
theorem transform_rfc8785 : Rfc8785 transform fun _ => True where
  transforms := fun value distinct _ => by
    have numbers : (fun token : String => Number.ofText token.toList) ∘
        (fun number : Number => String.ofList number.layout) = id := by
      funext number
      simp [Number.ofText_layout]
    rw [transform, parse_marshal]
    simp only [Json.map_map, numbers, Json.map_id, Json.canonical_sortKeys distinct]

end Proxy
