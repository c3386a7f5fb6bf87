import Anviq.Json.Order
import Anviq.Json.Parse
import Anviq.Proxy.Event

/-! # JSON-RPC messages

How the proxy reads the bodies it forwards. `encoding/json` matches the members
of an object to the fields of a struct without regard to case, takes the members
in order, so that a later one overwrites an earlier one, and lets `null` leave a
string as it is. A `json.RawMessage` field keeps the tree it was given.

`json.Unmarshal` completes a decoding as best it can when a value does not fit its
field, and reports the first such value at the end; `Decoded` is what it leaves
behind. A map is represented by its members in the order of their names.
`parseFloat` is the conversion of a number's text to a `float64`, which
fails when the number is out of range.
-/

namespace Proxy

/-- A tree as a body's text gives it. -/
abbrev RawJson := Json String

/-! ## Decoding -/

/-- The deepest nesting `encoding/json` accepts. -/
def maxNestingDepth : Nat := 10000

/-- The tree of a body that `json.Unmarshal` finds well formed. -/
def unmarshal (body : String) : Option RawJson :=
  (Json.parse body).filter fun tree => tree.depth ≤ maxNestingDepth

/-- `foldRune`, on the runes that fold to an ASCII letter. -/
def foldRune (rune : Char) : Char :=
  if 'a' ≤ rune ∧ rune ≤ 'z' then Char.ofNat (rune.toNat - 32)
  else if rune = '\u017F' then 'S'
  else if rune = '\u212A' then 'K'
  else rune

/-- `foldName`. -/
def foldName (name : String) : List Char := name.toList.map foldRune

/-- What a decoding leaves behind, and whether everything fitted. -/
structure Decoded (α : Type) where
  value : α
  fits : Bool := true

/-- The value, when `json.Unmarshal` returned no error. -/
def Decoded.checked {α : Type} (decoded : Decoded α) : Option α :=
  if decoded.fits then some decoded.value else none

/-- The values an object gives to a struct field, in order. -/
def fieldValues (field : String) (members : Json.Members String) : List RawJson :=
  members.filterMap fun member =>
    if foldName member.1 = foldName field then some member.2 else none

/-- A field decoded from the values an object gives it: each is decoded into what
the ones before it left. -/
def decodeField {α : Type} (decode : α → RawJson → Decoded α) (initial : α) (field : String)
    (members : Json.Members String) : Decoded α :=
  (fieldValues field members).foldl
    (fun held value =>
      let next := decode held.value value
      { next with fits := held.fits && next.fits })
    { value := initial }

/-- A `json.RawMessage` field. -/
def rawField (field : String) (members : Json.Members String) : Option RawJson :=
  (fieldValues field members).getLast?

/-- A value decoded into a `string` that holds `held`. -/
def decodeString (held : String) : RawJson → Decoded String
  | .str value => { value }
  | .null => { value := held }
  | _ => { value := held, fits := false }

/-- A value decoded into an `int` that holds `held`. -/
def decodeInt (held : Int) : RawJson → Decoded Int
  | .num token =>
      match token.toInt? with
      | some value =>
          if -2 ^ 63 ≤ value ∧ value < 2 ^ 63 then { value } else { value := held, fits := false }
      | none => { value := held, fits := false }
  | .null => { value := held }
  | _ => { value := held, fits := false }

section Any

variable (parseFloat : String → Option Number)

mutual

/-- The value left in an `any`; a number out of range leaves nil. -/
def decodeAny : RawJson → GoJson
  | .null => .null
  | .bool value => .bool value
  | .num token => ((parseFloat token).map .num).getD .null
  | .str value => .str value
  | .arr elements => .arr (decodeElements elements)
  | .obj members => .obj (decodeMembers members).keepLast.sort

def decodeElements : List RawJson → List GoJson
  | [] => []
  | element :: elements => decodeAny element :: decodeElements elements

def decodeMembers : Json.Members String → Json.Members Number
  | [] => []
  | (name, value) :: members => (name, decodeAny value) :: decodeMembers members

end

mutual

/-- No number of a value is out of range. -/
def fitsAny : RawJson → Bool
  | .num token => (parseFloat token).isSome
  | .arr elements => fitElements elements
  | .obj members => fitMembers members
  | _ => true

def fitElements : List RawJson → Bool
  | [] => true
  | element :: elements => fitsAny element && fitElements elements

def fitMembers : Json.Members String → Bool
  | [] => true
  | (_, value) :: members => fitsAny value && fitMembers members

end

end Any

/-! ## Messages -/

/-- `rpc.Request`. -/
structure Request where
  id : Option RawJson := none
  method : String := ""
  params : Option RawJson := none

/-- A tree decoded as a request. -/
def Request.decode : RawJson → Decoded Request
  | .null => { value := {} }
  | .obj members =>
      let jsonrpc := decodeField decodeString "" "jsonrpc" members
      let method := decodeField decodeString "" "method" members
      { value :=
          { id := rawField "id" members, method := method.value
            params := rawField "params" members }
        fits := jsonrpc.fits && method.fits }
  | _ => { value := {}, fits := false }

/-- `rpc.ToolsCallParams`. -/
structure CallParams where
  name : String := ""
  arguments : Option RawJson := none

/-- A tree decoded as the parameters of a call. -/
def CallParams.decode : RawJson → Decoded CallParams
  | .null => { value := {} }
  | .obj members =>
      let name := decodeField decodeString "" "name" members
      { value := { name := name.value, arguments := rawField "arguments" members }
        fits := name.fits }
  | _ => { value := {}, fits := false }

/-- The members of `rpc.Error` that the proxy reads. -/
structure RpcError where
  code : Int := 0
  message : String := ""

section Responses

variable (parseFloat : String → Option Number)

/-- A value decoded into the `Error` pointer of a response; anything but `null`
allocates the error. -/
def decodeError (held : Option RpcError) : RawJson → Decoded (Option RpcError)
  | .null => { value := none }
  | .obj members =>
      let error := held.getD {}
      let code := decodeField decodeInt error.code "code" members
      let message := decodeField decodeString error.message "message" members
      { value := some { code := code.value, message := message.value }
        fits := code.fits && message.fits &&
          (fieldValues "data" members).all (fitsAny parseFloat) }
  | _ => { value := some (held.getD {}), fits := false }

/-- `rpc.Response`. -/
structure Response where
  result : Option RawJson := none
  error : Option RpcError := none

/-- A tree decoded as a response. -/
def Response.decode : RawJson → Decoded Response
  | .null => { value := {} }
  | .obj members =>
      let jsonrpc := decodeField decodeString "" "jsonrpc" members
      let error := decodeField (decodeError parseFloat) none "error" members
      { value := { result := rawField "result" members, error := error.value }
        fits := jsonrpc.fits && error.fits }
  | _ => { value := {}, fits := false }

/-- A value decoded into a `map[string]any` that holds `held`; `null` is the nil map, and an
object adds its members. -/
def decodeTool (held : Tool) : RawJson → Decoded Tool
  | .null => { value := [] }
  | .obj members =>
      { value := (held ++ decodeMembers parseFloat members).keepLast.sort
        fits := fitMembers parseFloat members }
  | _ => { value := held, fits := false }

/-- The `Tools` slice; `none` is the nil slice. Its array keeps what lies behind the elements. -/
structure ToolSlice where
  tools : Option (List Tool) := none
  behind : List Tool := []

/-- Elements decoded into the maps of an array one by one, and into new ones where it ends. -/
def decodeSlots : List Tool → List RawJson → List Tool
  | _, [] => []
  | slots, element :: elements =>
      (decodeTool parseFloat (slots.headD []) element).value :: decodeSlots slots.tail elements

/-- A value decoded into the `Tools` slice. -/
def decodeTools (held : ToolSlice) : RawJson → Decoded ToolSlice
  | .null => { value := {} }
  | .arr [] => { value := { tools := some [] } }
  | .arr elements =>
      let slots := held.tools.getD [] ++ held.behind
      { value :=
          { tools := some (decodeSlots parseFloat slots elements)
            behind := slots.drop elements.length }
        fits := elements.all fun element => (decodeTool parseFloat [] element).fits }
  | _ => { value := held, fits := false }

/-- A tree decoded as `rpc.ToolsListResult`. -/
def decodeToolsListResult : RawJson → Decoded (Option (List Tool))
  | .null => { value := none }
  | .obj members =>
      let slice := decodeField (decodeTools parseFloat) {} "tools" members
      { value := slice.value.tools, fits := slice.fits }
  | _ => { value := none, fits := false }

end Responses

/-! ## Error codes -/

/-- The codes of `rpc` error responses. -/
inductive ErrorCode where
  | invalidParams
  | toolNotPinned
  | contractChanged
  | toolQuarantined
  | upstreamError
  | definitionInvalid
  | badRequest
deriving DecidableEq

/-- The number of an error code. -/
def ErrorCode.number : ErrorCode → Int
  | .invalidParams => -32602
  | .toolNotPinned => -32001
  | .contractChanged => -32002
  | .toolQuarantined => -32003
  | .upstreamError => -32004
  | .definitionInvalid => -32005
  | .badRequest => -32600

end Proxy
