import StepOAuth.Go.Bytes

/-!
# JSON decoded into `interface{}`

`json.Unmarshal` into a `map[string]interface{}` gives nested values whose dynamic types are
`nil`, `bool`, `float64`, `string`, `[]interface{}` and `map[string]interface{}`. The source
reads the account file and the discovery document this way, indexes the maps, and asserts
`.(string)` or `.(map[string]interface{})` on what it finds.

A decoded object is kept as its (key, value) pairs; indexing returns `none` for a missing key,
which Go reads as a `nil` interface with `ok == false`. The value of a number is never read by
the source and is not kept.
-/

namespace StepOAuth
namespace Go

/-- A value `json.Unmarshal` stores in an `interface{}`. -/
inductive Json
  | null
  | bool (b : Bool)
  | number
  | string (s : Bytes)
  | array (xs : List Json)
  | object (kvs : List (Bytes × Json))

/-- A decoded `map[string]interface{}`. -/
abbrev JsonObject := List (Bytes × Json)

namespace JsonObject

/-- `m[key]`, with `none` when the key is absent. -/
def get (m : JsonObject) (key : Bytes) : Option Json :=
  (m.find? fun p => p.1 = key).map (·.2)

end JsonObject

namespace Json

/-- The dynamic type of an `interface{}` holding this value, as the runtime names it in the
message of a failed type assertion. -/
def typeName : Option Json → String
  | none => "nil"
  | some .null => "nil"
  | some (.bool _) => "bool"
  | some .number => "float64"
  | some (.string _) => "string"
  | some (.array _) => "[]interface {}"
  | some (.object _) => "map[string]interface {}"

end Json

end Go
end StepOAuth
