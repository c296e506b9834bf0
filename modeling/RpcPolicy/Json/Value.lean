import RpcPolicy.Number.Numeral
/-! Documents: values with numerals and texts as they are written. -/

namespace RpcPolicy

/-- The text of a string in a document, or `none` if an escape names half of a surrogate pair. -/
abbrev JsonText := Option String

/-- A value of a document; a member may be repeated and members keep their order. -/
inductive Json where
  | null
  | bool (b : Bool)
  | number (n : Numeral)
  | string (s : JsonText)
  | array (items : List Json)
  | object (members : List (JsonText × Json))
deriving Inhabited

namespace Json

/-- A string without broken escapes. -/
def text (s : String) : Json := .string (some s)

/-- A whole number. -/
def nat (n : Nat) : Json := .number (.ofNat n)

/-- An object whose members have plain names. -/
def ofFields (fields : List (String × Json)) : Json :=
  .object (fields.map fun f => (some f.1, f.2))

end Json

end RpcPolicy
