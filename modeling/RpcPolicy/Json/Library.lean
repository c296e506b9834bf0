import RpcPolicy.Json.Value
/-! The library that writes and reads documents, as far as configurations rely on it. -/

namespace RpcPolicy.Json

/-- A library that writes documents as text and reads them again. It chooses the numerals of
doubles and says which double a numeral is. -/
structure Library where
  write : Json → String
  read? : String → Option Json
  /-- How a finite double is written. -/
  numeral : Binary64 → Numeral
  /-- How a numeral is read as a double; one that overflows is refused. -/
  double? : Numeral → Option Binary64

/-- A double, written as `null` if it is not finite. -/
def ofBinary64 (lib : Library) (x : Binary64) : Json :=
  if x.isFinite then .number (lib.numeral x) else .null

/-- A double; whole numbers are accepted. -/
def binary64? (lib : Library) : Json → Option Binary64
  | number n => lib.double? n
  | _ => none

mutual

/-- Whether a value holds no broken text, no number that overflows and at most `depth` containers
within each other. -/
def isSound (lib : Library) (depth : Nat) : Json → Bool
  | null => true
  | bool _ => true
  | number n => (lib.double? n).isSome
  | string s => s.isSome
  | array items =>
    match depth with
    | 0 => false
    | depth + 1 => areSound lib depth items
  | object members =>
    match depth with
    | 0 => false
    | depth + 1 => areSoundMembers lib depth members

def areSound (lib : Library) (depth : Nat) : List Json → Bool
  | [] => true
  | j :: rest => j.isSound lib depth && areSound lib depth rest

def areSoundMembers (lib : Library) (depth : Nat) : List (JsonText × Json) → Bool
  | [] => true
  | (name, j) :: rest => name.isSome && j.isSound lib depth && areSoundMembers lib depth rest

end

end RpcPolicy.Json
