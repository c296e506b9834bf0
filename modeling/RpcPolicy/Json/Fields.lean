import RpcPolicy.Json.Library
import RpcPolicy.Time
/-! Reading records out of documents: each known key at most once, in any order. -/

namespace RpcPolicy.Json

/-- A whole number below a bound. -/
def natBelow? (bound : Nat) : Json → Option Nat
  | number n => n.toNat?.bind fun n => if n < bound then some n else none
  | _ => none

/-- A whole number of 32 bits. -/
def uint32? (j : Json) : Option UInt32 :=
  (j.natBelow? (2 ^ 32)).map UInt32.ofNat

/-- A whole number of 64 bits. -/
def uint64? (j : Json) : Option UInt64 :=
  (j.natBelow? (2 ^ 64)).map UInt64.ofNat

def bool? : Json → Option Bool
  | bool b => some b
  | _ => none

def text? : Json → Option String
  | string s => s
  | _ => none

/-- A value that may be `null`. -/
def optional? {α : Type} (read : Json → Option α) : Json → Option (Option α)
  | null => some none
  | j => (read j).map some

/-- The name of a case: a string, or an object with that one name and `null`. -/
def case? : Json → Option String
  | string s => s
  | object [(name, null)] => name
  | _ => none

/-- The name of a case in a held value, where an empty object may stand for the `null`. -/
def heldCase? : Json → Option String
  | object [(name, object [])] => name
  | j => j.case?

/-- Whether every name of an object is sound text. -/
def namesSound (members : List (JsonText × Json)) : Bool :=
  members.all fun m => m.1.isSome

/-- The value of a key: none if the key is repeated, and nothing inside if it is absent. -/
def member? (members : List (JsonText × Json)) (key : String) : Option (Option Json) :=
  match members.filter fun m => m.1 = some key with
  | [] => some none
  | [m] => some (some m.2)
  | _ => none

/-- The value of a key, or a default if it is absent. -/
def field? {α : Type} (members : List (JsonText × Json)) (key : String)
    (read : Json → Option α) (absent : α) : Option α :=
  (member? members key).bind fun
    | none => some absent
    | some j => read j

/-- The value at a place of an array, or a default past its end. -/
def item? {α : Type} (items : List Json) (place : Nat)
    (read : Json → Option α) (absent : α) : Option α :=
  match items[place]? with
  | none => some absent
  | some j => read j

end Json

namespace Duration

/-- A length of time from its seconds and nanoseconds, where full seconds carry over. -/
def ofParts? (secs : UInt64) (nanos : UInt32) : Option Duration :=
  ofNanos? (secs.toNat * nanosPerSecond + nanos.toNat)

/-- A length of time: an object of just `secs` and `nanos`, or an array of the two. -/
def ofJson? : Json → Option Duration
  | .array [secs, nanos] => do ofParts? (← secs.uint64?) (← nanos.uint32?)
  | .object members => do
    let known := members.all fun m => m.1 = some "secs" || m.1 = some "nanos"
    if !known then none
    let secs ← (← Json.member? members "secs")
    let nanos ← (← Json.member? members "nanos")
    ofParts? (← secs.uint64?) (← nanos.uint32?)
  | _ => none

/-- The document of a length of time. -/
def toJson (d : Duration) : Json :=
  .ofFields [("secs", .nat d.seconds), ("nanos", .nat d.subsecond)]

end Duration

end RpcPolicy
