/-! Status codes of calls and their names. -/

namespace RpcPolicy

/-- A status code. -/
inductive Code where
  | ok
  | canceled
  | unknown
  | invalidArgument
  | deadlineExceeded
  | notFound
  | alreadyExists
  | permissionDenied
  | resourceExhausted
  | failedPrecondition
  | aborted
  | outOfRange
  | unimplemented
  | internal
  | unavailable
  | dataLoss
  | unauthenticated
deriving DecidableEq, Inhabited

namespace Code

/-- Every code, in the order of its number. -/
def all : List Code :=
  [ok, canceled, unknown, invalidArgument, deadlineExceeded, notFound, alreadyExists,
    permissionDenied, resourceExhausted, failedPrecondition, aborted, outOfRange, unimplemented,
    internal, unavailable, dataLoss, unauthenticated]

/-- The number on the wire. -/
def number : Code → Nat
  | ok => 0
  | canceled => 1
  | unknown => 2
  | invalidArgument => 3
  | deadlineExceeded => 4
  | notFound => 5
  | alreadyExists => 6
  | permissionDenied => 7
  | resourceExhausted => 8
  | failedPrecondition => 9
  | aborted => 10
  | outOfRange => 11
  | unimplemented => 12
  | internal => 13
  | unavailable => 14
  | dataLoss => 15
  | unauthenticated => 16

/-- The name in documents. -/
def documentName : Code → String
  | ok => "ok"
  | canceled => "canceled"
  | unknown => "unknown"
  | invalidArgument => "invalid_argument"
  | deadlineExceeded => "deadline_exceeded"
  | notFound => "not_found"
  | alreadyExists => "already_exists"
  | permissionDenied => "permission_denied"
  | resourceExhausted => "resource_exhausted"
  | failedPrecondition => "failed_precondition"
  | aborted => "aborted"
  | outOfRange => "out_of_range"
  | unimplemented => "unimplemented"
  | internal => "internal"
  | unavailable => "unavailable"
  | dataLoss => "data_loss"
  | unauthenticated => "unauthenticated"

/-- The name in diagnostics: upper case, and `CANCELLED` with two letters L. -/
def name : Code → String
  | ok => "OK"
  | canceled => "CANCELLED"
  | unknown => "UNKNOWN"
  | invalidArgument => "INVALID_ARGUMENT"
  | deadlineExceeded => "DEADLINE_EXCEEDED"
  | notFound => "NOT_FOUND"
  | alreadyExists => "ALREADY_EXISTS"
  | permissionDenied => "PERMISSION_DENIED"
  | resourceExhausted => "RESOURCE_EXHAUSTED"
  | failedPrecondition => "FAILED_PRECONDITION"
  | aborted => "ABORTED"
  | outOfRange => "OUT_OF_RANGE"
  | unimplemented => "UNIMPLEMENTED"
  | internal => "INTERNAL"
  | unavailable => "UNAVAILABLE"
  | dataLoss => "DATA_LOSS"
  | unauthenticated => "UNAUTHENTICATED"

/-- The name of the case. -/
def caseName : Code → String
  | ok => "Ok"
  | canceled => "Canceled"
  | unknown => "Unknown"
  | invalidArgument => "InvalidArgument"
  | deadlineExceeded => "DeadlineExceeded"
  | notFound => "NotFound"
  | alreadyExists => "AlreadyExists"
  | permissionDenied => "PermissionDenied"
  | resourceExhausted => "ResourceExhausted"
  | failedPrecondition => "FailedPrecondition"
  | aborted => "Aborted"
  | outOfRange => "OutOfRange"
  | unimplemented => "Unimplemented"
  | internal => "Internal"
  | unavailable => "Unavailable"
  | dataLoss => "DataLoss"
  | unauthenticated => "Unauthenticated"

/-- The code of a number; a number without one stands for `unknown`. -/
def ofNumber (n : Int) : Code :=
  (all.find? fun c => (c.number : Int) = n).getD unknown

/-- The code of its name in documents. -/
def ofDocumentName? (s : String) : Option Code :=
  all.find? fun c => c.documentName = s

/-- The code of a name in either spelling, in any case of the letters A to Z. -/
def ofName? (s : String) : Option Code :=
  let lower := s.toLower
  if lower = "cancelled" then some canceled else ofDocumentName? lower

/-- The text for a reader about a name that no code has. -/
def unknownNameText (s : String) : String :=
  "unknown status code: " ++ s

/-- Whether the code says that a caller exceeded its allowance. -/
def isRateLimit (c : Code) : Bool :=
  c = resourceExhausted

@[simp] theorem ofNumber_number (c : Code) : ofNumber c.number = c := by
  cases c <;> decide

end Code

end RpcPolicy
