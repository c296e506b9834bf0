/-! The payload codecs a client may select. -/

namespace RpcPolicy

/-- A payload codec. -/
inductive Compression where
  | gzip
  | snappy
deriving DecidableEq, Inhabited

namespace Compression

/-- Every codec. -/
def all : List Compression := [gzip, snappy]

/-- The name on the wire and in documents. -/
def name : Compression → String
  | gzip => "gzip"
  | snappy => "snappy"

/-- The name of the case. -/
def caseName : Compression → String
  | gzip => "Gzip"
  | snappy => "Snappy"

/-- The codec of a name. -/
def ofName? (s : String) : Option Compression :=
  all.find? fun c => c.name = s

/-- A codec selected in a configuration, where the empty name selects none. -/
def select? (s : String) : Option (Option Compression) :=
  if s = "" then some none else (ofName? s).map some

end Compression

end RpcPolicy
