import RpcPolicy.Text.Quoted
/-! Call metadata: names in lower case, each with its values in order. -/

namespace RpcPolicy

/-- Whether a byte may stand in a name. -/
def isNameByte (b : UInt8) : Bool :=
  let c := Char.ofNat b.toNat
  b < 128 && (c.isAlphanum || "!#$%&'*+-.^_`|~".contains c)

/-- A name of 1 to 65535 letters, digits and marks, without upper-case letters. -/
structure MetadataName where
  text : String
deriving DecidableEq, Inhabited

/-- The name of a text, if it is one; letters are made lower-case. -/
def MetadataName.ofText? (s : String) : Option MetadataName :=
  let bytes := s.toUTF8.toList
  if 0 < bytes.length && bytes.length ≤ 65535 && bytes.all isNameByte then
    some ⟨s.toLower⟩
  else none

/-- A value: bytes without control characters other than the tab. -/
structure MetadataValue where
  bytes : List UInt8
deriving DecidableEq, Inhabited

namespace MetadataValue

/-- Whether a byte may stand in a value. -/
def isValueByte (b : UInt8) : Bool :=
  (32 ≤ b && b != 127) || b = 9

/-- The value of bytes, if they are one. -/
def ofBytes? (bytes : List UInt8) : Option MetadataValue :=
  if bytes.all isValueByte then some ⟨bytes⟩ else none

/-- The value of a text, if it is one. -/
def ofText? (s : String) : Option MetadataValue :=
  ofBytes? s.toUTF8.toList

/-- The value of a text of visible characters. -/
def ofVisible (s : String) : MetadataValue :=
  ⟨s.toUTF8.toList⟩

/-- Whether a byte shows as a character. -/
def isVisible (b : UInt8) : Bool :=
  (32 ≤ b && b < 127) || b = 9

/-- The text of a value whose bytes all show. -/
def visible? (v : MetadataValue) : Option String :=
  if v.bytes.all isVisible then some (String.ofList (v.bytes.map fun b => Char.ofNat b.toNat))
  else none

/-- The value between double quotes. -/
def quoted (v : MetadataValue) : String :=
  let byte (b : UInt8) : String :=
    if b = 34 then "\\\""
    else if isVisible b then String.singleton (Char.ofNat b.toNat)
    else "\\x" ++ Text.hex b.toNat
  "\"" ++ String.join (v.bytes.map byte) ++ "\""

end MetadataValue

/-- Names in the order in which they were first given, each with its values in their order. -/
abbrev Metadata := List (MetadataName × List MetadataValue)

namespace Metadata

/-- The values of a name. -/
def values (m : Metadata) (name : MetadataName) : List MetadataValue :=
  match m with
  | [] => []
  | (n, vs) :: rest => if n = name then vs else values rest name

/-- Changes the values of a name, which comes last if it is new. -/
def update (m : Metadata) (name : MetadataName)
    (f : List MetadataValue → List MetadataValue) : Metadata :=
  match m with
  | [] => [(name, f [])]
  | (n, vs) :: rest => if n = name then (n, f vs) :: rest else (n, vs) :: update rest name f

/-- Gives a name one value in place of all it had. -/
def insert (m : Metadata) (name : MetadataName) (value : MetadataValue) : Metadata :=
  m.update name fun _ => [value]

/-- Adds a value to those of a name. -/
def append (m : Metadata) (name : MetadataName) (value : MetadataValue) : Metadata :=
  m.update name (· ++ [value])

/-- Every name with every value. -/
def pairs (m : Metadata) : List (MetadataName × MetadataValue) :=
  m.flatMap fun entry => entry.2.map (entry.1, ·)

/-- Every name with every value, sorted by name. -/
def sorted (m : Metadata) : List (MetadataName × MetadataValue) :=
  pairs (m.mergeSort fun a b => a.1.text ≤ b.1.text)

/-- Every name with every value in braces. -/
def structureText (m : Metadata) : String :=
  "\x7b" ++ ", ".intercalate (m.pairs.map fun p => Text.quoted p.1.text ++ ": " ++ p.2.quoted) ++
    "\x7d"

@[simp] theorem values_update_self (m : Metadata) (name : MetadataName)
    (f : List MetadataValue → List MetadataValue) :
    (m.update name f).values name = f (m.values name) := by
  induction m with
  | nil => simp [update, values]
  | cons entry rest ih =>
    obtain ⟨n, vs⟩ := entry
    by_cases h : n = name <;> simp [update, values, h, ih]

theorem values_update_of_ne (m : Metadata) {name other : MetadataName} (h : other ≠ name)
    (f : List MetadataValue → List MetadataValue) :
    (m.update name f).values other = m.values other := by
  induction m with
  | nil => simp [update, values, Ne.symm h]
  | cons entry rest ih =>
    obtain ⟨n, vs⟩ := entry
    by_cases hn : n = name
    · subst hn
      simp [update, values, Ne.symm h]
    · by_cases ho : n = other
      · subst ho
        simp [update, values, hn]
      · simp [update, values, hn, ho, ih]

@[simp] theorem values_insert_self (m : Metadata) (name : MetadataName) (value : MetadataValue) :
    (m.insert name value).values name = [value] :=
  values_update_self m name _

theorem values_insert_of_ne (m : Metadata) {name other : MetadataName} (h : other ≠ name)
    (value : MetadataValue) : (m.insert name value).values other = m.values other :=
  values_update_of_ne m h _

end Metadata

end RpcPolicy
