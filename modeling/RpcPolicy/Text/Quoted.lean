import RpcPolicy.Text.Invisible
/-! Text between double quotes, with escapes for what would not show, and texts of records and
lists. -/

namespace RpcPolicy.Text

/-- A number in lower-case hexadecimal digits. -/
def hex (n : Nat) : String :=
  String.ofList (Nat.toDigits 16 n)

/-- A character as it stands between double quotes. -/
def quotedChar (c : Char) : String :=
  if c = '\x00' then "\\0"
  else if c = '\t' then "\\t"
  else if c = '\r' then "\\r"
  else if c = '\n' then "\\n"
  else if c = '"' then "\\\""
  else if c = '\\' then "\\\\"
  else if isCombining c || isUnprintable c then "\\u\x7b" ++ hex c.toNat ++ "\x7d"
  else String.singleton c

/-- A text between double quotes. -/
def quoted (s : String) : String :=
  "\"" ++ String.join (s.toList.map quotedChar) ++ "\""

/-- A byte as it stands in a quoted string of bytes. -/
def quotedByte (b : UInt8) : String :=
  if b = 0 then "\\0"
  else if b = 9 then "\\t"
  else if b = 13 then "\\r"
  else if b = 10 then "\\n"
  else if b = 34 then "\\\""
  else if b = 92 then "\\\\"
  else if 32 ≤ b && b < 127 then String.singleton (Char.ofNat b.toNat)
  else "\\x" ++ (if b < 16 then "0" else "") ++ hex b.toNat

/-- Bytes between double quotes after a `b`. -/
def quotedBytes (bs : ByteArray) : String :=
  "b\"" ++ String.join (bs.toList.map quotedByte) ++ "\""

/-- A list in square brackets. -/
def bracketed (items : List String) : String :=
  "[" ++ ", ".intercalate items ++ "]"

/-- A record: its name and its fields in braces; `more` marks fields that are not shown. -/
def record (name : String) (fields : List (String × String)) (more : Bool) : String :=
  let shown := fields.map (fun f => f.1 ++ ": " ++ f.2) ++ if more then [".."] else []
  if shown.isEmpty then name
  else name ++ " \x7b " ++ ", ".intercalate shown ++ " \x7d"

/-- A named value with one unnamed part. -/
def wrapped (name part : String) : String :=
  name ++ "(" ++ part ++ ")"

/-- An optional part. -/
def optional (part : Option String) : String :=
  match part with
  | none => "None"
  | some p => wrapped "Some" p

end RpcPolicy.Text
