import RpcPolicy.Json.Value
/-! Writing a document without blanks. -/

namespace RpcPolicy.Json

/-- A hexadecimal digit in lower case. -/
def hexChar (n : Nat) : Char :=
  if n < 10 then Char.ofNat (48 + n) else Char.ofNat (87 + n)

/-- A character as it stands in a string of a document. -/
def escapedChar (c : Char) : List Char :=
  if c = '"' then ['\\', '"']
  else if c = '\\' then ['\\', '\\']
  else if c = '\x08' then ['\\', 'b']
  else if c = '\x0c' then ['\\', 'f']
  else if c = '\n' then ['\\', 'n']
  else if c = '\r' then ['\\', 'r']
  else if c = '\t' then ['\\', 't']
  else if c.toNat < 32 then
    ['\\', 'u', '0', '0', hexChar (c.toNat / 16), hexChar (c.toNat % 16)]
  else [c]

/-- A string of a document; a broken one is written as empty. -/
def stringChars (s : JsonText) : List Char :=
  '"' :: (s.getD "").toList.flatMap escapedChar ++ ['"']

mutual

/-- The characters of a value. -/
def chars : Json → List Char
  | null => "null".toList
  | bool b => (if b then "true" else "false").toList
  | number n => n.chars true
  | string s => stringChars s
  | array items => '[' :: itemChars items ++ [']']
  | object members => '\x7b' :: memberChars members ++ ['\x7d']

def itemChars : List Json → List Char
  | [] => []
  | [j] => j.chars
  | j :: rest => j.chars ++ ',' :: itemChars rest

def memberChars : List (JsonText × Json) → List Char
  | [] => []
  | [(name, j)] => stringChars name ++ ':' :: j.chars
  | (name, j) :: rest => stringChars name ++ ':' :: j.chars ++ ',' :: memberChars rest

end

/-- The text of a value. -/
def render (j : Json) : String :=
  String.ofList j.chars

end RpcPolicy.Json
