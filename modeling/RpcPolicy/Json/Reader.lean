import RpcPolicy.Json.Library
import RpcPolicy.Json.Writer
/-! Reading a document from text, and a library that keeps every finite double. -/

namespace RpcPolicy.Json.Reader

/-- Blanks between the parts of a document. -/
def isBlank (c : Char) : Bool :=
  c = ' ' || c = '\n' || c = '\t' || c = '\r'

def skipBlanks (cs : List Char) : List Char :=
  cs.dropWhile isBlank

/-! ### Numerals -/

/-- A whole number without needless leading zeros. -/
def whole? (cs : List Char) : Option (Nat × List Char) :=
  match cs with
  | '0' :: rest =>
    match rest with
    | c :: _ => if c.isDigit then none else some (0, rest)
    | [] => some (0, rest)
  | c :: _ =>
    if c.isDigit then
      some (Nat.ofDigitChars 10 (cs.takeWhile Char.isDigit) 0, cs.dropWhile Char.isDigit)
    else none
  | [] => none

/-- At least one digit. -/
def digits? (cs : List Char) : Option (List Char × List Char) :=
  match cs.takeWhile Char.isDigit with
  | [] => none
  | ds => some (ds, cs.dropWhile Char.isDigit)

/-- The digits after a point, none if there is no point. -/
def fraction? (cs : List Char) : Option (List Char × List Char) :=
  match cs with
  | '.' :: rest => digits? rest
  | _ => some ([], cs)

/-- A power of ten with or without a sign. -/
def exponent? (cs : List Char) : Option (Option Int × List Char) :=
  let signed (negative : Bool) (rest : List Char) : Option (Option Int × List Char) :=
    (digits? rest).map fun (ds, rest) =>
      let n : Int := Nat.ofDigitChars 10 ds 0
      (some (if negative then -n else n), rest)
  match cs with
  | c :: rest =>
    if c = 'e' || c = 'E' then
      match rest with
      | '-' :: rest => signed true rest
      | '+' :: rest => signed false rest
      | _ => signed false rest
    else some (none, cs)
  | [] => some (none, cs)

/-- A numeral without its sign. -/
def unsigned? (negative : Bool) (cs : List Char) : Option (Numeral × List Char) :=
  (whole? cs).bind fun (w, cs) =>
    (fraction? cs).bind fun (f, cs) =>
      (exponent? cs).map fun (e, cs) => (⟨negative, w, f, e⟩, cs)

def numeral? (cs : List Char) : Option (Numeral × List Char) :=
  match cs with
  | '-' :: rest => unsigned? true rest
  | _ => unsigned? false cs

/-! ### Strings -/

/-- The value of a hexadecimal digit. -/
def hexDigit? (c : Char) : Option Nat :=
  if '0' ≤ c && c ≤ '9' then some (c.toNat - '0'.toNat)
  else if 'a' ≤ c && c ≤ 'f' then some (c.toNat - 'a'.toNat + 10)
  else if 'A' ≤ c && c ≤ 'F' then some (c.toNat - 'A'.toNat + 10)
  else none

/-- The value of four hexadecimal digits. -/
def hexUnit? (a b c d : Char) : Option Nat :=
  (hexDigit? a).bind fun a => (hexDigit? b).bind fun b => (hexDigit? c).bind fun c =>
    (hexDigit? d).map fun d => ((a * 16 + b) * 16 + c) * 16 + d

/-- The character of a short escape. -/
def escaped? (c : Char) : Option Char :=
  if c = '"' || c = '\\' || c = '/' then some c
  else if c = 'b' then some '\x08'
  else if c = 'f' then some '\x0c'
  else if c = 'n' then some '\n'
  else if c = 'r' then some '\r'
  else if c = 't' then some '\t'
  else none

/-- The code units of a string up to its closing quote, and what follows it. -/
def units? : List Char → Option (List Nat × List Char)
  | [] => none
  | '"' :: rest => some ([], rest)
  | '\\' :: 'u' :: a :: b :: c :: d :: rest =>
    (hexUnit? a b c d).bind fun u => (units? rest).map fun (us, rest) => (u :: us, rest)
  | '\\' :: c :: rest =>
    (escaped? c).bind fun c => (units? rest).map fun (us, rest) => (c.toNat :: us, rest)
  | c :: rest =>
    if c = '\\' || c.toNat < 32 then none
    else (units? rest).map fun (us, rest) => (c.toNat :: us, rest)

/-- Whether a code unit is the first half of a pair. -/
def isHigh (u : Nat) : Bool := 0xd800 ≤ u && u < 0xdc00

/-- Whether a code unit is the second half of a pair. -/
def isLow (u : Nat) : Bool := 0xdc00 ≤ u && u < 0xe000

/-- Joins the pairs among code units, if no half stands alone. -/
def joinPairs? : List Nat → Option (List Char)
  | [] => some []
  | u :: rest =>
    if isHigh u then
      match rest with
      | v :: rest =>
        if isLow v then
          (joinPairs? rest).map (Char.ofNat (0x10000 + (u - 0xd800) * 0x400 + (v - 0xdc00)) :: ·)
        else none
      | [] => none
    else if isLow u then none
    else (joinPairs? rest).map (Char.ofNat u :: ·)

/-- A string after its opening quote. -/
def string? (cs : List Char) : Option (JsonText × List Char) :=
  (units? cs).map fun (us, rest) => ((joinPairs? us).map String.ofList, rest)

/-! ### Values -/

/-- What follows a fixed word. -/
def word? (word cs : List Char) : Option (List Char) :=
  if word.isPrefixOf cs then some (cs.drop word.length) else none

mutual

/-- A value at the front of a text without leading blanks. -/
def value? : Nat → List Char → Option (Json × List Char)
  | 0, _ => none
  | fuel + 1, cs =>
    match cs with
    | [] => none
    | '"' :: rest => (string? rest).map fun (s, rest) => (.string s, rest)
    | '[' :: rest =>
      match skipBlanks rest with
      | ']' :: rest => some (.array [], rest)
      | rest => (items? fuel rest).map fun (js, rest) => (.array js, rest)
    | '\x7b' :: rest =>
      match skipBlanks rest with
      | '\x7d' :: rest => some (.object [], rest)
      | rest => (members? fuel rest).map fun (ms, rest) => (.object ms, rest)
    | 'n' :: _ => (word? "null".toList cs).map fun rest => (.null, rest)
    | 't' :: _ => (word? "true".toList cs).map fun rest => (.bool true, rest)
    | 'f' :: _ => (word? "false".toList cs).map fun rest => (.bool false, rest)
    | _ => (numeral? cs).map fun (n, rest) => (.number n, rest)

/-- The items of an array up to its closing bracket. -/
def items? : Nat → List Char → Option (List Json × List Char)
  | 0, _ => none
  | fuel + 1, cs =>
    (value? fuel cs).bind fun (j, rest) =>
      match skipBlanks rest with
      | ',' :: rest => (items? fuel (skipBlanks rest)).map fun (js, rest) => (j :: js, rest)
      | ']' :: rest => some ([j], rest)
      | _ => none

/-- The members of an object up to its closing brace. -/
def members? : Nat → List Char → Option (List (JsonText × Json) × List Char)
  | 0, _ => none
  | fuel + 1, cs =>
    match cs with
    | '"' :: rest =>
      (string? rest).bind fun (name, rest) =>
        match skipBlanks rest with
        | ':' :: rest =>
          (value? fuel (skipBlanks rest)).bind fun (j, rest) =>
            match skipBlanks rest with
            | ',' :: rest =>
              (members? fuel (skipBlanks rest)).map fun (ms, rest) => ((name, j) :: ms, rest)
            | '\x7d' :: rest => some ([(name, j)], rest)
            | _ => none
        | _ => none
    | _ => none

end

end Reader

/-- The value a text holds, with nothing but blanks around it. -/
def parse? (s : String) : Option Json :=
  let cs := Reader.skipBlanks s.toList
  (Reader.value? (2 * cs.length + 1) cs).bind fun (j, rest) =>
    if (Reader.skipBlanks rest).isEmpty then some j else none

/-- Doubles are written with their shortest numerals and read as the nearest ones. -/
def Library.exact : Library where
  write := render
  read? := parse?
  numeral
    | .finite negative units _ => NumberStyle.json.numeral negative units
    | _ => default
  double? n := if n.toBinary64.isFinite then some n.toBinary64 else none

end RpcPolicy.Json
