/-! The names a server certificate is checked against: host names and addresses. -/

namespace RpcPolicy.ServerName

/-- A letter, a digit, a hyphen or an underscore. -/
def isLabelChar (c : Char) : Bool :=
  c.isAlphanum || c = '-' || c = '_'

/-- A part of a host name: 1 to 63 characters without a hyphen at either end. -/
def isLabel (label : String) : Bool :=
  let cs := label.toList
  0 < cs.length && cs.length ≤ 63 && cs.all isLabelChar && cs.head? != some '-' &&
    cs.getLast? != some '-'

/-- A host name: at most 253 characters, labels between dots, perhaps a dot behind the last one,
which is not a number. -/
def isHostName (s : String) : Bool :=
  let parts := s.splitOn "."
  let labels := if 1 < parts.length && parts.getLast? == some "" then parts.dropLast else parts
  s.utf8ByteSize ≤ 253 && labels.all isLabel &&
    labels.getLast?.any fun label => !label.toList.all Char.isDigit

/-- A number from 0 to 255 without needless zeros. -/
def isOctet (s : String) : Bool :=
  let cs := s.toList
  0 < cs.length && cs.length ≤ 3 && cs.all Char.isDigit &&
    (cs.length = 1 || cs.head? != some '0') && Nat.ofDigitChars 10 cs 0 < 256

/-- An address of four numbers. -/
def isAddress4 (s : String) : Bool :=
  let parts := s.splitOn "."
  parts.length = 4 && parts.all isOctet

/-- A group of one to four hexadecimal digits. -/
def isGroup (s : String) : Bool :=
  let cs := s.toList
  0 < cs.length && cs.length ≤ 4 &&
    cs.all fun c => c.isDigit || ('a' ≤ c && c ≤ 'f') || ('A' ≤ c && c ≤ 'F')

/-- How many groups a text between colons stands for; the last part may be an address of four
numbers, which stands for two. -/
def groups? (s : String) : Option Nat :=
  if s = "" then some 0
  else
    let parts := s.splitOn ":"
    let last := (parts.getLast?).getD ""
    if !parts.dropLast.all isGroup then none
    else if isGroup last then some parts.length
    else if isAddress4 last then some (parts.length + 1)
    else none

/-- An address of eight groups, of which two colons may stand for one or more that are zero. -/
def isAddress6 (s : String) : Bool :=
  match s.splitOn "::" with
  | [whole] => groups? whole == some 8
  | [front, back] =>
    (front = "" || (front.splitOn ":").all isGroup) &&
      ((groups? front).bind fun n => (groups? back).map (n + ·)).any (· ≤ 7)
  | _ => false

/-- Whether a text is the name or the address of a server. -/
def isSound (s : String) : Bool :=
  isHostName s || isAddress4 s || isAddress6 s

end RpcPolicy.ServerName
