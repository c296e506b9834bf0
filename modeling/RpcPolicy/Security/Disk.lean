/-! Files by path, in a directory of files and empty directories. -/

namespace RpcPolicy

/-- Why a file cannot be read. -/
inductive DiskError where
  | notFound
  | notADirectory
  | isADirectory
  | nameTooLong
  | zeroByte
deriving DecidableEq

/-- The text of the system for a fault. -/
def DiskError.text : DiskError → String
  | notFound => "No such file or directory (os error 2)"
  | notADirectory => "Not a directory (os error 20)"
  | isADirectory => "Is a directory (os error 21)"
  | nameTooLong => "File name too long (os error 36)"
  | zeroByte => "file name contained an unexpected NUL byte"

/-- What reading the file of a path gives. -/
abbrev Disk := String → Except DiskError (List UInt8)

namespace Disk

/-- A file with its bytes, or an empty directory. -/
abbrev Node := Option (List UInt8)

/-- The longest path the system takes, in bytes. -/
def pathLimit : Nat := 4096

/-- The longest name in a path, in bytes. -/
def nameLimit : Nat := 255

/-- Where a path has led: the directory itself or one of its empty directories, a file, or out of
what is known. -/
inductive Place where
  | root
  | directory
  | file (bytes : List UInt8)
  | outside

/-- Follows one name of a path. -/
def enter (nodes : List (String × Node)) (place : Place) (name : String) :
    Except DiskError Place :=
  match place with
  | .file _ => .error .notADirectory
  | _ =>
    if name = "" || name = "." then .ok place
    else if name = ".." then
      match place with
      | .directory => .ok .root
      | _ => .ok .outside
    else if nameLimit < name.utf8ByteSize then .error .nameTooLong
    else
      match place with
      | .root =>
        match nodes.lookup name with
        | none => .error .notFound
        | some none => .ok .directory
        | some (some bytes) => .ok (.file bytes)
      | _ => .error .notFound

/-- The disk of a directory with the given nodes, against which paths are resolved. -/
def ofNodes (nodes : List (String × Node)) : Disk := fun path =>
  if path.toList.contains '\x00' then .error .zeroByte
  else if path = "" then .error .notFound
  else if pathLimit ≤ path.utf8ByteSize then .error .nameTooLong
  else
    let start := if path.startsWith "/" then Place.outside else Place.root
    match (path.splitOn "/").foldlM (enter nodes) start with
    | .error e => .error e
    | .ok (.file bytes) => .ok bytes
    | .ok _ => .error .isADirectory

end Disk

end RpcPolicy
