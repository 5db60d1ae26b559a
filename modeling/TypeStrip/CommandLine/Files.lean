import TypeStrip.Text.Bytes
import TypeStrip.Text.Quoted

/-!
# Files

A directory of files as a table of paths.

* `PathFault`         why a path gives no bytes;
* `Files.read`        the bytes behind a path.
-/

namespace TypeStrip

abbrev Bytes := List UInt8

inductive PathFault where
  | notFound
  | notDirectory
  | isDirectory
  | nameTooLong
  /-- the path holds the character that ends a path -/
  | nulCharacter
  deriving DecidableEq, Repr, Inhabited

namespace PathFault

def message (path : Text) : PathFault → Text
  | notFound => "[Errno 2] No such file or directory: ".toList ++ Text.quoted path
  | notDirectory => "[Errno 20] Not a directory: ".toList ++ Text.quoted path
  | isDirectory => "[Errno 21] Is a directory: ".toList ++ Text.quoted path
  | nameTooLong => "[Errno 36] File name too long: ".toList ++ Text.quoted path
  | nulCharacter => "embedded null byte".toList

end PathFault

def pathParts : Text → List Text
  | [] => [[]]
  | c :: s =>
    if c = '/' then [] :: pathParts s
    else
      match pathParts s with
      | [] => [[c]]
      | p :: rest => (c :: p) :: rest

/-- Files and directories by their paths from one directory. -/
structure Files where
  files : List (List Text × Bytes) := []
  directories : List (List Text) := []
  deriving Repr, Inhabited

namespace Files

/-- Whether a path leads to a directory: one in the table, or one that something is in. -/
def isDirectory (d : Files) (path : List Text) : Bool :=
  path.isEmpty ||
    (d.directories ++ d.files.map fun f => f.1.dropLast).any fun q => path.isPrefixOf q

def maxPartLength : Nat := 255

def maxPathLength : Nat := 4095

/-- The bytes behind the parts of a path, walked from the directory `here`; `none` is any place
outside of the table, where nothing but directories can be found. -/
def walk (d : Files) (here : Option (List Text)) : List Text → Except PathFault Bytes
  | [] => .error .isDirectory
  | part :: rest =>
    if part = [] || part = ['.'] then walk d here rest
    else if maxPartLength < part.byteLength then .error .nameTooLong
    else
      match here with
      | none => if part = ['.', '.'] then walk d none rest else .error .notFound
      | some path =>
        if part = ['.', '.'] then walk d (if path.isEmpty then none else some path.dropLast) rest
        else if d.isDirectory (path ++ [part]) then walk d (some (path ++ [part])) rest
        else
          match d.files.lookup (path ++ [part]) with
          | none => .error .notFound
          | some bytes => if rest.isEmpty then .ok bytes else .error .notDirectory

/-- The bytes behind a path; one that begins with a slash leads outside of the table. -/
def read (d : Files) (path : Text) : Except PathFault Bytes :=
  if path.contains '\x00' then .error .nulCharacter
  else if maxPathLength < path.byteLength then .error .nameTooLong
  else
    match path with
    | [] => .error .notFound
    | c :: _ => d.walk (if c = '/' then none else some []) (pathParts path)

end Files

end TypeStrip
