import SqlAssembly.Config.Json
import SqlAssembly.Config.Toml

/-!
# Configuration files

The extension of a file's name says how the file is read: `json`, in any case of its letters, as
JSON, and every other one as TOML. A path that leads to no file has a cause for it, which depends on
the directories that are there.
-/

namespace SqlAssembly.Config

/-! ### Paths that lead to no file -/

/-- Why a file cannot be read. -/
inductive ReadFailure where
  | notFound
  /-- The path goes on behind a file. -/
  | notDirectory
  | isDirectory
  /-- A path or a name on it has more bytes than there may be. -/
  | nameTooLong
  /-- A path may not hold a NUL. -/
  | nulInPath
  deriving DecidableEq, Repr

namespace ReadFailure

/-- The cause in words. -/
def reason : ReadFailure → String
  | notFound => "No such file or directory (os error 2)"
  | notDirectory => "Not a directory (os error 20)"
  | isDirectory => "Is a directory (os error 21)"
  | nameTooLong => "File name too long (os error 36)"
  | nulInPath => "file name contained an unexpected NUL byte"

/-- The most bytes of a name. -/
def maxName : Nat := 255

/-- The most bytes of a path. -/
def maxPath : Nat := 4095

/-- Directories that every system has, as the names that lead to them from the root. -/
def systemDirectories : List (List String) :=
  [["bin"], ["dev"], ["etc"], ["home"], ["lib"], ["opt"], ["proc"], ["root"], ["sbin"], ["sys"],
    ["tmp"], ["usr"], ["usr", "bin"], ["usr", "lib"], ["usr", "local"], ["var"], ["var", "tmp"]]

/-- Files that every system has. -/
def systemFiles : List (List String) := [["dev", "null"], ["etc", "passwd"]]

/-- The names of a path, with an empty one wherever a slash has no name beside it. -/
def names : List Char → List (List Char)
  | [] => [[]]
  | '/' :: cs => [] :: names cs
  | c :: cs =>
    match names cs with
    | [] => [[c]]
    | name :: rest => (c :: name) :: rest

/-- Why names lead to no file from a directory. Its own names from the root are given, or nothing
if it is the working directory or one above it; only the directories of every system are there. -/
def follow : Option (List String) → List (List Char) → ReadFailure
  | _, [] => isDirectory
  | place, name :: rest =>
    if name = [] ∨ name = ['.'] then follow place rest
    else if name = ['.', '.'] then follow (place.map List.dropLast) rest
    else if maxName < (String.ofList name).utf8ByteSize then nameTooLong
    else
      match place.map (· ++ [String.ofList name]) with
      | none => notFound
      | some place =>
        if place ∈ systemDirectories then follow (some place) rest
        else if place ∈ systemFiles then notDirectory
        else notFound

/-- Why a path that leads to no file cannot be read. -/
def ofMissing (path : String) : ReadFailure :=
  if path.toList.contains '\x00' then nulInPath
  else if path.isEmpty then notFound
  else if maxPath < path.utf8ByteSize then nameTooLong
  else follow (if path.toList.head? = some '/' then some [] else none) (names path.toList)

end ReadFailure

/-! ### Loading -/

/-- The last part of a path. -/
def fileName (path : List Char) : List Char :=
  (path.reverse.takeWhile (· != '/')).reverse

/-- The extension of a path: what follows the last dot of its file name, unless the dot comes
first. -/
def extension? (path : String) : Option (List Char) :=
  let name := fileName path.toList
  let ext := (name.reverse.takeWhile (· != '.')).reverse
  if ext.length + 1 < name.length then some ext else none

/-- Whether a path is that of a JSON file. -/
def isJsonPath (path : String) : Bool :=
  match extension? path with
  | some ext => Text.isKeyword "json" ext
  | none => false

/-- The configuration of a file, given what reading the path gave. -/
def load (path : String) (content : Except ReadFailure String) : Except SqlError Config :=
  match content with
  | .error e => .error (.unreadableFile path e.reason)
  | .ok text => if isJsonPath path then ofJson text else ofToml text

end SqlAssembly.Config
