import EventTaxonomy.Json.Basic

/-!
# Files

Reading text from files, with what may go wrong. A `Folder` is a directory in memory.
-/

namespace EventTaxonomy

namespace Cli

/-- Why a file cannot be read as text. -/
inductive ReadFailure where
  | notFound
  | notDirectory
  | isDirectory
  | nameTooLong
  | notText
  | other (reason : String)
  deriving DecidableEq, Repr, Inhabited

namespace ReadFailure

/-- The wording. -/
def message : ReadFailure → String
  | notFound => "No such file or directory (os error 2)"
  | notDirectory => "Not a directory (os error 20)"
  | isDirectory => "Is a directory (os error 21)"
  | nameTooLong => "File name too long (os error 36)"
  | notText => "stream did not contain valid UTF-8"
  | other reason => reason

end ReadFailure

/-- Bytes as text. -/
def textOfBytes (bytes : ByteArray) : Except ReadFailure String :=
  match String.fromUTF8? bytes with
  | some text => .ok text
  | none => .error .notText

/-- A directory in memory. Files and directories in it are known by the names on the way to
them. -/
structure Folder where
  files : List (List String × ByteArray)
  folders : List (List String)

/-- A place that a path leads to. -/
inductive Folder.Place where
  /-- A directory around the folder. -/
  | outer
  /-- The folder itself, or a directory in it. -/
  | inner (names : List String)
  | file (bytes : ByteArray)

/-- The number of bytes from which on a path is too long. -/
def pathLimit : Nat := 4096

/-- The number of bytes that a name may have. -/
def nameLimit : Nat := 255

namespace Folder

/-- Splits a path at slashes. -/
def splitPath : List Char → List (List Char)
  | [] => [[]]
  | c :: s =>
    if c = '/' then [] :: splitPath s
    else
      match splitPath s with
      | [] => [[c]]
      | part :: parts => (c :: part) :: parts

/-- The parts of a path. -/
def pathParts (path : String) : List String := (splitPath path.toList).map String.ofList

/-- Follows one part of a path that leads to an existing place. -/
def enter (names : List String) (part : String) : List String :=
  if part = "" || part = "." then names
  else if part = ".." then names.dropLast
  else names ++ [part]

/-- The folder that has files and directories at the given paths. -/
def ofPaths (files : List (String × ByteArray)) (folders : List String) : Folder where
  files := files.map fun (path, bytes) => ((pathParts path).foldl enter [], bytes)
  folders := folders.map fun path => (pathParts path).foldl enter []

/-- There is a directory under the names. -/
def hasFolder (folder : Folder) (names : List String) : Bool :=
  folder.folders.contains names || folder.files.any fun (file, _) => names.isPrefixOf file

/-- What is found under the names. -/
def find (folder : Folder) (names : List String) : Except ReadFailure Place :=
  match folder.files.lookup names with
  | some bytes => .ok (.file bytes)
  | none => if folder.hasFolder names then .ok (.inner names) else .error .notFound

/-- Follows one part of a path. -/
def follow (folder : Folder) (place : Place) (part : String) : Except ReadFailure Place :=
  match place with
  | .file _ => .error .notDirectory
  | .outer =>
    if part = "" || part = "." || part = ".." then .ok .outer
    else if nameLimit < part.utf8ByteSize then .error .nameTooLong
    else .error .notFound
  | .inner names =>
    if part = ".." && names.isEmpty then .ok .outer
    else if part = "" || part = "." || part = ".." then .ok (.inner (enter names part))
    else if nameLimit < part.utf8ByteSize then .error .nameTooLong
    else folder.find (enter names part)

/-- Follows the parts of a path. -/
def followAll (folder : Folder) (place : Place) : List String → Except ReadFailure Place
  | [] => .ok place
  | part :: parts =>
    match folder.follow place part with
    | .error e => .error e
    | .ok place => followAll folder place parts

/-- The bytes of a file. -/
def read (folder : Folder) (path : String) : Except ReadFailure ByteArray :=
  if path = "" then .error .notFound
  else if pathLimit ≤ path.utf8ByteSize then .error .nameTooLong
  else
    let start : Place := if path.toList.head? = some '/' then .outer else .inner []
    match folder.followAll start (pathParts path) with
    | .error e => .error e
    | .ok (.file bytes) => .ok bytes
    | .ok _ => .error .isDirectory

end Folder

end Cli

end EventTaxonomy
