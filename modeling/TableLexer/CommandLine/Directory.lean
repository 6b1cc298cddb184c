/-
**A directory tree held in memory.**

Files are listed with their paths; every beginning of a path is a directory. A path is looked up as a
file system does it: `.` and empty parts stay where they are, `..` goes up, a part behind a file is an
error, and so is a part that is not there or whose name is too long.

The tree lies somewhere in a file system of which little is known: above the top there are directories
and no files, and a path that begins with a slash finds an empty `/dev/null`, standard input as
`/dev/stdin`, and nothing else.
-/

import TableLexer.Tokenize

namespace TableLexer.CommandLine

/-- Why a file cannot be opened. -/
inductive OpenError where
  | notFound
  | notADirectory
  | nameTooLong
  | other (message : String)
  deriving DecidableEq, Repr

/-- The message of the error. -/
def OpenError.message : OpenError → String
  | notFound => "No such file or directory (os error 2)"
  | notADirectory => "Not a directory (os error 20)"
  | nameTooLong => "File name too long (os error 36)"
  | other message => message

/-- What an attempt to read a directory fails with. -/
def isDirectoryMessage : String := "Is a directory (os error 21)"

/-- The parts of a path between its slashes. -/
def pathParts (path : String) : List (List Char) :=
  path.toList.splitOn '/'

/-- Files by the parts of their paths, and what standard input holds. -/
structure Directory where
  files : List (List (List Char) × ByteArray) := []
  standardInput : ByteArray := .empty

namespace Directory

/-- A tree of files by path. Of files with the same path the last one stays. -/
def ofFiles (files : List (String × ByteArray)) : Directory :=
  { files := (files.map fun (path, content) => (pathParts path, content)).reverse }

/-- The content of the file at a place. -/
def file? (directory : Directory) (place : List (List Char)) : Option ByteArray :=
  directory.files.lookup place

/-- There is a directory at a place: the top, or the beginning of the path of a file. -/
def isDirectory (directory : Directory) (place : List (List Char)) : Bool :=
  place.isEmpty ||
    directory.files.any fun (path, _) => decide (place.length < path.length) && place.isPrefixOf path

/-- The part of a path stays at its directory or goes up. -/
def isRelative (part : List Char) : Bool := part.isEmpty || part = ['.'] || part = ['.', '.']

/-- The most bytes that the name of a file may have. -/
def nameBound : Nat := 255

/-- The number of bytes that a path has to stay below. -/
def pathBound : Nat := 4096

/-- Follows the parts of a path from a place. -/
def follow (directory : Directory) :
    List (List Char) → List (List Char) → Except OpenError (List (List Char))
  | place, [] => .ok place
  | place, part :: rest =>
    if !directory.isDirectory place then
      .error (if (directory.file? place).isSome then .notADirectory else .notFound)
    else if part.isEmpty || part = ['.'] then directory.follow place rest
    else if part = ['.', '.'] then
      if place.isEmpty then if rest.all isRelative then .ok [] else .error .notFound
      else directory.follow place.dropLast rest
    else if nameBound < Text.byteLength part then .error .nameTooLong
    else directory.follow (place ++ [part]) rest

/-- Opens the file at the end of a path in parts. A directory can be opened, but reading it fails. -/
def openParts? (directory : Directory) (parts : List (List Char)) : Except OpenError Input := do
  let place ← directory.follow [] parts
  match directory.file? place with
  | some bytes => return { bytes }
  | none =>
    if directory.isDirectory place then
      return { bytes := .empty, failure := some isDirectoryMessage }
    else throw .notFound

/-- What can be found from the root of the file system. -/
def fromRoot (directory : Directory) : Directory :=
  ofFiles [("dev/null", .empty), ("dev/stdin", directory.standardInput)]

/-- Opens the file that a path names. -/
def open? (directory : Directory) (path : String) : Except OpenError Input :=
  if path.isEmpty then .error .notFound
  else if pathBound ≤ path.utf8ByteSize then .error .nameTooLong
  else
    match pathParts path with
    | [] :: parts => directory.fromRoot.openParts? parts
    | parts => directory.openParts? parts

end Directory

end TableLexer.CommandLine
