/-
**What a language is known by**: its names, its files and its media types.

Names and media types are compared without regard to ASCII case, file names exactly.
-/

import TableLexer.Table.Glob

namespace TableLexer

/-- The two texts are equal up to the case of ASCII letters. -/
def equalUpToCase (first second : String) : Bool :=
  first.toList.map Char.toLower == second.toList.map Char.toLower

/-- Facts about a language. -/
structure Descriptor where
  /-- The canonical name; tables are kept under it. -/
  name : String
  aliases : List String := []
  /-- Globs of file names, such as `*.java`. -/
  filenames : List String := []
  mimetypes : List String := []
  description : String := ""
  deriving DecidableEq, Repr

/-- The part of a path behind its last slash or backslash. -/
def fileName (path : String) : String :=
  String.ofList (path.toList.reverse.takeWhile fun c => c != '/' && c != '\\').reverse

namespace Descriptor

/-- The name is the canonical one or an alias. -/
def answersTo (descriptor : Descriptor) (name : String) : Bool :=
  equalUpToCase descriptor.name name || descriptor.aliases.any (equalUpToCase · name)

/-- One of the globs matches the file that the path names. -/
def matchesFilename (descriptor : Descriptor) (path : String) : Bool :=
  descriptor.filenames.any (globMatches · (fileName path))

/-- The media type is one of the language's. -/
def matchesMimetype (descriptor : Descriptor) (mimetype : String) : Bool :=
  descriptor.mimetypes.any (equalUpToCase · mimetype)

end Descriptor

end TableLexer
