import SoftwareCensus.Files.PathText

/-!
# Files

What path names lead to. A view of the files says that for every path name; a tree of files in
memory is one way to have such a view.
-/

namespace SoftwareCensus.Files

/-! ## Entries -/

/-- What a path name leads to. -/
inductive Entry where
  | missing
  /-- A part on the way is no directory. -/
  | obstructed
  | directory
  | text (content : String)
  /-- A file whose content is no text. -/
  | binary
  deriving DecidableEq, Inhabited, Repr

/-- What every path name leads to. -/
abbrev View := String → Entry

/-- Why a file cannot be read. -/
inductive ReadFault where
  | missing
  | obstructed
  | directory
  | binary
  deriving DecidableEq, Inhabited, Repr

/-- The text of a fault. -/
def ReadFault.message : ReadFault → String
  | missing => "No such file or directory (os error 2)"
  | obstructed => "Not a directory (os error 20)"
  | directory => "Is a directory (os error 21)"
  | binary => "stream did not contain valid UTF-8"

namespace Entry

/-- Whether something is there. -/
def isThere : Entry → Bool
  | missing | obstructed => false
  | _ => true

/-- Whether a file is there. -/
def isFile : Entry → Bool
  | text _ | binary => true
  | _ => false

/-- The text of a file. -/
def read : Entry → Except ReadFault String
  | missing => .error .missing
  | obstructed => .error .obstructed
  | directory => .error .directory
  | binary => .error .binary
  | text content => .ok content

end Entry

/-! ## Trees -/

/-- Files and directories under a directory. -/
structure Tree where
  /-- The parts of the path name of the directory itself. -/
  root : List String := []
  /-- The parts of the path names of files under it, and what is in them. -/
  files : List (List String × String) := []
  /-- The parts of the path names of directories under it. -/
  directories : List (List String) := []
  deriving Inhabited

namespace Tree

/-- What the parts of a path name lead to under the directory. -/
def entryUnder (t : Tree) (place : List String) : Entry :=
  match t.files.find? (·.1 == place) with
  | some (_, content) => .text content
  | none =>
    if t.directories.any place.isPrefixOf || t.files.any (place.isPrefixOf ·.1) || place.isEmpty
    then .directory else .missing

/-- What the parts of an absolute path name lead to. -/
def entryAt (t : Tree) (place : List String) : Entry :=
  if place.isPrefixOf t.root then .directory
  else if t.root.isPrefixOf place then t.entryUnder (place.drop t.root.length)
  else .missing

/-- Follows the pieces of a path name from a place. -/
def walk (t : Tree) (place : List String) : List String → Entry
  | [] => t.entryAt place
  | piece :: rest =>
    match t.entryAt place with
    | .directory =>
      if piece == "" || piece == "." then walk t place rest
      else if piece == ".." then walk t place.dropLast rest
      else walk t (place ++ [piece]) rest
    | .missing => .missing
    | _ => .obstructed

/-- What a path name leads to, seen from the directory. -/
def view (t : Tree) : View := fun path =>
  if path == "" then .missing
  else t.walk (if isAbsolute path then [] else t.root) (path.splitOn "/")

end Tree

end SoftwareCensus.Files
