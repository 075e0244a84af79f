/-!
# Path names

Path names as text, and what can be said of them without looking at any file: their parts, the
directory they are in, how one continues another. Repeated slashes and single dots that are not at
the beginning are no parts.
-/

namespace SoftwareCensus.Files

/-- Whether a path name starts at the root. -/
def isAbsolute (path : String) : Bool := path.startsWith "/"

/-- The pieces between slashes behind the root, if there is one. -/
private def segments (path : String) : List String :=
  if isAbsolute path then ((path.drop 1).toString).splitOn "/" else path.splitOn "/"

/-- Removes the pieces at the end, held in reverse, that are no parts. -/
private def trimEnd (absolute : Bool) : List String → List String
  | [] => []
  | s :: rest =>
    if s == "" || (s == "." && (absolute || !rest.isEmpty)) then trimEnd absolute rest
    else s :: rest

/-- The last part of a path name, if it names something in its directory. -/
def fileName? (path : String) : Option String :=
  match trimEnd (isAbsolute path) (segments path).reverse with
  | [] => none
  | last :: _ => if last == ".." || last == "." then none else some last

/-- The path name without its last part; the root and the empty name have no parent. -/
def parent? (path : String) : Option String :=
  let absolute := isAbsolute path
  match trimEnd absolute (segments path).reverse with
  | [] => none
  | _ :: rest =>
    let kept := "/".intercalate (trimEnd absolute rest).reverse
    some (if absolute then "/" ++ kept else kept)

/-- What a path name means when it is looked up in a directory. -/
def join (directory path : String) : String :=
  if isAbsolute path then path
  else if directory == "" || directory.endsWith "/" then directory ++ path
  else directory ++ "/" ++ path

/-- The part of a file name behind its last dot; a dot at the beginning does not count. -/
def extension? (path : String) : Option String :=
  match fileName? path with
  | none => none
  | some name =>
    match (name.splitOn ".").reverse with
    | [] | [_] => none
    | last :: before => if before == [""] then none else some last

/-- The parts of a path name in which every dot and slash without a meaning is gone. -/
def parts (path : String) : List String :=
  (segments path).filter fun s => s != "" && s != "."

end SoftwareCensus.Files
