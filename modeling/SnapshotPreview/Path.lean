import SnapshotPreview.Text.Affix

/-!
# Paths as text

The last name of a path and the path before it, found in the text alone. Doubled and trailing
slashes and inner `.` steps do not count.
-/

namespace SnapshotPreview

namespace Path

/-- A step that leads nowhere: nothing between two slashes, or a single dot. -/
def isIdle (segment : List Char) : Bool := segment == [] || segment == ['.']

/-- The segments of a path without the idle ones at its end, from the end to the start. The first
segment always stays: it is empty for a path from the root. -/
def trimIdle : List (List Char) → List (List Char)
  | s :: t :: rest => if isIdle s then trimIdle (t :: rest) else s :: t :: rest
  | segments => segments

/-- The segments of a path up to its last name, from the end to the start. -/
def segmentsBack (path : String) : List (List Char) :=
  trimIdle (Text.splitOn '/' path.toList).reverse

/-- The steps of a path without idle ones, which do not count when paths are compared. A path from
the root begins with an empty step, and one from the current directory keeps its first dot. -/
def steps (path : String) : List (List Char) :=
  match Text.splitOn '/' path.toList with
  | [[]] | [] => []
  | first :: rest => first :: rest.filter fun s => !isIdle s

/-- Segments, from the end to the start, as a path. -/
def ofSegmentsBack (segments : List (List Char)) : String :=
  if segments = [[]] then "/" else String.ofList (List.intercalate ['/'] segments.reverse)

/-- The last name, unless the path ends with a step to itself or upwards. -/
def fileName? (path : String) : Option String :=
  match segmentsBack path with
  | s :: _ => if s = [] || s = ['.'] || s = ['.', '.'] then none else some (String.ofList s)
  | [] => none

/-- The path before the last step. The root and the empty path have none. -/
def parent? (path : String) : Option String :=
  match segmentsBack path with
  | [] => none
  | [s] => if s = [] then none else some ""
  | _ :: before => some (ofSegmentsBack (trimIdle before))

/-- A path within a directory. -/
def join (directory name : String) : String :=
  if name.startsWith "/" || directory.isEmpty then name
  else if directory.endsWith "/" then directory ++ name
  else directory ++ "/" ++ name

/-- A name cut at its last dot, unless it has none or begins with it. -/
def splitExtension (name : List Char) : List Char × Option (List Char) :=
  match (Text.splitOn '.' name).reverse with
  | last :: before :: more =>
    let stem := List.intercalate ['.'] (before :: more).reverse
    if stem = [] then (name, none) else (stem, some last)
  | _ => (name, none)

/-- The last name without its extension. -/
def fileStem? (path : String) : Option String :=
  (fileName? path).map fun name => String.ofList (splitExtension name.toList).1

/-- The extension of the last name. -/
def extension? (path : String) : Option String :=
  (fileName? path).bind fun name => (splitExtension name.toList).2.map String.ofList

end Path

end SnapshotPreview
