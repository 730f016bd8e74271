/-!
# Paths

Paths are texts of segments between slashes. Empty segments and, but for the first, segments `.`
stand for nothing.
-/

namespace GridGame.Path

/-- The segments between the slashes of a path. -/
def segments (path : String) : List String :=
  (path.toList.splitOn '/').map String.ofList

/-- Drop the segments at the end that stand for nothing, but never the first. -/
def trimEnd : List String → List String
  | [] => []
  | first :: rest =>
    first :: (rest.reverse.dropWhile fun s => s = "" || s = ".").reverse

/-- Segments as a path. A lone empty segment is the root. -/
def ofSegments : List String → String
  | [""] => "/"
  | parts => String.intercalate "/" parts

/-- The path without its last segment. The empty path and the root have none. -/
def parent? (path : String) : Option String :=
  match trimEnd (segments path) with
  | [] | [""] => none
  | parts => some (ofSegments (trimEnd parts.dropLast))

/-- The paths that lead to a path, from the shortest to the path itself. -/
def leading (path : String) : List String :=
  let parts := segments path
  (List.range parts.length).map fun n => ofSegments (parts.take (n + 1))

/-- The path of a file in a directory. -/
def join (directory name : String) : String :=
  if directory = "" then name
  else if directory.endsWith "/" then directory ++ name
  else directory ++ "/" ++ name

/-- The part of a file name before its last dot, unless the name starts with that dot. -/
def stem (name : String) : String :=
  let cs := name.toList.reverse
  match cs.dropWhile (· ≠ '.') with
  | _ :: c :: rest => String.ofList (c :: rest).reverse
  | _ => name

/-- The part of a file name after its last dot, unless the name starts with that dot. -/
def extension? (name : String) : Option String :=
  if stem name = name then none
  else some (String.ofList (name.toList.drop ((stem name).length + 1)))

/-- The name of the file that a path leads to. A path that ends in a dot segment names none. -/
def fileName? (path : String) : Option String :=
  match (trimEnd (segments path)).getLast? with
  | none | some "" | some "." | some ".." => none
  | some name => some name

/-- The path without as many characters at its end as the extension of its file name has. -/
def dropExtension (path : String) : String :=
  let length := (((fileName? path).bind extension?).map String.length).getD 0
  String.ofList (path.toList.take (path.length - length))

/-- The path whose file name ends in an extension after its stem. A path that names no file is
kept. -/
def setExtension (path extension : String) : String :=
  match fileName? path with
  | none => path
  | some name => ofSegments ((trimEnd (segments path)).dropLast ++ [stem name ++ "." ++ extension])

/-- The path with another extension of its file name. What is left without the old extension may
be a dot segment, which takes none. -/
def withExtension (path extension : String) : String :=
  setExtension (dropExtension path) extension

/-- The path without the slashes at its end, unless it is nothing but slashes. -/
def trimSlashes (path : String) : String :=
  match path.toList.reverse.dropWhile (· = '/') with
  | [] => path
  | kept => String.ofList kept.reverse

end GridGame.Path
