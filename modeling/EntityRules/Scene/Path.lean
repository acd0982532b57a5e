/-!
# Paths of scenes

**Input.**  The path of a scene and the path that one of its rules asks for.

**Algorithm.**  A path that begins with a slash stands for itself.  Every other path is taken
relative to the directory of the scene: the path of the scene without its last component.
Slashes at the end, and single dots as components after the first, do not count.

**Results.**  `ScenePath.resolve` joins the two.
-/

namespace EntityRules
namespace ScenePath

/-- A reversed path without slashes and single dots at its end; a lone slash stays. -/
def trimReversed : List Char → List Char
  | ['/'] => ['/']
  | '/' :: rest => trimReversed rest
  | '.' :: '/' :: rest => trimReversed ('/' :: rest)
  | path => path

/-- The path without its last component, if it has one. -/
def parent? (path : String) : Option String :=
  match trimReversed path.toList.reverse with
  | [] => none
  | ['/'] => none
  | reversed => some (String.ofList (trimReversed (reversed.dropWhile (· ≠ '/'))).reverse)

/-- Appends a path to a directory. -/
def join (directory path : String) : String :=
  if directory = "" then path
  else if directory.endsWith "/" then directory ++ path
  else directory ++ "/" ++ path

/-- The path that a request means when the given scene makes it. -/
def resolve (scene request : String) : String :=
  if request.startsWith "/" then request
  else
    match parent? scene with
    | some directory => join directory request
    | none => request

end ScenePath
end EntityRules
