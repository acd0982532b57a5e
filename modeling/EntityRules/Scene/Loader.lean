import EntityRules.Scene.File

/-!
# Loading scenes

**Input.**  Paths of scenes, and the files.

**Algorithm.**  Requests wait in a queue of fixed length and are served in order; what was
loaded waits in a second queue until it is taken.

**Results.**  `Loader.request` refuses a path exactly when the queue is full.
-/

namespace EntityRules

/-- The requests that wait and the scenes that were loaded. -/
structure Loader where
  requests : List String := []
  results : List (Except SceneError Scene) := []

namespace Loader

/-- The length of the queue of requests. -/
def depth : Nat := 4

/-- Adds a request; also whether there was room for it. -/
def request (l : Loader) (path : String) : Loader × Bool :=
  if l.requests.length < depth then ({ l with requests := l.requests ++ [path] }, true)
  else (l, false)

/-- Serves all requests. -/
def serve (l : Loader) (file : String → Option ByteArray) : Loader where
  requests := []
  results := l.results ++ l.requests.map fun path => Scene.load path (file path)

/-- Takes the scene that was loaded first. -/
def poll (l : Loader) : Loader × Option (Except SceneError Scene) :=
  match l.results with
  | [] => (l, none)
  | result :: rest => ({ l with results := rest }, some result)

end Loader
end EntityRules
