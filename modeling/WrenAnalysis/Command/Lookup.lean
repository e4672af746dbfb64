/-
# What a command looks at

The places of the disk that a run may look at, as far as they can be told from a
part of the disk.  A disk that is known at all of its own places is known well
enough for the run; so the part that a run needs is found by asking for places
until none is new.
-/

import WrenAnalysis.Command.Run

namespace WrenAnalysis
namespace Command

/-- The places of the settings files of a command. -/
def settingsPlaces (d : Disk) (c : Context) : List (List String) :=
  match c.config with
  | some path => d.waypoints path
  | none => (Path.ancestors (Disk.absolute d.cwd)).map fun dir =>
      d.locate (Path.join dir Settings.fileName)

/-- The places of the imports of a file. -/
def importPlaces (d : Disk) (searchPaths : List String) :
    List String × DiskNode → List (List String)
  | (_, .directory) => []
  | (place, .file text) =>
    match Module.parse text with
    | .error _ => []
    | .ok m => m.importLiterals.flatMap fun literal =>
      (ImportPath.candidates (Disk.absolute place.dropLast) (ImportPath.file literal)
        searchPaths).map d.locate

/-- The places that an analysis of files looks at. -/
def analysisPlaces (m : Machine) (c : Context) (files : List String) : List (List String) :=
  let searchPaths := match settings m c with
    | .ok s => s.searchPaths
    | .error _ => []
  settingsPlaces m.disk c ++ files.flatMap m.disk.waypoints ++
    m.disk.nodes.flatMap (importPlaces m.disk searchPaths)

/-- The places that a command line looks at. -/
def places (m : Machine) (arguments : List String) : List (List String) :=
  match Request.ofArguments arguments with
  | some (.index files c _) => analysisPlaces m c files
  | some (.signature _ files c) => analysisPlaces m c files
  | some (.tokens file) => m.disk.waypoints file
  | some (.check file) => m.disk.waypoints file
  | _ => []

end Command
end WrenAnalysis
