import ServiceScaffold.Path
import ServiceScaffold.Run.Failure
import ServiceScaffold.Text.Blank
import ServiceScaffold.Text.UpperCase

/-!
# Project options

What a project is called and where it is created. Both names become a directory, so each of them
has to be one segment of a path and not blank; `fault?` gives the first reason why the options are
refused.
-/

namespace ServiceScaffold

/-- What to create and where. -/
structure ProjectOptions where
  application : Text := "demo"
  service : Text := "default"
  /-- The version of the package. -/
  version : Text := "1.0.0"
  /-- The path or address of an OpenAPI document. -/
  document? : Option Text := none
  /-- The directory in which the project's own directory is created. -/
  outputDir : Path := "."
  /-- Are files written over that are there already? -/
  force : Bool := false
  deriving DecidableEq, Repr

namespace ProjectOptions

/-- The project's name: application and service. -/
def projectName (options : ProjectOptions) : Text :=
  options.application ++ "-" ++ options.service

/-- The project's directory. -/
def root (options : ProjectOptions) : Path := Path.join options.outputDir options.projectName

/-- The directory of the service's module. -/
def moduleDir (options : ProjectOptions) : Path :=
  Path.joinAll options.root ["src", "modules", options.service]

/-- The directory of the controllers. -/
def controllerDir (options : ProjectOptions) : Path := Path.join options.moduleDir "controllers"

/-- The directory of the services. -/
def serviceDir (options : ProjectOptions) : Path := Path.join options.moduleDir "services"

/-- The service's name as the beginning of a class name. -/
def serviceClass (options : ProjectOptions) : Text := Text.capitalize options.service

/-- Is the name more, or less, than one segment of a path? -/
def notOneSegment (name : Text) : Bool :=
  name.contains '/' || name.contains '\\' || name = "." || name = ".."

/-- Why a name is refused. -/
def nameFault? (label name : Text) : Option Failure :=
  if Text.isBlankText name then some (.blankName label)
  else if notOneSegment name then some (.notSegment label name)
  else none

/-- Why the options are refused: the application's name comes before the service's. -/
def fault? (options : ProjectOptions) : Option Failure :=
  (nameFault? "application" options.application).or (nameFault? "service" options.service)

end ProjectOptions

end ServiceScaffold
