import ServiceScaffold.Service.Name

/-!
# Settings

How the generator is started, and which files count as services. Every setting has a default, so
that a project needs no settings file at all.
-/

namespace ServiceScaffold

/-- How the generator is started. -/
structure GeneratorSettings where
  /-- The program to start. -/
  command : Text := "npx"
  /-- The package that the program is told to run; none if empty. -/
  package : Text := "@openapitools/openapi-generator-cli"
  /-- The generator's name. -/
  generator : Text := "typescript-nestjs"
  /-- Further properties, handed over in one argument. -/
  properties : List Text := ["controllerStrategy=tags"]
  deriving DecidableEq, Repr

/-- Which files count as services. -/
structure ServiceFilter where
  /-- What the name of a service file contains. -/
  marker : Text := serviceMarker
  /-- What it does not contain. -/
  exclude : List Text := ["configuration", "variables", "index", "api."]
  deriving DecidableEq, Repr

/-- The settings of a project. -/
structure Settings where
  generator : GeneratorSettings := {}
  services : ServiceFilter := {}
  deriving DecidableEq, Repr

/-- The name of a settings file beside an OpenAPI document. -/
def settingsFileName : Text := "nestgen.toml"

/-- The environment variable that names another program to start. -/
def generatorVariable : Text := "NESTGEN_OPENAPI_GENERATOR_BIN"

namespace ServiceFilter

/-- Is the name that of a service file? -/
def accepts (filter : ServiceFilter) (name : Text) : Bool :=
  sourceSuffix.isSuffixOf name && Text.occursIn filter.marker name &&
    !filter.exclude.any fun part => Text.occursIn part name

end ServiceFilter

end ServiceScaffold
