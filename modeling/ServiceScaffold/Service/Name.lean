import ServiceScaffold.Path
import ServiceScaffold.Text.UpperCase

/-!
# Names around a service file

A service is a TypeScript source file. The file's last name without `.ts` is the service's logical
name, and every other name is derived from that one: the name of its class, the base name of the
controller that belongs to it, the controller's class and the controller's file.
-/

namespace ServiceScaffold

/-- The ending of a source file. -/
def sourceSuffix : Text := ".ts"

/-- What marks the logical name of a service. -/
def serviceMarker : Text := ".service"

/-- The ending of a controller file. -/
def controllerSuffix : Text := ".controller.ts"

/-- A service file: its path as it was given, and the logical name read off it. -/
structure ServiceFile where
  fileName : Path
  logicalName : Text
  deriving DecidableEq, Repr

namespace ServiceFile

/-- Reads the logical name off a path. A path without a last name, or whose last name is not a
non-empty text before `.ts`, is no service file. -/
def ofPath? (path : Path) : Option ServiceFile := do
  let base ← Path.fileName? path
  let logicalName ← Text.beforeSuffix? sourceSuffix base
  if logicalName.isEmpty then none else some ⟨path, logicalName⟩

/-- The logical name without its first service marker. -/
def baseName (file : ServiceFile) : Text :=
  Text.removeFirst serviceMarker file.logicalName

/-- The service's class: the parts between the dots of the logical name, each capitalized. -/
def serviceType (file : ServiceFile) : Text :=
  (file.logicalName.splitOn '.').flatMap Text.capitalize

/-- The controller's class. -/
def controllerType (file : ServiceFile) : Text :=
  Text.capitalize file.baseName ++ "Controller"

/-- The name of the controller's file. -/
def controllerFile (file : ServiceFile) : Text :=
  file.baseName ++ controllerSuffix

end ServiceFile

end ServiceScaffold
