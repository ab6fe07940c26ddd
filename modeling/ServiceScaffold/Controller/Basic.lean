import ServiceScaffold.Service.Extraction
import ServiceScaffold.Service.Name

/-!
# Controllers

The controller that belongs to a service: one route for each of the service's public methods, whose
path and handler are the method's name. Its text forwards every request to the service.
-/

namespace ServiceScaffold

/-- A route: its path, its handler, the parameters that the handler declares besides the usual two,
and the arguments that it forwards. -/
structure Route where
  path : Text
  handler : Text
  declared : List Text
  forwarded : List Text
  deriving DecidableEq, Repr

/-- A controller: its class, the base name of its service, the service's class, its routes and the
name of its file. -/
structure Controller where
  className : Text
  baseName : Text
  serviceType : Text
  routes : List Route
  fileName : Text
  deriving DecidableEq, Repr

namespace Route

/-- The route of a method. -/
def ofSignature (signature : MethodSignature) : Route :=
  ⟨signature.name, signature.name, signature.declared, signature.forwarded⟩

/-- The declaration of one more parameter of a handler. -/
def declaration (name : Text) : Text := ", " ++ name ++ ": any"

/-- The text of a route. -/
def render (route : Route) : Text :=
  "\n  @Get('" ++ route.path ++ "')\n  async " ++ route.handler
    ++ "(@Query() query: any, @Body() body: any"
    ++ route.declared.flatMap declaration
    ++ ") \x7b\n    // TODO: Map parameters correctly\n    return this.service."
    ++ route.handler ++ "(" ++ List.intercalate ", " route.forwarded ++ ");\n  \x7d\n"

end Route

namespace Controller

/-- The controller of a service file with these methods. -/
def ofMethods (file : ServiceFile) (methods : MethodMap) : Controller where
  className := file.controllerType
  baseName := file.baseName
  serviceType := file.serviceType
  routes := methods.signatures.map Route.ofSignature
  fileName := file.controllerFile

/-- The controller of a service file with this source. -/
def ofSource (file : ServiceFile) (source : Text) : Controller :=
  ofMethods file (extractMethods source)

/-- The text of a controller. -/
def render (controller : Controller) : Text :=
  "import \x7b Controller, Get, Post, Body, Query \x7d from '@nestjs/common';\nimport \x7b "
    ++ controller.serviceType ++ " \x7d from '../services/" ++ controller.baseName
    ++ ".service';\n\n@Controller('" ++ controller.baseName ++ "')\nexport class "
    ++ controller.className ++ " \x7b\n  constructor(private readonly service: "
    ++ controller.serviceType ++ ") \x7b\x7d\n" ++ controller.routes.flatMap Route.render
    ++ "\n\x7d\n"

end Controller

end ServiceScaffold
