import ServiceScaffold.Project.Fixed

/-!
# Sources of a project

The source files that name the project or its service: the read-me file, the root module of the
application, the module of the service, and the controller that a project starts with when no
document says what its services are.
-/

namespace ServiceScaffold.Project

/-- A class and the path, without its ending, that it is imported from. -/
structure ModuleImport where
  className : Text
  path : Text
  deriving DecidableEq, Repr

namespace ModuleImport

/-- The import statement. -/
def statement (item : ModuleImport) : Text :=
  "import \x7b " ++ item.className ++ " \x7d from '" ++ item.path ++ "';\n"

/-- The names of the classes, separated by commas. -/
def classList (items : List ModuleImport) : Text :=
  List.intercalate ", " (items.map className)

end ModuleImport

/-- The read-me file of a project. -/
def readme (projectName service version : Text) : Text :=
  Text.ofLines [
    "# " ++ projectName,
    "",
    "NestJS microservice exposing the `" ++ service ++ "` module (version " ++ version ++ ").",
    "",
    "## Development",
    "",
    "```bash",
    "npm install",
    "npm run start:dev",
    "```",
    "",
    "## Tests",
    "",
    "```bash",
    "npm test",
    "```",
    "",
    "Controllers live in `src/modules/" ++ service ++ "/controllers`. Controllers",
    "generated from service classes forward every request to the matching service",
    "method; map query and body fields onto the service parameters before use."]

/-- The root module of an application: it imports the module of the service. -/
def appModule (service serviceClass : Text) : Text :=
  Text.ofLines [
    "import \x7b Module \x7d from '@nestjs/common';",
    "import \x7b " ++ serviceClass ++ "Module \x7d from './modules/" ++ service ++ "/" ++ service
      ++ ".module';",
    "",
    "@Module(\x7b",
    "  imports: [" ++ serviceClass ++ "Module],",
    "\x7d)",
    "export class AppModule \x7b\x7d"]

/-- The module of a service: it imports the controllers first and then the providers, and lists
both. -/
def serviceModule (serviceClass : Text) (controllers providers : List ModuleImport) : Text :=
  "import \x7b Module \x7d from '@nestjs/common';\n"
    ++ (controllers ++ providers).flatMap ModuleImport.statement
    ++ Text.ofLines [
      "",
      "@Module(\x7b",
      "  controllers: [" ++ ModuleImport.classList controllers ++ "],",
      "  providers: [" ++ ModuleImport.classList providers ++ "],",
      "\x7d)",
      "export class " ++ serviceClass ++ "Module \x7b\x7d"]

/-- The controller that a project starts with: it answers each of the usual requests with a
message. -/
def starterController (routePrefix className serviceName : Text) : Text :=
  Text.ofLines [
    "import \x7b Controller, Get, Post, Put, Delete, Body, Param, Query \x7d from '@nestjs/common';",
    "",
    "@Controller('" ++ routePrefix ++ "')",
    "export class " ++ className ++ " \x7b",
    "  @Get()",
    "  findAll(@Query() query: any) \x7b",
    "    return \x7b message: 'Implement logic here', service: '" ++ serviceName ++ "' \x7d;",
    "  \x7d",
    "",
    "  @Get(':id')",
    "  findOne(@Param('id') id: string) \x7b",
    "    return \x7b message: 'Implement logic here', id \x7d;",
    "  \x7d",
    "",
    "  @Post()",
    "  create(@Body() data: any) \x7b",
    "    return \x7b message: 'Implement logic here', data \x7d;",
    "  \x7d",
    "",
    "  @Put(':id')",
    "  update(@Param('id') id: string, @Body() data: any) \x7b",
    "    return \x7b message: 'Implement logic here', id, data \x7d;",
    "  \x7d",
    "",
    "  @Delete(':id')",
    "  remove(@Param('id') id: string) \x7b",
    "    return \x7b message: 'Implement logic here', id \x7d;",
    "  \x7d",
    "\x7d"]

end ServiceScaffold.Project
