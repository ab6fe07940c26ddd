import ServiceScaffold.Json.Printer

/-!
# Documents of a project

The JSON documents of a project: the package, and the settings of the compiler, of the command line
tool, of the formatter and of the linter. Each is written with its fields in the order of their
names.
-/

namespace ServiceScaffold.Project

/-- A field that holds a text. -/
def textField (name value : String) : Text × Json := (name, .text value)

/-- A field that is switched on. -/
def onField (name : String) : Text × Json := (name, .bool true)

/-- What the package can be told to do. -/
def scripts : Json :=
  Json.ofFields [
    textField "build" "nest build",
    textField "start" "nest start",
    textField "start:dev" "nest start --watch",
    textField "format" "prettier --write \"src/**/*.ts\"",
    textField "lint" "eslint \"src/**/*.ts\" --fix",
    textField "test" "jest",
    textField "test:cov" "jest --coverage"]

/-- The packages that the application needs. -/
def dependencies : Json :=
  Json.ofFields [
    textField "@nestjs/common" "^10.0.0",
    textField "@nestjs/core" "^10.0.0",
    textField "@nestjs/platform-express" "^10.0.0",
    textField "reflect-metadata" "^0.2.0",
    textField "rxjs" "^7.8.0"]

/-- The packages that its development needs. -/
def devDependencies : Json :=
  Json.ofFields [
    textField "@nestjs/cli" "^10.0.0",
    textField "@nestjs/testing" "^10.0.0",
    textField "@types/jest" "^29.5.0",
    textField "@types/node" "^20.0.0",
    textField "@typescript-eslint/eslint-plugin" "^6.0.0",
    textField "@typescript-eslint/parser" "^6.0.0",
    textField "eslint" "^8.42.0",
    textField "eslint-config-prettier" "^9.0.0",
    textField "jest" "^29.0.0",
    textField "prettier" "^3.0.0",
    textField "ts-jest" "^29.1.0",
    textField "typescript" "^5.0.0"]

/-- The package of a project. -/
def package (name version : Text) : Json :=
  Json.ofFields [
    ("name", .text name),
    ("version", .text version),
    onField "private",
    ("scripts", scripts),
    ("dependencies", dependencies),
    ("devDependencies", devDependencies)]

/-- The settings of the compiler. -/
def compilerSettings : Json :=
  Json.ofFields [
    ("compilerOptions", Json.ofFields [
      textField "module" "commonjs",
      onField "declaration",
      onField "removeComments",
      onField "emitDecoratorMetadata",
      onField "experimentalDecorators",
      textField "target" "ES2021",
      onField "sourceMap",
      textField "outDir" "./dist",
      textField "baseUrl" "./",
      onField "incremental",
      onField "skipLibCheck"])]

/-- The settings of the framework's command line tool. -/
def toolSettings : Json :=
  Json.ofFields [
    textField "collection" "@nestjs/schematics",
    textField "sourceRoot" "src"]

/-- The settings of the formatter. -/
def formatterSettings : Json :=
  Json.ofFields [
    onField "singleQuote",
    textField "trailingComma" "all"]

/-- The settings of the linter: the recommended rules, with layout left to the formatter. -/
def linterSettings : Json :=
  Json.ofFields [
    onField "root",
    textField "parser" "@typescript-eslint/parser",
    ("parserOptions", Json.ofFields [
      textField "project" "tsconfig.json",
      textField "sourceType" "module"]),
    ("plugins", .array [.text "@typescript-eslint/eslint-plugin"]),
    ("extends", .array [.text "plugin:@typescript-eslint/recommended", .text "prettier"]),
    ("env", Json.ofFields [onField "node", onField "jest"]),
    ("ignorePatterns", .array [.text ".eslintrc.json", .text "jest.config.js", .text "dist"]),
    ("rules", Json.ofFields [textField "@typescript-eslint/no-explicit-any" "off"])]

end ServiceScaffold.Project
