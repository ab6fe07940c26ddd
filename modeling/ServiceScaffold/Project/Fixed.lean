import ServiceScaffold.Text.Basic

/-!
# Fixed files

The source files that are the same in every project. A file is given by its lines, each of which
is ended.
-/

namespace ServiceScaffold

/-- The text of lines, each of which is ended. -/
def Text.ofLines (lines : List Text) : Text := lines.flatMap fun line => line ++ "\n"

namespace Project

/-- The program that starts the application. -/
def mainFile : Text :=
  Text.ofLines [
    "import \x7b NestFactory \x7d from '@nestjs/core';",
    "import \x7b AppModule \x7d from './app.module';",
    "",
    "async function bootstrap() \x7b",
    "  const app = await NestFactory.create(AppModule);",
    "  await app.listen(process.env.PORT ?? 3000);",
    "\x7d",
    "bootstrap();"]

/-- What version control leaves out. -/
def gitignore : Text :=
  Text.ofLines [
    "# compiled output",
    "/dist",
    "/node_modules",
    "",
    "# logs",
    "logs",
    "*.log",
    "npm-debug.log*",
    "",
    "# tests",
    "/coverage",
    "",
    "# environment",
    ".env",
    ".env.*",
    "",
    "# IDE",
    ".idea",
    ".vscode/*",
    "!.vscode/settings.json",
    ".DS_Store"]

/-- The conventions for editors. -/
def editorconfig : Text :=
  Text.ofLines [
    "root = true",
    "",
    "[*]",
    "charset = utf-8",
    "end_of_line = lf",
    "indent_style = space",
    "indent_size = 2",
    "insert_final_newline = true",
    "trim_trailing_whitespace = true",
    "",
    "[*.md]",
    "trim_trailing_whitespace = false"]

/-- The settings of the test runner. -/
def jestConfig : Text :=
  Text.ofLines [
    "module.exports = \x7b",
    "  moduleFileExtensions: ['js', 'json', 'ts'],",
    "  rootDir: 'src',",
    "  testRegex: '.*\\\\.spec\\\\.ts$',",
    "  transform: \x7b",
    "    '^.+\\\\.(t|j)s$': 'ts-jest',",
    "  \x7d,",
    "  collectCoverageFrom: ['**/*.(t|j)s'],",
    "  coverageDirectory: '../coverage',",
    "  testEnvironment: 'node',",
    "\x7d;"]

end Project

end ServiceScaffold
