import ServiceScaffold.Run.Basic
import ServiceScaffold.Settings.Basic

/-!
# The generator's command line

How the external generator is started: the program, which an environment variable may replace, and
its arguments. The package comes first if there is one, the further properties last if there are
any.
-/

namespace ServiceScaffold

/-- A program and its arguments. -/
structure GeneratorCommand where
  program : Text
  arguments : List Text
  deriving DecidableEq, Repr

namespace GeneratorSettings

/-- The program to start: the environment's, or else the settings'. -/
def program (settings : GeneratorSettings) (host : Host) : Text :=
  (host.environment generatorVariable).getD settings.command

/-- The package; none if it is empty. -/
def packageArgument (settings : GeneratorSettings) : List Text :=
  if settings.package.isEmpty then [] else [settings.package]

/-- What is to be generated, by which generator, and where. -/
def taskArguments (settings : GeneratorSettings) (document : Text) (outputDir : Path) :
    List Text :=
  ["generate", "-i", document, "-g", settings.generator, "-o", outputDir]

/-- The argument with the further properties; none if there are no properties. -/
def propertiesArgument (settings : GeneratorSettings) : List Text :=
  if settings.properties.isEmpty then []
  else ["--additional-properties=" ++ List.intercalate "," settings.properties]

/-- The command that generates the sources of a document into a directory. -/
def commandFor (settings : GeneratorSettings) (host : Host) (document : Text) (outputDir : Path) :
    GeneratorCommand where
  program := settings.program host
  arguments :=
    settings.packageArgument ++ settings.taskArguments document outputDir
      ++ settings.propertiesArgument

end GeneratorSettings

namespace GeneratorCommand

/-- What stands for a word that holds a NUL and can be handed to no program. -/
def unspeakable : Text := "<string-with-nul>"

/-- A word as it can be handed over. -/
def spoken (word : Text) : Text := if word.contains '\x00' then unspeakable else word

/-- Two hexadecimal digits. -/
def hexPair (code : Nat) : Text :=
  let digits := Nat.toDigits 16 code
  List.replicate (2 - digits.length) '0' ++ digits

/-- One character of a shown word; of the hidden ones, those of ASCII are spelled by two digits. -/
def shownChar (c : Char) : Text :=
  if c = '\'' then ['\\', '\'']
  else if c = '"' || c = '\\' || c = '\t' || c = '\n' || c = '\r' || c.toNat ≥ 0x80 then
    Text.quotedChar c
  else if c.toNat < 0x20 || c.toNat = 0x7f then ['\\', 'x'] ++ hexPair c.toNat
  else [c]

/-- A word between double quotes. -/
def shownWord (word : Text) : Text := ['"'] ++ (spoken word).flatMap shownChar ++ ['"']

/-- The command on one line, each of its words quoted. -/
def shown (command : GeneratorCommand) : Text :=
  List.intercalate " " ((command.program :: command.arguments).map shownWord)

/-- Starts the program and waits for its end, which has to be a success. -/
def run (command : GeneratorCommand) (host : Host) : Run Unit := do
  Run.log (.generatorRunning command.shown)
  let status ← Run.launch host command.program command.arguments (.launch command.program)
  if status.isSuccess then pure () else Run.fail (.generator status)

end GeneratorCommand

end ServiceScaffold
