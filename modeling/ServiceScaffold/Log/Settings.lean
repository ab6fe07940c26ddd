import ServiceScaffold.Run.Event

/-!
# Log settings

Which events reach the log, and how they are written there. The environment sets both; `--verbose`
overrides it. A further variable, read by every program that logs in this way, takes precedence over
the level in either case.
-/

namespace ServiceScaffold

namespace Level

/-- The level with this name, in upper or lower case; any other text stands for `WARN`. -/
def ofText (text : Text) : Level :=
  ([trace, debug, info, error].find? fun level =>
    Text.lowerAscii level.label = Text.lowerAscii text).getD warn

end Level

namespace Log

/-- How events are written. -/
inductive Format
  | json
  | pretty
  deriving DecidableEq, Repr

/-- The format with this name, in upper or lower case; any other text stands for the readable
one. -/
def Format.ofText (text : Text) : Format :=
  if Text.lowerAscii text = "json" then .json else .pretty

/-- The settings of a log. -/
structure Settings where
  level : Text := "warn"
  format : Format := .pretty
  /-- Is it said where in the program an event arose? -/
  showsPlace : Bool := false
  deriving DecidableEq, Repr

namespace Settings

/-- The variable that sets the level. -/
def levelVariable : Text := "NESTGEN_LOG_LEVEL"

/-- The variable that sets the format. -/
def formatVariable : Text := "NESTGEN_LOG_FORMAT"

/-- The variable that says whether places are shown: `true` does. -/
def placeVariable : Text := "NESTGEN_LOG_INCLUDE_LOCATION"

/-- The variable that takes precedence over the level. -/
def filterVariable : Text := "RUST_LOG"

/-- The settings that the environment gives. -/
def ofEnvironment (environment : Text → Option Text) : Settings where
  level := (environment levelVariable).getD "warn"
  format := ((environment formatVariable).map Format.ofText).getD .pretty
  showsPlace := environment placeVariable = some "true"

/-- The settings that say most. -/
def verbose : Settings := ⟨"debug", .pretty, true⟩

/-- The settings of a run. -/
def ofRun (isVerbose : Bool) (environment : Text → Option Text) : Settings :=
  if isVerbose then verbose else ofEnvironment environment

end Settings

/-- The levels by the text that filters by them: a name or a number. -/
def filterWords : List (Text × Option Level) :=
  [("", some .error), ("off", none), ("error", some .error), ("warn", some .warn),
    ("info", some .info), ("debug", some .debug), ("trace", some .trace), ("0", none),
    ("1", some .error), ("2", some .warn), ("3", some .info), ("4", some .debug),
    ("5", some .trace)]

/-- The least level that a filter lets through; a text that names no level lets nothing through. -/
def filterLevel (text : Text) : Option Level :=
  (filterWords.lookup (Text.lowerAscii text)).getD none

/-- The least level that reaches the log. -/
def threshold (settings : Settings) (environment : Text → Option Text) : Option Level :=
  match environment Settings.filterVariable with
  | some text => filterLevel text
  | none => some (Level.ofText settings.level)

/-- Does an event reach the log? -/
def lets (least : Option Level) (event : Event) : Bool :=
  least.any fun least => least.rank ≤ event.level.rank

/-- The events that reach the log. -/
def select (least : Option Level) (events : List Event) : List Event := events.filter (lets least)

end Log

end ServiceScaffold
