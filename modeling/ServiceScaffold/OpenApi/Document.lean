import ServiceScaffold.Json.Reader
import ServiceScaffold.OpenApi.Parts
import ServiceScaffold.Run.Basic
import ServiceScaffold.Yaml.Node.Reader

/-!
# OpenAPI documents

What an OpenAPI document has to look like before it is used, and what a user is told of it. A
document is in YAML if the ending of its name says so, and in JSON otherwise.
-/

namespace ServiceScaffold.OpenApi

/-! ## Reading a document -/

/-- The format of a document, by the ending of its name. -/
def formatOf (path : Path) : DocumentFormat :=
  if Path.extension? path = some "yaml" || Path.extension? path = some "yml" then .yaml else .json

/-- The data of a document. -/
def Datum.read? (format : DocumentFormat) (content : Text) : Option Datum :=
  match format with
  | .yaml => (Yaml.Node.read? content).map Datum.ofNode
  | .json => (Json.read? content).map Datum.ofJson

/-- How many different names there are. -/
def countDistinct (names : List Text) : Nat := names.eraseDups.length

/-- How many paths a document has. -/
def pathCount (document : Datum) : Nat :=
  match document.field? "paths" with
  | some paths =>
    match paths.fields? with
    | some fields => countDistinct (fields.map Prod.fst)
    | none => 0
  | none => 0

/-- What a user is told of a document, if it looks as it has to. -/
def summary? (document : Datum) : Option DocumentSummary :=
  if Shape.admits Part.shape Shape.document document then do
    let info ← document.field? "info"
    let title ← (← info.field? "title").text?
    let version ← (← info.field? "version").text?
    some ⟨title, version, pathCount document⟩
  else none

/-! ## Checking a document before use -/

/-- Is the document fetched from elsewhere? -/
def isRemote (document : Text) : Bool :=
  List.isPrefixOf "http://".toList document || List.isPrefixOf "https://".toList document

/-- Checks a document and says what it is about. A remote one is not fetched, and nothing is known
of it. -/
def preflight (wording : ParserWording) (document : Text) : Run (Option DocumentSummary) := do
  if isRemote document then
    Run.log (.documentRemote document)
    pure none
  else
    let content ← Run.look (.readDocument document) fun tree => tree.read document
    match (Datum.read? (formatOf document) content).bind summary? with
    | none =>
      let format := formatOf document
      Run.fail (.parseDocument format document (wording.document format content))
    | some summary =>
      Run.log (.documentLoaded summary)
      pure (some summary)

end ServiceScaffold.OpenApi
