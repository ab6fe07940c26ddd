import ServiceScaffold.Service.Name
import ServiceScaffold.Service.Signature
import ServiceScaffold.Text.Quoted

/-!
# Notices

What a run tells its user while it works, one line at a time.
-/

namespace ServiceScaffold

/-- What is known of a checked OpenAPI document. -/
structure DocumentSummary where
  title : Text
  version : Text
  pathCount : Nat
  deriving DecidableEq, Repr

/-- A line for the user. -/
inductive Notice
  | controllerGenerated (fileName : Text)
  | batchFinished (count : Nat)
  | fileSkipped (path : Path)
  | stubGenerated (fileName : Text)
  | documentChosen (summary : DocumentSummary)
  | generatorStarted
  | distRemoved
  | openApiSucceeded
  | openApiFailed (message : Text)
  | projectGenerated (root : Path)
  | noServiceFiles (dir : Path)
  | serviceInspected (file : ServiceFile)
  | noPublicMethods
  | methodInspected (signature : MethodSignature)
  deriving DecidableEq, Repr

namespace Notice

/-- The wording of a notice. -/
def text : Notice → Text
  | controllerGenerated fileName => "📄 Real controller generated: " ++ fileName
  | batchFinished count =>
    "✅ Real controllers generated: " ++ Text.ofNat count ++ " files"
  | fileSkipped path => "⚠️  Skipping existing file: " ++ Text.quoted path
  | stubGenerated fileName => "📄 Controller generated: " ++ fileName
  | documentChosen summary =>
    "📘 Using OpenAPI document '" ++ summary.title ++ "' v" ++ summary.version ++ " ("
      ++ Text.ofNat summary.pathCount ++ " paths)"
  | generatorStarted => "🚀 Running OpenAPI Generator CLI..."
  | distRemoved => "🧹 Removed dist folder to avoid confusion."
  | openApiSucceeded => "✅ Project generated with OpenAPI successfully"
  | openApiFailed message => "❌ Error running OpenAPI Generator: " ++ message
  | projectGenerated root =>
    "✨ Project generated in '" ++ root ++ "' with modular structure."
  | noServiceFiles dir => "⚠️  No service files found in " ++ dir
  | serviceInspected file =>
    file.serviceType ++ " -> " ++ file.controllerType ++ " (" ++ file.controllerFile ++ ")"
  | noPublicMethods => "  (no public methods)"
  | methodInspected signature =>
    "  " ++ signature.name ++ "(" ++ List.intercalate ", " signature.declared
      ++ ") -> service." ++ signature.name ++ "(" ++ List.intercalate ", " signature.forwarded
      ++ ")"

end Notice

end ServiceScaffold
