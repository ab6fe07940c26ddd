import ServiceScaffold.Main
import ServiceScaffold.Proofs.Controller.ReadBack
import ServiceScaffold.Proofs.Controller.Scope
import ServiceScaffold.Proofs.Controller.Routes
import ServiceScaffold.Proofs.Controller.Batch
import ServiceScaffold.Proofs.Path
import ServiceScaffold.Proofs.Service.Name
import ServiceScaffold.Proofs.Service.ParameterName
import ServiceScaffold.Proofs.FileTree.Entry
import ServiceScaffold.Proofs.FileTree.Place
import ServiceScaffold.Proofs.FileTree.Reach
import ServiceScaffold.Proofs.Controller.Effect
import ServiceScaffold.Proofs.FileTree.Plain
import ServiceScaffold.Proofs.Text.Order
import ServiceScaffold.Proofs.Service.Discovery
import ServiceScaffold.Proofs.Controller.Shared
import ServiceScaffold.Proofs.FileTree.Change
import ServiceScaffold.Proofs.FileTree.Sound
import ServiceScaffold.Proofs.Run.Overlay
import ServiceScaffold.Proofs.OpenApi.Offer
import ServiceScaffold.Proofs.OpenApi.Import
import ServiceScaffold.Proofs.Project.Stages
import ServiceScaffold.Proofs.Project.Wiring
import ServiceScaffold.Proofs.Path.Lineage
import ServiceScaffold.Proofs.FileTree.Confined
import ServiceScaffold.Proofs.Run.Below
import ServiceScaffold.Proofs.Run.Copy
import ServiceScaffold.Proofs.Controller.Injection
import ServiceScaffold.Proofs.Project.Below
import ServiceScaffold.Proofs.Project.Containment
import ServiceScaffold.Proofs.Project.Failure
import ServiceScaffold.Proofs.Project.Imported
import ServiceScaffold.Proofs.Project.History
import ServiceScaffold.Proofs.FileTree.Links
import ServiceScaffold.Proofs.FileTree.Pruned
import ServiceScaffold.Proofs.Project.Regeneration
import ServiceScaffold.Proofs.Project.SecondRun
import ServiceScaffold.Proofs.Project.ServiceImport
import ServiceScaffold.Proofs.Controller.Directory
import ServiceScaffold.Proofs.Json.ReadBack
import ServiceScaffold.Proofs.Project.Documents
import ServiceScaffold.Proofs.Project.Reported
import ServiceScaffold.Proofs.Text.Lexicon
import ServiceScaffold.Proofs.Project.Spelling
import ServiceScaffold.Proofs.Text.Bytes
import ServiceScaffold.Proofs.FileTree.Listing
import ServiceScaffold.Proofs.Service.Insertions
import ServiceScaffold.Proofs.Service.Listing
import ServiceScaffold.Proofs.Controller.Discovered
import ServiceScaffold.Proofs.CommandLine.Inspect
import ServiceScaffold.Proofs.Settings.Lookup
import ServiceScaffold.Proofs.CommandLine.Request
import ServiceScaffold.Proofs.OpenApi.Document
