import ModuleCompiler.Main
import ModuleCompiler.Proofs.Outcome
import ModuleCompiler.Proofs.Token.Integer
import ModuleCompiler.Proofs.Token.Checked
import ModuleCompiler.Proofs.Token.Separator
import ModuleCompiler.Proofs.Token.Nesting
import ModuleCompiler.Proofs.Token.Spelling
import ModuleCompiler.Proofs.Token.Defect
import ModuleCompiler.Proofs.Token.Layout
import ModuleCompiler.Proofs.Token.Rejection
import ModuleCompiler.Proofs.Decl.Request
import ModuleCompiler.Proofs.Decl.View
import ModuleCompiler.Proofs.Decl.Walk
import ModuleCompiler.Proofs.Decl.Registration
import ModuleCompiler.Proofs.Decl.InPlace
import ModuleCompiler.Proofs.Unit.Grammar
import ModuleCompiler.Proofs.Unit.Prefix
import ModuleCompiler.Proofs.Token.Stream
import ModuleCompiler.Proofs.Parse.Contract
import ModuleCompiler.Proofs.Decl.Answer
import ModuleCompiler.Proofs.Unit.Scene
import ModuleCompiler.Proofs.Unit.Fault
import ModuleCompiler.Proofs.Parse.Type
import ModuleCompiler.Proofs.Parse.Procedure
import ModuleCompiler.Proofs.Parse.Unit
import ModuleCompiler.Proofs.Unit.Unambiguous
import ModuleCompiler.Proofs.Unit.Rejection
import ModuleCompiler.Proofs.Unit.Refutation
import ModuleCompiler.Proofs.Unit.Acceptance
import ModuleCompiler.Proofs.Decl.Growth
import ModuleCompiler.Proofs.Parse.Reading
import ModuleCompiler.Proofs.Parse.Moves
import ModuleCompiler.Proofs.Parse.Session
import ModuleCompiler.Proofs.Parse.Progress
import ModuleCompiler.Proofs.Decl.Resolution
import ModuleCompiler.Proofs.Decl.Capture
import ModuleCompiler.Proofs.Decl.Linkage
import ModuleCompiler.Proofs.Decl.Mangle
import ModuleCompiler.Proofs.Decl.Enclosure
import ModuleCompiler.Proofs.Decl.Renamed
import ModuleCompiler.Proofs.Parse.Accepted
import ModuleCompiler.Proofs.Parse.Equivariance
import ModuleCompiler.Proofs.Parse.Lookahead
import ModuleCompiler.Proofs.Parse.Qualified
import ModuleCompiler.Proofs.Decl.Relabeled
import ModuleCompiler.Proofs.Decl.Commute
import ModuleCompiler.Proofs.Decl.Path
import ModuleCompiler.Proofs.Decl.History
import ModuleCompiler.Proofs.Parse.Telling
import ModuleCompiler.Proofs.CommandLine.Files
import ModuleCompiler.Proofs.CommandLine.Output
import ModuleCompiler.Proofs.CommandLine.Story
import ModuleCompiler.Proofs.Decl.SelfListing
import ModuleCompiler.Proofs.Token.Combinators
import ModuleCompiler.Proofs.Token.Comment
import ModuleCompiler.Proofs.CommandLine.Occurrence
import ModuleCompiler.Proofs.CommandLine.Logging
import ModuleCompiler.Proofs.CommandLine.Configuration
