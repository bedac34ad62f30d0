import JsonShape.PassContext
import JsonShape.Server
import JsonShape.Settings.Load
import JsonShape.Shape.Candidate
import JsonShape.Command.Directory
import JsonShape.Command.Run
import JsonShape.Main
import JsonShape.Proofs.Inference.Acceptance
import JsonShape.Proofs.Inference.WellFormed
import JsonShape.Proofs.Inference.Rearrangement
import JsonShape.Proofs.Inference.Cancellation
import JsonShape.Proofs.Document.Decoding
import JsonShape.Proofs.Identifier
import JsonShape.Proofs.CSharp.Lines
import JsonShape.Proofs.CSharp.Literals
import JsonShape.Proofs.CSharp.Breaks
import JsonShape.Proofs.CSharp.Documentation
import JsonShape.Proofs.CSharp.Names
import JsonShape.Proofs.CSharp.Scoping
import JsonShape.Proofs.Inference.Outcomes
import JsonShape.Proofs.Runner.Ownership
import JsonShape.Proofs.Server.Lifecycle
import JsonShape.Proofs.Runner.Supersession
import JsonShape.Proofs.Model.RoundTrip
import JsonShape.Proofs.Document.Strictness
import JsonShape.Proofs.Document.Leniency
import JsonShape.Proofs.Inference.Outline
import JsonShape.Proofs.Settings.Precedence
import JsonShape.Proofs.Document.Printing
import JsonShape.Proofs.Settings.RoundTrip
import JsonShape.Proofs.Shape.Increments
import JsonShape.Proofs.Shape.Batch
import JsonShape.Proofs.Shape.Congruence
import JsonShape.Proofs.Shape.InPlace
import JsonShape.Proofs.Traversal
import JsonShape.Proofs.CSharp.Unambiguous
import JsonShape.Proofs.Words
