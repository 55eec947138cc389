import AsmLens.Task.Loop
import AsmLens.Task.Suspension
import AsmLens.Workbench.Run
import AsmLens.Proofs.Stages
import AsmLens.Proofs.Canvases
import AsmLens.Proofs.Documents
import AsmLens.Proofs.Decorating
import AsmLens.Proofs.Following
import AsmLens.Proofs.Pointing
import AsmLens.Proofs.Publishing
import AsmLens.Proofs.Happening
import AsmLens.Proofs.Tasks
import AsmLens.Proofs.Valid
import AsmLens.Proofs.Reachable
import AsmLens.Proofs.WithoutOutput
import AsmLens.Proofs.Formatting
import AsmLens.Proofs.Addresses
import AsmLens.Proofs.Records
import AsmLens.Proofs.Outputs
import AsmLens.Proofs.Provenance
import AsmLens.Proofs.InstructionSets
import AsmLens.Proofs.OpenDocuments
import AsmLens.Proofs.Steadiness
import AsmLens.Proofs.Ledger
import AsmLens.Proofs.Responses
import AsmLens.Proofs.Interference
import AsmLens.Proofs.Correlation
import AsmLens.Proofs.Linking
import AsmLens.Proofs.Textless
import AsmLens.Proofs.Calls
import AsmLens.Proofs.Decoding
import AsmLens.Proofs.Notable
import AsmLens.Proofs.CompilerMessages
import AsmLens.Proofs.Requests
import AsmLens.Proofs.Snapshots
import AsmLens.Proofs.Completion
import AsmLens.Proofs.GeneratedLines
import AsmLens.Proofs.Configuration
import AsmLens.Proofs.SourceLines
import AsmLens.Proofs.MessageLines
import AsmLens.Proofs.Closing
import AsmLens.Proofs.Frames
import AsmLens.Proofs.Framing
import AsmLens.Proofs.Containment
import AsmLens.Proofs.Prompting
import AsmLens.Proofs.Answering
import AsmLens.Proofs.Resuming
import AsmLens.Proofs.Painting
import AsmLens.Proofs.Mirroring
import AsmLens.Proofs.Lookups
import AsmLens.Proofs.Sessions
import AsmLens.Proofs.Succession
import AsmLens.Proofs.Replacing
import AsmLens.Proofs.Segments
import AsmLens.Proofs.Labels
import AsmLens.Proofs.MessagePlaces
import AsmLens.Proofs.Sealing
import AsmLens.Proofs.Suspending
