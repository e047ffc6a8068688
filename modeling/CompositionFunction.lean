import CompositionFunction.Files.Tree
import CompositionFunction.Main
import CompositionFunction.Reply.InPlace
import CompositionFunction.Proofs.Message.NormalForm
import CompositionFunction.Proofs.Message.RoundTrip
import CompositionFunction.Proofs.Message.Selector
import CompositionFunction.Proofs.LastWrite
import CompositionFunction.Proofs.Reply.Contents
import CompositionFunction.Proofs.Reply.Run
import CompositionFunction.Proofs.Reply.InPlace
import CompositionFunction.Proofs.GroupVersionKind
import CompositionFunction.Proofs.Reply.Interleaving
import CompositionFunction.Proofs.Reply.Requirement
import CompositionFunction.Proofs.Reply.Handover
import CompositionFunction.Proofs.Reply.WriteBack
import CompositionFunction.Proofs.Reply.Batch
import CompositionFunction.Proofs.Reply.Acceptance
import CompositionFunction.Proofs.Reply.BodyKind
import CompositionFunction.Proofs.CommandLine.Configuration
import CompositionFunction.Proofs.CommandLine.Respond
import CompositionFunction.Proofs.CommandLine.LabelsFlag
import CompositionFunction.Proofs.CommandLine.ContextFlag
import CompositionFunction.Proofs.CommandLine.Printed
import CompositionFunction.Proofs.CommandLine.PassThrough
import CompositionFunction.Proofs.Duration.Grammar
import CompositionFunction.Proofs.Message.ConnectionDetails
import CompositionFunction.Proofs.Message.Unknown
