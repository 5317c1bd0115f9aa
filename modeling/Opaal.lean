import Opaal.Syntax.ClassifierAgreement
import Opaal.Artifact.PlanDepth
import Opaal.Syntax.Parser.Control
import Opaal.Runtime.Arithmetic
import Opaal.Runtime.Redaction
import Opaal.Runtime.GlobExpansion
import Opaal.Runtime.OptionTerminator
import Opaal.Runtime.Sorting
import Opaal.Runtime.CapsuleSafety
import Opaal.Runtime.MixedMerge
import Opaal.Lsp.Publication
import Opaal.Artifact.Sealing
import Opaal.Operational.Ledger
import Opaal.Project.Agreement
import Opaal.Operational.DisplayAgreement
import Opaal.Cli.SharedHistory
import Opaal.Cli.KeyDecoder
import Opaal.Operational.SourceRuns
import Opaal.Operational.RandomIntegers
import Opaal.Operational.Authority
import Opaal.Runtime.FromText
import Opaal.Runtime.DecodeUtf8
import Opaal.Runtime.GlobMatching
import Opaal.Runtime.StringOperations
import Opaal.Runtime.RecordMerge
import Opaal.Syntax.Position
import Opaal.Runtime.TypeConstraints
import Opaal.Runtime.CallDepth
import Opaal.Runtime.PipelineEvaluation
import Opaal.Runtime.ActionDependencies
import Opaal.Syntax.CompletionPlacement
import Opaal.Runtime.WordDecoding
import Opaal.Runtime.JoinReport
import Opaal.Runtime.ResumeAnswers
