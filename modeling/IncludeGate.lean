import IncludeGate.Compiler.Choice
import IncludeGate.Main
import IncludeGate.Proofs.Compiler.Discovery
import IncludeGate.Proofs.Evaluation.Monotonicity
import IncludeGate.Proofs.IncludeGraph.Blocks
import IncludeGate.Proofs.IncludeGraph.LineNumbers
import IncludeGate.Proofs.IncludeGraph.PreIncludes
import IncludeGate.Proofs.IncludeGraph.Renaming
import IncludeGate.Proofs.Report.Agreement
import IncludeGate.Proofs.Report.RoundTrip
import IncludeGate.Proofs.Rules.Exceptions
import IncludeGate.Proofs.Run.Attempts
import IncludeGate.Proofs.Run.Gate
import IncludeGate.Proofs.Scan.Exactness
import IncludeGate.Proofs.Settings.Declarations
import IncludeGate.Proofs.WorkflowCommand.LineBreaks
import IncludeGate.Proofs.Report.Masking
import IncludeGate.Proofs.Diagnostic.Lines
import IncludeGate.Proofs.Diagnostic.Stream
import IncludeGate.Proofs.DirectiveColumn.Filling
import IncludeGate.Proofs.Path.Folding
import IncludeGate.Proofs.Scan.Spelling
import IncludeGate.Proofs.Linemarker.Literals
import IncludeGate.Proofs.Rules.Specs
import IncludeGate.Proofs.Settings.Faults
import IncludeGate.Proofs.Toml.Keys
import IncludeGate.Proofs.Toml.Order
import IncludeGate.Proofs.Config.Documents
import IncludeGate.Proofs.Toml.Equality
