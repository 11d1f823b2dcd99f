import Reckoner.Main
import Reckoner.Proofs.Lowering.Meaning
import Reckoner.Proofs.Grammar.Layers
import Reckoner.Proofs.Session.Cleaning
import Reckoner.Proofs.Session.Refinement
import Reckoner.Proofs.Program.Guarded
import Reckoner.Proofs.Program.Cleanup
import Reckoner.Proofs.Program.History
import Reckoner.Proofs.Compiler.History
import Reckoner.Proofs.Token.Scanning
import Reckoner.Proofs.Grammar.Semicolon
import Reckoner.Proofs.Session.Synchronization
import Reckoner.Proofs.Compiler.Relabel
import Reckoner.Proofs.Session.Deletion
import Reckoner.Proofs.Program.CallGraph
import Reckoner.Proofs.Token.Partition
import Reckoner.Proofs.Grammar.Ending
import Reckoner.Proofs.Grammar.Consumption
import Reckoner.Proofs.Grammar.Pieces
import Reckoner.Proofs.Grammar.Roundtrip
import Reckoner.Proofs.Session.Accounting
import Reckoner.Proofs.Session.Permanence
import Reckoner.Proofs.Program.Since
import Reckoner.Proofs.Session.Limit
import Reckoner.Proofs.Session.Details
import Reckoner.Proofs.Source.Utf8
import Reckoner.Proofs.Text.OneLine
import Reckoner.Proofs.CommandLine.Input
import Reckoner.Proofs.Session.Listing
import Reckoner.Proofs.Session.Report
import Reckoner.Proofs.Compiler.Meaning
import Reckoner.Proofs.Compiler.Rollback
import Reckoner.Proofs.Machine.Depth
import Reckoner.Proofs.Machine.Parallel
import Reckoner.Proofs.Program.Verdict
import Reckoner.Proofs.Compiler.Faults
import Reckoner.Proofs.Grammar.Earliest
import Reckoner.Proofs.Session.Interruption
import Reckoner.Proofs.Source.Readable
import Reckoner.Proofs.Session.Spacing
import Reckoner.Proofs.Session.Demand
import Reckoner.Proofs.Grammar.Description
import Reckoner.Proofs.Session.Prompting
