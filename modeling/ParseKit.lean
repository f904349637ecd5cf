import ParseKit.Assertion
import ParseKit.Main
import ParseKit.Snapshot.Read
import ParseKit.TokenList
import ParseKit.Proofs.Running
import ParseKit.Proofs.Simulation
import ParseKit.Proofs.LexerTape
import ParseKit.Proofs.LeftRecursion
import ParseKit.Proofs.ScannedLine
import ParseKit.Proofs.Walking
import ParseKit.Proofs.Lookahead
import ParseKit.Proofs.OperatorTree
import ParseKit.Proofs.Expression
import ParseKit.Proofs.Halting
import ParseKit.Proofs.Reading
import ParseKit.Proofs.ReadingRules
import ParseKit.Proofs.Script.Phrases
import ParseKit.Proofs.Accepting
import ParseKit.Proofs.Script.Rules
import ParseKit.Proofs.TokenClasses
import ParseKit.Proofs.Predictive
import ParseKit.Proofs.PredictiveParsing
import ParseKit.Proofs.WholeInput
import ParseKit.Proofs.Script.Equations
import ParseKit.Proofs.Script.Program
import ParseKit.Proofs.Termination
import ParseKit.Proofs.Session
import ParseKit.Proofs.Building
import ParseKit.Proofs.OrderedChoice
import ParseKit.Proofs.Restoring
import ParseKit.Proofs.Script.Failing
import ParseKit.Proofs.Leaves
import ParseKit.Proofs.Script.Accounting
import ParseKit.Proofs.Buildable
import ParseKit.Proofs.WrittenLine
import ParseKit.Proofs.Script.Printing
import ParseKit.Proofs.Calls
import ParseKit.Proofs.Trimming
import ParseKit.Proofs.TokenCursor
import ParseKit.Proofs.Peeking
import ParseKit.Proofs.LineNumbers
import ParseKit.Proofs.Pattern
import ParseKit.Proofs.EscapePairs
import ParseKit.Proofs.LineGrammar
import ParseKit.Proofs.LineRoundTrip
import ParseKit.Proofs.OutputLines
import ParseKit.Proofs.JoinedSource
import ParseKit.Proofs.Script.Joining
import ParseKit.Proofs.Watching
import ParseKit.Proofs.Resolution
import ParseKit.Proofs.Widening
import ParseKit.Proofs.Extending
import ParseKit.Proofs.Terminators
import ParseKit.Proofs.Script.Locations
import ParseKit.Proofs.WrittenJson
import ParseKit.Proofs.DrawnTrees
import ParseKit.Proofs.LayeredSettings
import ParseKit.Proofs.ScanFaults
import ParseKit.Proofs.Loading
import ParseKit.Proofs.JsonLaws
import ParseKit.Proofs.SnapshotReading
