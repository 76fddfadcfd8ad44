import Onepass.Text.Lines
import Onepass.Decimal.Arithmetic
import Onepass.Decimal.Parser
import Onepass.Decimal.Printer
import Onepass.Token.Lexer
import Onepass.Value.Conformance
import Onepass.Value.Operator
import Onepass.Diagnostic.Report
import Onepass.Script.Extent
import Onepass.Execution.Run
import Onepass.CommandLine.Invocation
import Onepass.Main
import Onepass.Proofs.Outcome
import Onepass.Proofs.Discipline.Statement
import Onepass.Proofs.Control
import Onepass.Proofs.Extent.Agreement
import Onepass.Proofs.Typing.Soundness
import Onepass.Proofs.Fuel
import Onepass.Proofs.Isolation
import Onepass.Proofs.Termination.Halting
import Onepass.Proofs.Tree.Agreement
import Onepass.Proofs.Signals
import Onepass.Proofs.Lexing.Writing
import Onepass.Proofs.Diagnosis
import Onepass.Proofs.Layout
import Onepass.Proofs.Concatenation
import Onepass.Proofs.Faults
import Onepass.Proofs.Constancy
import Onepass.Proofs.Dump
import Onepass.Proofs.Observation
import Onepass.Proofs.Registration
import Onepass.Proofs.Sparing.Statement
import Onepass.Proofs.Decimal.Remainder
import Onepass.Proofs.Decimal.Division
import Onepass.Proofs.Value.Comparison
import Onepass.Proofs.Decimal.Positional
import Onepass.Proofs.Lexing.Numeral
import Onepass.Proofs.Rounds
import Onepass.Proofs.Lexing.Account
import Onepass.Proofs.Returning
import Onepass.Proofs.Expansion
import Onepass.Proofs.Slots
import Onepass.Proofs.Lexing.LongestMatch
import Onepass.Proofs.TypeTest
import Onepass.Proofs.Conditional
import Onepass.Proofs.Interpolation
import Onepass.Proofs.Value.Retagging
import Onepass.Proofs.Scoping.Nesting
