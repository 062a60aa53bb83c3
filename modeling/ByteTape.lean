import ByteTape.Text.Basic
import ByteTape.Text.Alphanumeric
import ByteTape.Text.ByteSize
import ByteTape.Text.Encoding
import ByteTape.Text.Numeral
import ByteTape.Text.Quoted
import ByteTape.Code.Basic
import ByteTape.Code.Primitive
import ByteTape.Code.Reader
import ByteTape.Code.Size
import ByteTape.Code.Writer
import ByteTape.Machine.Port
import ByteTape.Machine.Tape
import ByteTape.Machine.Basic
import ByteTape.Machine.Run
import ByteTape.Limits
import ByteTape.Program.Block
import ByteTape.Program.Token
import ByteTape.Program.Report
import ByteTape.Program.Parser
import ByteTape.Layout.CellSet
import ByteTape.Layout.Basic
import ByteTape.Layout.Lowering
import ByteTape.Compilation
import ByteTape.Cli.Arguments
import ByteTape.Cli.Directory
import ByteTape.Cli.Request
import ByteTape.Cli.Response
import ByteTape.Main
import ByteTape.Proofs.Behaviour
import ByteTape.Proofs.Reaching
import ByteTape.Proofs.Equivalence
import ByteTape.Proofs.Reading
import ByteTape.Proofs.Stepwise
import ByteTape.Proofs.Writing
import ByteTape.Proofs.Canonical
import ByteTape.Proofs.Lowered
import ByteTape.Proofs.Fragments
import ByteTape.Proofs.Lexing
import ByteTape.Proofs.Parsing
import ByteTape.Proofs.Grammar
import ByteTape.Proofs.Derivations
import ByteTape.Proofs.Simulation
import ByteTape.Proofs.Safety
import ByteTape.Proofs.Agreement
import ByteTape.Proofs.Lending
import ByteTape.Proofs.Sessions
import ByteTape.Proofs.Input
import ByteTape.Proofs.Output
import ByteTape.Proofs.Concatenation
import ByteTape.Proofs.Faults
import ByteTape.Proofs.Tables
import ByteTape.Proofs.Balance
import ByteTape.Proofs.Usage
import ByteTape.Proofs.Brackets
import ByteTape.Proofs.Clears
import ByteTape.Proofs.Viability
import ByteTape.Proofs.Lexemes
import ByteTape.Proofs.Comments
import ByteTape.Proofs.Tokens
import ByteTape.Proofs.Renaming
import ByteTape.Proofs.Sizes
import ByteTape.Proofs.Widening
import ByteTape.Proofs.Excerpts
import ByteTape.Proofs.Hints
import ByteTape.Proofs.Restoring
import ByteTape.Proofs.Integrity
