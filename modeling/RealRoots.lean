import RealRoots.Catalogue
import RealRoots.CommandLine.Session
import RealRoots.Json.Reader
import RealRoots.Main
import RealRoots.Proofs.Parsing.Steps
import RealRoots.Record
import RealRoots.Proofs.Parsing.Soundness
import RealRoots.Proofs.Parsing.Completeness
import RealRoots.Proofs.Grammar.Unambiguity
import RealRoots.Proofs.Parsing.Exactness
import RealRoots.Proofs.Parsing.CallStack
import RealRoots.Proofs.Parsing.Recursion
import RealRoots.Proofs.Solver.Passes
import RealRoots.Proofs.Solver.NewtonOrbit
import RealRoots.Proofs.Solver.SecantOrbit
import RealRoots.Proofs.Parsing.Brackets
import RealRoots.Proofs.Solver.Stopping
import RealRoots.Proofs.Solver.Parameters
import RealRoots.Proofs.Solver.Runs
import RealRoots.Proofs.Solver.Observation
import RealRoots.Proofs.Number.Doubles
import RealRoots.Proofs.Json.ReadBack
import RealRoots.Proofs.Record.Uuid
import RealRoots.Proofs.Solver.Divisors
import RealRoots.Proofs.Calendar.Timestamp
import RealRoots.Proofs.Record.Stored
import RealRoots.Proofs.Expr.Evaluation
import RealRoots.Proofs.Solver.Failures
import RealRoots.Proofs.Solver.Range
import RealRoots.Proofs.Solver.Coherence
import RealRoots.Proofs.Number.Order
import RealRoots.Proofs.Solver.Budget
import RealRoots.Proofs.Solver.Cuts
import RealRoots.Proofs.Solver.Causes
import RealRoots.Proofs.Expr.Differentiation
import RealRoots.Proofs.Solver.Refusal
import RealRoots.Proofs.Comparison.Separate
import RealRoots.Proofs.Record.Storage
import RealRoots.Proofs.Comparison.Mirror
import RealRoots.Proofs.Number.PlainText
import RealRoots.Proofs.Printing.Pieces
import RealRoots.Proofs.Printing.Reread
import RealRoots.Proofs.CommandLine.Effective
import RealRoots.Proofs.CommandLine.Sessions
import RealRoots.Proofs.Solver.FinalPoint
import RealRoots.Proofs.Expr.Strictness
import RealRoots.Proofs.Tokens.Spacing
import RealRoots.Proofs.Parsing.Positions
import RealRoots.Proofs.Parsing.Spacing
import RealRoots.Proofs.Grammar.Viability
import RealRoots.Proofs.Parsing.SyntaxErrors
import RealRoots.Proofs.Comparison.Ranking
import RealRoots.Proofs.Number.Monotone
import RealRoots.Proofs.Number.Arithmetic
import RealRoots.Proofs.Expr.Independence
import RealRoots.Proofs.Number.Quotients
import RealRoots.Proofs.Sampling
import RealRoots.Proofs.Expr.Powers
import RealRoots.Proofs.Number.Zeros
import RealRoots.Proofs.Solver.Constants
import RealRoots.Proofs.Expr.Depth
import RealRoots.Proofs.Solver.ExactZeros
