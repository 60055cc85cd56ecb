import LineCalc.Main
import LineCalc.Expr.Program
import LineCalc.Proofs.Lexis
import LineCalc.Proofs.Derivations
import LineCalc.Proofs.Standing
import LineCalc.Proofs.Writing
import LineCalc.Proofs.Acceptance
import LineCalc.Proofs.Threshold
import LineCalc.Proofs.Munching
import LineCalc.Proofs.Viability
import LineCalc.Proofs.Position
import LineCalc.Proofs.Calls
import LineCalc.Proofs.Lines
import LineCalc.Proofs.Tallying
import LineCalc.Proofs.Whitelist
import LineCalc.Proofs.OneLine
import LineCalc.Proofs.Scraping
import LineCalc.Proofs.FullOutput
import LineCalc.Proofs.Completion
import LineCalc.Proofs.Nearest
import LineCalc.Proofs.Literals
import LineCalc.Proofs.Fields
import LineCalc.Proofs.Digits
import LineCalc.Proofs.Printing
import LineCalc.Proofs.Feedback
import LineCalc.Proofs.Accounting
import LineCalc.Proofs.Fragments
import LineCalc.Proofs.Spacing
import LineCalc.Proofs.Classification
import LineCalc.Proofs.Assignment
import LineCalc.Proofs.Stack
import LineCalc.Proofs.Substitution
import LineCalc.Proofs.Value
import LineCalc.Proofs.Order
import LineCalc.Proofs.WholeNumber
import LineCalc.Proofs.Rounding
import LineCalc.Proofs.Remainder
import LineCalc.Proofs.Distinction
import LineCalc.Proofs.LineEnds
import LineCalc.Proofs.Precision
import LineCalc.Proofs.Quotient
import LineCalc.Proofs.Extremes
import LineCalc.Proofs.Conversion
