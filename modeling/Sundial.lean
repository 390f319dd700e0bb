import Sundial.Main
import Sundial.Proofs.Calendar.Midpoint
import Sundial.Proofs.Command.Balance
import Sundial.Proofs.Command.Rollback
import Sundial.Proofs.Command.Tidying
import Sundial.Proofs.Evaluation.Accounting
import Sundial.Proofs.Evaluation.Asking
import Sundial.Proofs.Evaluation.Breakdown
import Sundial.Proofs.Evaluation.Misfits
import Sundial.Proofs.Evaluation.Offsets
import Sundial.Proofs.Evaluation.Remembering
import Sundial.Proofs.Formula.Durations
import Sundial.Proofs.Formula.Places
import Sundial.Proofs.Formula.ReferenceChecks
import Sundial.Proofs.Formula.SourceLines
import Sundial.Proofs.Formula.Spaced
import Sundial.Proofs.Formula.Suggestions
import Sundial.Proofs.Formula.Tiling
import Sundial.Proofs.FormulaSet.Checked
import Sundial.Proofs.FormulaSet.Permuted
import Sundial.Proofs.FormulaSet.Turns
import Sundial.Proofs.Grammar.Depth
import Sundial.Proofs.Printing.Minimal
