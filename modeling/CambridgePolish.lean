import CambridgePolish.Binary64.Text
import CambridgePolish.Expr.Eval
import CambridgePolish.Expr.Reader
import CambridgePolish.Line
import CambridgePolish.Main
import CambridgePolish.Program.Run
import CambridgePolish.Proofs.ExactValue
import CambridgePolish.Proofs.Grammar
import CambridgePolish.Proofs.Preorder
import CambridgePolish.Token.Classify
import CambridgePolish.Proofs.Nearest
import CambridgePolish.Proofs.Numerals
import CambridgePolish.Proofs.Words
import CambridgePolish.Proofs.Written
import CambridgePolish.Proofs.Failure
import CambridgePolish.Proofs.Nesting
import CambridgePolish.Proofs.LineValues
import CambridgePolish.Proofs.CutOff
import CambridgePolish.Proofs.CallOrder
import CambridgePolish.Proofs.Layout
import CambridgePolish.Proofs.LineByLine
import CambridgePolish.Proofs.Places
import CambridgePolish.Proofs.SingleLine
import CambridgePolish.Proofs.PadAndSplit
import CambridgePolish.Proofs.Adjoined
import CambridgePolish.Proofs.OneLine
import CambridgePolish.Proofs.Logging
import CambridgePolish.Proofs.FinalErrors
import CambridgePolish.Proofs.QuotedWords
import CambridgePolish.Proofs.Replacement
import CambridgePolish.Proofs.CallResults
import CambridgePolish.Proofs.CorrectRounding
import CambridgePolish.Proofs.IntegerNumerals
import CambridgePolish.Proofs.ShortestDigits
import CambridgePolish.Proofs.PrintedDoubles
