import Reckoner.Bot.Messages
import Reckoner.Bot.Program
import Reckoner.Proofs.Bot.Console
import Reckoner.Proofs.Bot.Extensions
import Reckoner.Proofs.Dice.Overflow
import Reckoner.Proofs.Evaluation.Call
import Reckoner.Proofs.Evaluation.Consumption
import Reckoner.Proofs.Evaluation.Cuts
import Reckoner.Proofs.Evaluation.Determinism
import Reckoner.Proofs.Evaluation.Display
import Reckoner.Proofs.Evaluation.Applied
import Reckoner.Proofs.Evaluation.ExponentSign
import Reckoner.Proofs.Evaluation.Factorial
import Reckoner.Proofs.Evaluation.Factor
import Reckoner.Proofs.Evaluation.Formula
import Reckoner.Proofs.Evaluation.Nesting
import Reckoner.Proofs.Evaluation.Operand
import Reckoner.Proofs.Evaluation.Precedence
import Reckoner.Proofs.Evaluation.Quiet
import Reckoner.Proofs.Evaluation.Rolls
import Reckoner.Proofs.Evaluation.RoundTrip
import Reckoner.Proofs.Evaluation.Spelling
import Reckoner.Proofs.Evaluation.Watched
import Reckoner.Proofs.Number.Accuracy
import Reckoner.Proofs.Number.Precision
import Reckoner.Proofs.Reply.CodeBlock
import Reckoner.Proofs.Reply.Embed
import Reckoner.Proofs.Settings.CommandPrefix
import Reckoner.Proofs.Settings.Environment
import Reckoner.Proofs.Symbol.Alignment
