import Reckoner.Reply.Embed
import Reckoner.Symbol.Basic

/-!
# The help of the calculator

The card that explains the operators and lists the functions and the constants of the table.
-/

namespace Reckoner

/-- The names of symbols in a row. -/
def nameList (names : List String) : String :=
  ", ".intercalate (names.map fun name => s!"`{name}`")

/-- What the operators do. -/
def operatorHelp : String :=
  "`+` `-` add/subtract, `*` `×` `/` `÷` multiply/divide, `^` or `**` power, " ++
  "`%` remainder, `!` factorial.\n" ++
  "`AdB` rolls A dice with B faces and adds them up (`1d20`, `4d6`). " ++
  "Use an uppercase `D` to list the individual rolls.\n" ++
  "Operators of the same kind are evaluated left to right, `^` included: " ++
  "`2^3^2` is `(2^3)^2`."

/-- Expressions to try. -/
def usageExamples : String :=
  "`5 * (3 + 2)`\n" ++
  "`2(3 + 4)` - Implicit multiplication\n" ++
  "`3d6 + 2`, `4D6` - Dice rolls\n" ++
  "`sqrt(64)`, `2sqrt(9)`\n" ++
  "`log(2, 1024)` - Logarithm of 1024 in base 2\n" ++
  "`max(1, 5, 3)`\n" ++
  "`sin(pi / 2)` - Angles are in radians\n" ++
  "`1.5E-3 * c` - Scientific notation uses an uppercase `E`"

/-- The card of the help. -/
def helpEmbed : Embed :=
  { title := "Calculator Help"
    description := "Evaluates a mathematical expression. Spaces are ignored."
    colour := .blue
    fields := [
      ⟨"Operators", operatorHelp, false⟩,
      ⟨"Functions", nameList (MathFunction.all.map MathFunction.name), false⟩,
      ⟨"Constants", nameList (MathConstant.all.map MathConstant.name), false⟩,
      ⟨"Usage Examples", usageExamples, false⟩]
    footer := some "Use `mathsteps <expression>` to see every step of the evaluation." }

end Reckoner
