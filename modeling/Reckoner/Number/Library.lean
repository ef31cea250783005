/-!
# The mathematical library

Powers, exponentials, logarithms and angles are not computed here: they are taken from a library
of functions on doubles, about whose values nothing is said.  Everything that uses them takes the
library as an instance, so that what is proved holds of every library.
-/

namespace Reckoner

/-- The functions on doubles that a mathematical library provides. -/
class MathLibrary where
  /-- The first number to the power of the second. -/
  pow : Float → Float → Float
  /-- Euler's number to the power of a number. -/
  exp : Float → Float
  /-- The natural logarithm. -/
  log : Float → Float
  /-- The sine of an angle. -/
  sin : Float → Float
  /-- The cosine of an angle. -/
  cos : Float → Float
  /-- The tangent of an angle. -/
  tan : Float → Float
  /-- The angle of a sine. -/
  asin : Float → Float
  /-- The angle of a cosine. -/
  acos : Float → Float
  /-- The angle of a tangent. -/
  atan : Float → Float

/-- The library that the program is linked with. -/
instance MathLibrary.linked : MathLibrary where
  pow := Float.pow
  exp := Float.exp
  log := Float.log
  sin := Float.sin
  cos := Float.cos
  tan := Float.tan
  asin := Float.asin
  acos := Float.acos
  atan := Float.atan

end Reckoner
