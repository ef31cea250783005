import Reckoner.Text.Ranges

/-!
# The symbol table

The named constants and functions that an expression may use, in the order in which they are
listed, with their descriptions and with how many arguments each of them takes.  No name holds a
`d`, which an expression reads as the dice operator.
-/

namespace Reckoner

/-- The named constants. -/
inductive MathConstant where
  | pi | tau | euler | goldenRatio | lightSpeed | gravitation | coulomb | permittivity
  | permeability | electronCharge | avogadro
  deriving DecidableEq, Repr

/-- The named functions. -/
inductive MathFunction where
  | abs | sqrt | cbrt | ln | exp | sin | cos | tan | arcsin | arccos | arctan | ceil | floor
  | max | min | log
  deriving DecidableEq, Repr

/-- A name that an expression may use. -/
inductive Symbol where
  | constant (c : MathConstant)
  | function (f : MathFunction)
  deriving DecidableEq, Repr

/-! ## Constants -/

namespace MathConstant

/-- The constants in the order of the table. -/
def all : List MathConstant :=
  [pi, tau, euler, goldenRatio, lightSpeed, gravitation, coulomb, permittivity, permeability,
    electronCharge, avogadro]

/-- The name of a constant. -/
def name : MathConstant → String
  | pi => "pi"
  | tau => "tau"
  | euler => "e"
  | goldenRatio => "phi"
  | lightSpeed => "c"
  | gravitation => "g"
  | coulomb => "k"
  | permittivity => "epsilon"
  | permeability => "mu0"
  | electronCharge => "electron"
  | avogadro => "na"

/-- The value of a constant; the physical ones are in SI units. -/
def value : MathConstant → Float
  | pi => 3.141592653589793
  | tau => 6.283185307179586
  | euler => 2.718281828459045
  | goldenRatio => (1 + Float.sqrt 5) / 2
  | lightSpeed => 299792458
  | gravitation => 6.67408e-11
  | coulomb => 8.9875517923e9
  | permittivity => 8.8541878128e-12
  | permeability => 1.25663706212e-6
  | electronCharge => 1.60217662e-19
  | avogadro => 6.02214076e23

/-- What a constant is. -/
def description : MathConstant → String
  | pi => "Ratio of a circle's circumference to its diameter"
  | tau => "2π"
  | euler => "Euler's number"
  | goldenRatio => "Golden ratio"
  | lightSpeed => "Speed of light (m/s)"
  | gravitation => "Gravitational constant (m³/kg·s²)"
  | coulomb => "Coulomb constant (N·m²/C²)"
  | permittivity => "Vacuum permittivity (F/m)"
  | permeability => "Vacuum permeability (N/A²)"
  | electronCharge => "Elementary charge (C)"
  | avogadro => "Avogadro's number (1/mol)"

theorem mem_all (c : MathConstant) : c ∈ all := by cases c <;> decide

end MathConstant

/-! ## Functions -/

namespace MathFunction

/-- The functions in the order of the table. -/
def all : List MathFunction :=
  [abs, sqrt, cbrt, ln, exp, sin, cos, tan, arcsin, arccos, arctan, ceil, floor, max, min, log]

/-- The name of a function. -/
def name : MathFunction → String
  | abs => "abs"
  | sqrt => "sqrt"
  | cbrt => "cbrt"
  | ln => "ln"
  | exp => "exp"
  | sin => "sin"
  | cos => "cos"
  | tan => "tan"
  | arcsin => "arcsin"
  | arccos => "arccos"
  | arctan => "arctan"
  | ceil => "ceil"
  | floor => "floor"
  | max => "max"
  | min => "min"
  | log => "log"

/-- What a function computes. -/
def description : MathFunction → String
  | abs => "Absolute value"
  | sqrt => "Square root"
  | cbrt => "Cube root"
  | ln => "Natural logarithm"
  | exp => "e raised to the argument"
  | sin => "Sine (radians)"
  | cos => "Cosine (radians)"
  | tan => "Tangent (radians)"
  | arcsin => "Inverse sine"
  | arccos => "Inverse cosine"
  | arctan => "Inverse tangent"
  | ceil => "Round up"
  | floor => "Round down"
  | max => "Largest of the arguments"
  | min => "Smallest of the arguments"
  | log => "log(b, a): logarithm of a in base b"

theorem mem_all (f : MathFunction) : f ∈ all := by cases f <;> decide

end MathFunction

/-! ## Argument counts -/

/-- How many arguments a symbol takes: none, one, or several. -/
inductive Arity where
  | zero
  | one
  | many
  deriving DecidableEq, Repr

/-- The name of an arity. -/
def Arity.name : Arity → String
  | .zero => "zero"
  | .one => "one"
  | .many => "many"

/-- The argument counts that a symbol accepts, both bounds included. -/
structure CountBounds where
  /-- The least number of arguments. -/
  least : Nat
  /-- The greatest number of arguments, if there is one. -/
  greatest : Option Nat
  deriving DecidableEq, Repr

namespace CountBounds

/-- Whether a number of arguments lies within the bounds. -/
def accepts (b : CountBounds) (count : Nat) : Bool :=
  b.least ≤ count && b.greatest.all (count ≤ ·)

/-- The bounds in words. -/
def describe (b : CountBounds) : String :=
  match b.greatest with
  | none => s!"expected at least {b.least}"
  | some greatest =>
    if b.least = greatest then s!"expected {b.least}"
    else s!"expected {b.least} to {greatest}"

end CountBounds

namespace MathFunction

/-- Whether a function takes one argument or several. -/
def arity : MathFunction → Arity
  | max | min | log => .many
  | _ => .one

/-- The argument counts that a function accepts. -/
def bounds : MathFunction → CountBounds
  | max | min => ⟨1, none⟩
  | log => ⟨2, some 2⟩
  | _ => ⟨1, some 1⟩

end MathFunction

/-! ## Symbols -/

namespace Symbol

/-- The symbols in the order of the table. -/
def all : List Symbol := MathConstant.all.map constant ++ MathFunction.all.map function

/-- The name of a symbol. -/
def name : Symbol → String
  | constant c => c.name
  | function f => f.name

/-- The name of a symbol as a text. -/
def letters (s : Symbol) : Text := s.name.toList

/-- What a symbol stands for. -/
def description : Symbol → String
  | constant c => c.description
  | function f => f.description

/-- How many arguments a symbol takes. -/
def arity : Symbol → Arity
  | constant _ => .zero
  | function f => f.arity

/-- The argument counts that a symbol accepts. -/
def bounds : Symbol → CountBounds
  | constant _ => ⟨0, some 0⟩
  | function f => f.bounds

theorem mem_all (s : Symbol) : s ∈ all := by
  cases s with
  | constant c => exact List.mem_append_left _ (List.mem_map_of_mem c.mem_all)
  | function f => exact List.mem_append_right _ (List.mem_map_of_mem f.mem_all)

/-- The symbol of a name written exactly as in the table. -/
def ofName? (name : String) : Option Symbol := all.find? (·.name == name)

end Symbol

end Reckoner
