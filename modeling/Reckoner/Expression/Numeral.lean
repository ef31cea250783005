import Reckoner.Number.Layout

/-!
# Numerals

A numeral is a run of decimal digits with at most one point among them, and an optional power of
ten after a capital `E`.  A literal is a numeral with an optional minus, which is written `_` so
that it is never taken for a subtraction.  Scanning takes the longest numeral at the beginning of
a text; writing gives back the text that was taken.
-/

namespace Reckoner

/-! ## Numerals -/

/-- A power of ten as it is written. -/
structure WrittenExponent where
  /-- The sign, if one is written. -/
  sign : Option Char
  /-- The digits. -/
  digits : Text
  deriving DecidableEq, Repr

namespace WrittenExponent

/-- The text of a power of ten. -/
def text (e : WrittenExponent) : Text := 'E' :: e.sign.toList ++ e.digits

/-- The number that is written. -/
def value (e : WrittenExponent) : Int :=
  if e.sign = some '-' then -(Text.digitsValue e.digits : Int) else Text.digitsValue e.digits

/-- The power of ten at the beginning of a text, with what follows it. -/
def scan? : Text → Option (WrittenExponent × Text)
  | 'E' :: rest =>
    let (sign, body) : Option Char × Text :=
      match rest with
      | '+' :: body => (some '+', body)
      | '-' :: body => (some '-', body)
      | body => (none, body)
    match body.takeWhile Text.isDecimal with
    | [] => none
    | digits => some (⟨sign, digits⟩, body.dropWhile Text.isDecimal)
  | _ => none

end WrittenExponent

/-- A numeral as it is written. -/
structure Numeral where
  /-- The digits before the point. -/
  whole : Text
  /-- Whether a point is written. -/
  point : Bool
  /-- The digits behind the point. -/
  fraction : Text
  /-- The power of ten, if one is written. -/
  exponent : Option WrittenExponent
  deriving DecidableEq, Repr

namespace Numeral

/-- The text of a numeral. -/
def text (n : Numeral) : Text :=
  n.whole ++ (if n.point then ['.'] else []) ++ n.fraction ++
    (n.exponent.map WrittenExponent.text).getD []

/-- The number that a numeral denotes. -/
def decimal (n : Numeral) : Number.Decimal :=
  ⟨Text.digitsValue (n.whole ++ n.fraction),
    (n.exponent.map WrittenExponent.value).getD 0 - n.fraction.length⟩

/-- The double that a numeral denotes; an infinity beyond the range. -/
def value (n : Numeral) : Float := n.decimal.toFloat

/-- The digits and the point of a numeral, with what follows them. -/
def scanMantissa? (t : Text) : Option (Numeral × Text) :=
  let whole := t.takeWhile Text.isDecimal
  match t.dropWhile Text.isDecimal with
  | '.' :: rest =>
    let fraction := rest.takeWhile Text.isDecimal
    if whole.isEmpty && fraction.isEmpty then none
    else some (⟨whole, true, fraction, none⟩, rest.dropWhile Text.isDecimal)
  | rest => if whole.isEmpty then none else some (⟨whole, false, [], none⟩, rest)

/-- The longest numeral at the beginning of a text, with what follows it. -/
def scan? (t : Text) : Option (Numeral × Text) :=
  (scanMantissa? t).map fun (mantissa, rest) =>
    match WrittenExponent.scan? rest with
    | some (exponent, rest) => (⟨mantissa.whole, mantissa.point, mantissa.fraction, exponent⟩, rest)
    | none => (mantissa, rest)

end Numeral

/-! ## Literals -/

/-- A numeral that may be negative. -/
structure Literal where
  /-- Whether a minus is written. -/
  negative : Bool
  /-- The numeral. -/
  numeral : Numeral
  deriving DecidableEq, Repr

namespace Literal

/-- The character that stands for the minus of a literal. -/
def minus : Char := '_'

/-- The text of a literal. -/
def text (l : Literal) : Text := (if l.negative then [minus] else []) ++ l.numeral.text

/-- The text of a literal for the reader of a trace. -/
def shown (l : Literal) : Text :=
  (if l.negative then ['(', '-', ')'] else []) ++ l.numeral.text

/-- The longest literal at the beginning of a text, with what follows it. -/
def scan? : Text → Option (Literal × Text)
  | [] => none
  | c :: rest =>
    if c = minus then (Numeral.scan? rest).map fun (n, rest) => (⟨true, n⟩, rest)
    else (Numeral.scan? (c :: rest)).map fun (n, rest) => (⟨false, n⟩, rest)

/-- The literal that is the whole text. -/
def read? (t : Text) : Option Literal :=
  match scan? t with
  | some (l, []) => some l
  | _ => none

/-- The text of a number as a literal, which reads back as the number. -/
def ofFloat (x : Float) : Text :=
  let unsigned := (Number.plainText x.abs).map Char.toUpper
  if x < 0 then minus :: unsigned else unsigned

end Literal

/-! ## Unfinished powers of ten -/

/-- Whether a power of ten at the beginning of a text has a sign and no digit after it. -/
def startsUnfinishedExponent : Text → Bool
  | c :: 'E' :: sign :: rest =>
    (Text.isDecimal c || c == '.') && (sign == '+' || sign == '-') &&
      !(rest.head?.any Text.isDecimal)
  | _ => false

/-- Whether some power of ten in the text has a sign and no digit after it. -/
def hasUnfinishedExponent : Text → Bool
  | [] => false
  | c :: rest => startsUnfinishedExponent (c :: rest) || hasUnfinishedExponent rest

end Reckoner
