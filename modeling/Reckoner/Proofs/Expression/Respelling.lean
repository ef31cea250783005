import Mathlib
import Reckoner.Expression.Term
import Reckoner.Proofs.Expression.Literal
import Reckoner.Proofs.Expression.Term

/-!
# Other spellings

A `Respelling` writes other characters for some of the characters of a text: other letter cases,
other signs of the same operators, or one dice operator for the other.  It leaves alone what a
text is read by (`isMark`), so the other spelling is read as the same term, respelled
(`Respelling.read_text`).
-/

namespace Reckoner

/-- Whether reading a text depends on the character, for other reasons than the operator or the name
that it is written in. -/
def isMark (c : Char) : Bool :=
  Text.isDigit c || ['.', '_', 'E', '+', '-', '!', '(', ')', '[', ']', ',', ';'].contains c

/-- The digits of a power of ten at the beginning of a text, after the sign. -/
def WrittenExponent.scanAfter? (sign : Option Char) (t : Text) : Option (WrittenExponent × Text) :=
  match t.takeWhile Text.isDecimal with
  | [] => none
  | digits => some (⟨sign, digits⟩, t.dropWhile Text.isDecimal)

theorem WrittenExponent.scan?_unsigned {d : Char} {body : Text} (hplus : d ≠ '+')
    (hminus : d ≠ '-') :
    scan? ('E' :: d :: body) = scanAfter? none (d :: body) := by
  unfold scan?
  split
  · rename_i rest hrest
    cases hrest
    split
    rename_i sign unsigned hsign
    split at hsign
    · rename_i h
      exact absurd (List.cons.inj h).1 hplus
    · rename_i h
      exact absurd (List.cons.inj h).1 hminus
    · cases hsign
      rfl
  · rename_i hne
    exact absurd rfl (hne _)

/-- Another way to write a text, character by character. -/
structure Respelling where
  /-- What is written for a character. -/
  letter : Char → Char
  /-- Which dice operator is written for a dice operator. -/
  loud : Bool → Bool
  /-- No mark is written in another way. -/
  letter_of_isMark : ∀ {c}, isMark c = true → letter c = c
  /-- Nothing else is written as a mark. -/
  isMark_of_letter : ∀ {c}, isMark (letter c) = true → isMark c = true
  /-- The sign of a product stays itself. -/
  letter_star : letter '*' = '*'
  /-- An operator is written for an operator. -/
  operator?_letter : ∀ (tier : Tier) (c : Char), tier.operator? (letter c) =
    (tier.operator? c).map fun
      | .arithmetic op => .arithmetic op
      | .dice l => .dice (loud l)
  /-- A text begins with the same name. -/
  atStart?_map : ∀ t : Text, Symbol.atStart? (t.map letter) = Symbol.atStart? t

namespace Respelling

variable (r : Respelling)

/-! ## Characters -/

/-- What is written for an operator. -/
def operator : Operator → Operator
  | .arithmetic op => .arithmetic op
  | .dice l => .dice (r.loud l)

/-- The text in its other spelling. -/
def text (t : Text) : Text := t.map r.letter

section

variable {r}

/-- A mark is written for itself only. -/
theorem letter_eq_iff {c mark : Char} (h : isMark mark = true) : r.letter c = mark ↔ c = mark := by
  constructor
  · rintro rfl
    exact (r.letter_of_isMark (r.isMark_of_letter h)).symm
  · rintro rfl
    exact r.letter_of_isMark h

theorem letter_ne {c mark : Char} (h : isMark mark = true) (hc : c ≠ mark) :
    r.letter c ≠ mark := mt (letter_eq_iff h).1 hc

/-- Respelling does not change whether a character is one of some marks. -/
theorem apply_letter {p : Char → Bool} (h : ∀ c, p c = true → isMark c = true) (c : Char) :
    p (r.letter c) = p c := by
  rw [Bool.eq_iff_iff]
  constructor
  · intro hp
    rwa [r.letter_of_isMark (r.isMark_of_letter (h _ hp))] at hp
  · intro hp
    rwa [r.letter_of_isMark (h c hp)]

theorem isMark_of_isDecimal {c : Char} (h : Text.isDecimal c = true) : isMark c = true := by
  simp [isMark, Text.isDigit, h]

@[simp] theorem isDecimal_letter (c : Char) : Text.isDecimal (r.letter c) = Text.isDecimal c :=
  apply_letter (fun _ => isMark_of_isDecimal) c

@[simp] theorem isDigit_letter (c : Char) : Text.isDigit (r.letter c) = Text.isDigit c :=
  apply_letter (fun d hd => by simp [isMark, hd]) c

/-- A mark and the characters that are written as marks are compared in the same way. -/
theorem letter_beq {c mark : Char} (h : isMark mark = true) :
    (r.letter c == mark) = (c == mark) := by
  rw [Bool.eq_iff_iff, beq_iff_eq, beq_iff_eq, letter_eq_iff h]

/-- A text of marks has no other spelling. -/
theorem text_eq_self {t : Text} (h : ∀ c ∈ t, isMark c = true) : r.text t = t :=
  (List.map_congr_left fun c hc => r.letter_of_isMark (h c hc)).trans (List.map_id t)

@[simp] theorem isOperator_letter (c : Char) :
    Operator.isOperator (r.letter c) = Operator.isOperator c := by
  simp only [Operator.isOperator, r.operator?_letter, Option.isSome_map]

end

@[simp] theorem text_nil : r.text [] = [] := rfl

@[simp] theorem text_cons (c : Char) (t : Text) : r.text (c :: t) = r.letter c :: r.text t := rfl

@[simp] theorem text_append (s t : Text) : r.text (s ++ t) = r.text s ++ r.text t := List.map_append

@[simp] theorem text_reverse (t : Text) : r.text t.reverse = (r.text t).reverse := List.map_reverse

@[simp] theorem text_eq_nil {t : Text} : r.text t = [] ↔ t = [] := List.map_eq_nil_iff

@[simp] theorem length_text (t : Text) : (r.text t).length = t.length := List.length_map _

theorem dropLast_text (t : Text) : (r.text t).dropLast = r.text t.dropLast := List.map_dropLast.symm

theorem head?_text (t : Text) : (r.text t).head? = t.head?.map r.letter := List.head?_map

theorem getLast?_text (t : Text) : (r.text t).getLast? = t.getLast?.map r.letter :=
  List.getLast?_map

/-- A mark at the beginning stays there, and none comes there. -/
theorem head?_text_eq_some {mark : Char} (h : isMark mark = true) (t : Text) :
    (r.text t).head? = some mark ↔ t.head? = some mark := by
  rw [head?_text]
  cases t.head? with
  | none => simp
  | some c => rw [Option.map_some, Option.some_inj, Option.some_inj, letter_eq_iff h]

theorem getLast?_text_eq_some {mark : Char} (h : isMark mark = true) (t : Text) :
    (r.text t).getLast? = some mark ↔ t.getLast? = some mark := by
  rw [getLast?_text]
  cases t.getLast? with
  | none => simp
  | some c => rw [Option.map_some, Option.some_inj, Option.some_inj, letter_eq_iff h]

theorem takeWhile_text (t : Text) :
    (r.text t).takeWhile Text.isDecimal = t.takeWhile Text.isDecimal := by
  have hcomp : Text.isDecimal ∘ r.letter = Text.isDecimal := funext isDecimal_letter
  rw [text, List.takeWhile_map, hcomp]
  exact text_eq_self fun c hc => isMark_of_isDecimal (Text.all_takeWhile c hc)

theorem dropWhile_text (t : Text) :
    (r.text t).dropWhile Text.isDecimal = r.text (t.dropWhile Text.isDecimal) := by
  have hcomp : Text.isDecimal ∘ r.letter = Text.isDecimal := funext isDecimal_letter
  rw [text, List.dropWhile_map, hcomp, text]

/-! ## Operators -/

theorem isSignAfter_text (before : Text) :
    Operator.isSignAfter (r.text before) = Operator.isSignAfter before := by
  cases before with
  | nil => rfl
  | cons c before =>
    rw [text_cons, Operator.isSignAfter, Operator.isSignAfter, isOperator_letter,
      letter_beq (by decide), head?_text, Option.any_map]
    simp (disch := decide) only [isDigit_letter, letter_beq]

theorem at?_text (tier : Tier) (before : Text) (c : Char) :
    Operator.at? tier (r.text before) (r.letter c) =
      (Operator.at? tier before c).map r.operator := by
  unfold Operator.at?
  rw [isSignAfter_text]
  split
  · rfl
  · exact r.operator?_letter tier c

/-- The split of a text, respelled. -/
def split (s : Split) : Split := ⟨r.text s.before, r.operator s.operator, r.text s.after⟩

theorem goLeft_text (tier : Tier) (depth : Int) (after t : Text) :
    Split.goLeft tier depth (r.text after) (r.text t) =
      (Split.goLeft tier depth after t).map r.split := by
  induction t generalizing depth after with
  | nil => rfl
  | cons c before ih =>
    have hafter : r.letter c :: r.text after = r.text (c :: after) := rfl
    rw [text_cons, Split.goLeft, Split.goLeft, hafter, ih, ih, ih, at?_text]
    simp (disch := decide) only [letter_eq_iff]
    split
    · rfl
    · split
      · rfl
      · by_cases hdepth : depth = 0
        · rw [if_pos hdepth, if_pos hdepth]
          cases Operator.at? tier before c with
          | none => rfl
          | some op => simp [split]
        · rw [if_neg hdepth, if_neg hdepth]

theorem loosest?_text (t : Text) : Split.loosest? (r.text t) = (Split.loosest? t).map r.split := by
  have htier : ∀ tier, Split.atTier? tier (r.text t) = (Split.atTier? tier t).map r.split := by
    intro tier
    rw [Split.atTier?, ← text_reverse]
    exact r.goLeft_text tier 0 [] t.reverse
  simp only [Split.loosest?, htier]
  rw [List.map_findSome?]
  rfl

/-! ## Lists -/

theorem depthAfter_letter (depth : Int) (c : Char) :
    ArgumentList.depthAfter depth (r.letter c) = ArgumentList.depthAfter depth c := by
  simp (disch := decide) only [ArgumentList.depthAfter, letter_eq_iff]

theorem hasComma_text (depth : Int) (t : Text) :
    ArgumentList.hasComma depth (r.text t) = ArgumentList.hasComma depth t := by
  induction t generalizing depth with
  | nil => rfl
  | cons c t ih =>
    rw [text_cons, ArgumentList.hasComma, ArgumentList.hasComma, depthAfter_letter, ih,
      letter_beq (by decide)]

theorem semicolons_text (depth : Int) (t : Text) :
    ArgumentList.semicolons depth (r.text t) = r.text (ArgumentList.semicolons depth t) := by
  induction t generalizing depth with
  | nil => rfl
  | cons c t ih =>
    rw [text_cons, ArgumentList.semicolons, ArgumentList.semicolons, depthAfter_letter, ih,
      text_cons]
    simp (disch := decide) only [letter_eq_iff]
    split
    · rw [r.letter_of_isMark (by decide)]
    · rfl

theorem items_text (depth : Int) (item t : Text) :
    ArgumentList.items depth (r.text item) (r.text t) =
      (ArgumentList.items depth item t).map r.text := by
  induction t generalizing depth item with
  | nil => simp [ArgumentList.items]
  | cons c t ih =>
    have hitem : r.letter c :: r.text item = r.text (c :: item) := rfl
    have hnil := ih depth []
    rw [text_nil] at hnil
    rw [text_cons, ArgumentList.items, ArgumentList.items, depthAfter_letter, hitem, ih, hnil]
    simp (disch := decide) only [letter_eq_iff]
    split
    · rw [List.map_cons, text_reverse]
    · rfl

theorem closing?_text (depth : Int) (position : Nat) (t : Text) :
    ArgumentList.closing? depth position (r.text t) = ArgumentList.closing? depth position t := by
  induction t generalizing depth position with
  | nil => rfl
  | cons c t ih =>
    rw [text_cons, ArgumentList.closing?, ArgumentList.closing?, depthAfter_letter, ih]
    simp (disch := decide) only [letter_eq_iff]

theorem readList?_text (t : Text) :
    ArgumentList.read? (r.text t) = (ArgumentList.read? t).map (List.map r.text) := by
  cases t with
  | nil => rfl
  | cons c rest =>
    by_cases hc : c = '['
    · subst hc
      have hclosing := r.closing?_text 0 0 ('[' :: rest)
      rw [text_cons, r.letter_of_isMark (by decide)] at hclosing ⊢
      rw [ArgumentList.read?, ArgumentList.read?, hclosing, length_text, dropLast_text]
      split
      · exact congrArg some (r.items_text 0 [] rest.dropLast)
      · rfl
    · have hc' : r.letter c ≠ '[' := letter_ne (by decide) hc
      simp [ArgumentList.read?, hc, hc']

/-! ## Numerals and names -/

theorem scanAfter?_text (sign : Option Char) (t : Text) :
    WrittenExponent.scanAfter? sign (r.text t) =
      (WrittenExponent.scanAfter? sign t).map (Prod.map id r.text) := by
  unfold WrittenExponent.scanAfter?
  rw [takeWhile_text, dropWhile_text]
  cases t.takeWhile Text.isDecimal <;> rfl

theorem scanExponent?_text (t : Text) :
    WrittenExponent.scan? (r.text t) = (WrittenExponent.scan? t).map (Prod.map id r.text) := by
  cases t with
  | nil => rfl
  | cons c rest =>
    by_cases hc : c = 'E'
    · subst hc
      rw [text_cons, r.letter_of_isMark (by decide)]
      cases rest with
      | nil => exact r.scanAfter?_text none []
      | cons d body =>
        by_cases hplus : d = '+'
        · subst hplus
          rw [text_cons, r.letter_of_isMark (by decide)]
          exact r.scanAfter?_text (some '+') body
        · by_cases hminus : d = '-'
          · subst hminus
            rw [text_cons, r.letter_of_isMark (by decide)]
            exact r.scanAfter?_text (some '-') body
          · rw [text_cons, WrittenExponent.scan?_unsigned hplus hminus,
              WrittenExponent.scan?_unsigned (letter_ne (by decide) hplus)
                (letter_ne (by decide) hminus)]
            exact r.scanAfter?_text none (d :: body)
    · have hc' : r.letter c ≠ 'E' := letter_ne (by decide) hc
      simp [WrittenExponent.scan?, hc, hc']

theorem scanMantissa?_text (t : Text) :
    Numeral.scanMantissa? (r.text t) = (Numeral.scanMantissa? t).map (Prod.map id r.text) := by
  unfold Numeral.scanMantissa?
  rw [takeWhile_text, dropWhile_text]
  cases t.dropWhile Text.isDecimal with
  | nil => cases h : (t.takeWhile Text.isDecimal).isEmpty <;> simp [h]
  | cons c rest =>
    by_cases hc : c = '.'
    · subst hc
      rw [text_cons, r.letter_of_isMark (by decide)]
      simp only [takeWhile_text, dropWhile_text]
      split <;> rfl
    · have hc' : r.letter c ≠ '.' := letter_ne (by decide) hc
      cases h : (t.takeWhile Text.isDecimal).isEmpty <;> simp [hc, hc', h]

theorem scanNumeral?_text (t : Text) :
    Numeral.scan? (r.text t) = (Numeral.scan? t).map (Prod.map id r.text) := by
  unfold Numeral.scan?
  rw [scanMantissa?_text]
  cases Numeral.scanMantissa? t with
  | none => rfl
  | some found =>
    obtain ⟨mantissa, rest⟩ := found
    simp only [Option.map_some, Prod.map, scanExponent?_text]
    cases WrittenExponent.scan? rest <;> rfl

theorem scanLiteral?_text (t : Text) :
    Literal.scan? (r.text t) = (Literal.scan? t).map (Prod.map id r.text) := by
  have hminus : isMark Literal.minus = true := by decide
  cases t with
  | nil => rfl
  | cons c rest =>
    have hcons := r.scanNumeral?_text (c :: rest)
    rw [text_cons] at hcons
    rw [text_cons, Literal.scan?, Literal.scan?, hcons, scanNumeral?_text]
    simp only [letter_eq_iff hminus]
    split
    · cases Numeral.scan? rest <;> rfl
    · cases Numeral.scan? (c :: rest) <;> rfl

theorem readLiteral?_text (t : Text) : Literal.read? (r.text t) = Literal.read? t := by
  unfold Literal.read?
  rw [scanLiteral?_text]
  cases Literal.scan? t with
  | none => rfl
  | some found =>
    obtain ⟨l, rest⟩ := found
    cases rest <;> rfl

/-- The name at the beginning of a text, respelled. -/
def naming (n : Naming) : Naming := ⟨n.factor, n.symbol, r.text n.rest⟩

theorem readNaming?_text (t : Text) : Naming.read? (r.text t) = (Naming.read? t).map r.naming := by
  have hname : ∀ (factor : Option Literal) (name : Text),
      ((Symbol.atStart? (r.text name)).map fun s =>
        (⟨factor, s, (r.text name).drop s.letters.length⟩ : Naming)) =
        ((Symbol.atStart? name).map fun s =>
          (⟨factor, s, name.drop s.letters.length⟩ : Naming)).map r.naming := by
    intro factor name
    rw [text, r.atStart?_map]
    cases Symbol.atStart? name with
    | none => rfl
    | some s => simp [naming, text, List.map_drop]
  unfold Naming.read?
  rw [scanLiteral?_text]
  cases Literal.scan? t with
  | none => exact hname none t
  | some found => exact hname (some found.1) found.2

/-- The characters of a literal are marks. -/
theorem text_literal {l : Literal} (h : l.WellFormed) : r.text l.text = l.text := by
  refine text_eq_self fun c hc => ?_
  have hletter := Literal.isLetter_of_mem h c hc
  simp only [Literal.isLetter, Numeral.isMantissa, Bool.or_eq_true, beq_iff_eq] at hletter
  rcases hletter with ((((hc | rfl) | rfl) | rfl) | rfl) | rfl
  · exact isMark_of_isDecimal hc
  all_goals decide

theorem hasUnfinishedExponent_text (t : Text) :
    hasUnfinishedExponent (r.text t) = hasUnfinishedExponent t := by
  have hstarts : ∀ t, startsUnfinishedExponent (r.text t) = startsUnfinishedExponent t := by
    intro t
    match t with
    | [] => rfl
    | [c] => rfl
    | [c, e] => simp [startsUnfinishedExponent]
    | c :: e :: sign :: rest =>
      by_cases he : e = 'E'
      · subst he
        have hexponent : r.letter 'E' = 'E' := r.letter_of_isMark (by decide)
        rw [text_cons, text_cons, text_cons, hexponent]
        simp (disch := decide) only [startsUnfinishedExponent, isDecimal_letter, letter_beq,
          head?_text, Option.any_map]
      · have he' : r.letter e ≠ 'E' := letter_ne (by decide) he
        simp [startsUnfinishedExponent, he, he']
  induction t with
  | nil => rfl
  | cons c t ih =>
    have h := hstarts (c :: t)
    rw [text_cons] at h ⊢
    rw [hasUnfinishedExponent, hasUnfinishedExponent, h, ih]

/-! ## Terms -/

mutual
/-- The term, respelled. -/
def term : Term → Term
  | .absent => .absent
  | .tooDeep => .tooDeep
  | .binary op source left right => .binary (r.operator op) (r.text source) (term left) (term right)
  | .factorial operand => .factorial (term operand)
  | .constant source factor c tail => .constant (r.text source) factor c (term tail)
  | .call source factor f written args =>
    .call (r.text source) factor f (r.text written) (terms args)
  | .emptyCall source factor f written => .emptyCall (r.text source) factor f (r.text written)
  | .literal l => .literal l
  | .unreadable t => .unreadable (r.text t)

/-- The terms, respelled. -/
def terms : List Term → List Term
  | [] => []
  | t :: rest => term t :: terms rest
end

theorem terms_eq_map (args : List Term) : r.terms args = args.map r.term := by
  induction args with
  | nil => rfl
  | cons t rest ih => rw [terms, ih, List.map_cons]

/-- The other spelling of a text is read as the same term, respelled. -/
theorem read_text [Stack] (room charge : Nat) (t : Text) :
    Term.read room charge (r.text t) = r.term (Term.read room charge t) := by
  induction room generalizing charge t with
  | zero => simp [Term.read, term]
  | succ room ih =>
    cases charge with
    | succ charge => rw [Term.read_charge, Term.read_charge, ih]
    | zero =>
      by_cases hnil : t = []
      · subst hnil
        rw [text_nil, Term.read_nil, term]
      · have hnil' : r.text t ≠ [] := fun h => hnil ((r.text_eq_nil).1 h)
        rw [Term.read.eq_4 _ _ hnil, Term.read.eq_4 _ _ hnil', loosest?_text]
        cases Split.loosest? t with
        | some s => simp only [Option.map_some, split, ih, term]
        | none =>
          simp (disch := decide) only [Option.map_none, getLast?_text_eq_some]
          split
          · rw [dropLast_text, ih, term]
          · rw [readNaming?_text]
            cases Naming.read? t with
            | none =>
              simp only [Option.map_none, readLiteral?_text]
              cases Literal.read? t <;> simp only [term]
            | some n =>
              obtain ⟨factor, s, rest⟩ := n
              cases s with
              | constant c => simp only [Option.map_some, naming, ih, term]
              | function f =>
                simp only [Option.map_some, naming, readList?_text]
                cases rest with
                | nil => simp only [text_nil, term]
                | cons c rest =>
                  cases ArgumentList.read? (c :: rest) with
                  | none => simp [term, terms, ← ih]
                  | some items =>
                    have hempty : (items.map r.text).any List.isEmpty = items.any List.isEmpty := by
                      rw [List.any_map]
                      congr 1
                      funext item
                      cases item <;> rfl
                    simp only [Option.map_some, text_cons, hempty]
                    split
                    · simp only [term, text_cons]
                    · simp only [term, terms_eq_map, List.map_map, text_cons]
                      congr 1
                      exact List.map_congr_left fun item _ => ih _ item

end Respelling

end Reckoner
