import Mathlib
import Reckoner.Proofs.Expression.Undivided

/-!
# Signs behind an `E`

A plus or minus behind a digit or point and an `E` is no operator, because it looks like the sign of
a power of ten.  What becomes of it when the text is read is `Term.SignFate`: it is the sign of a
power of ten, unless the text cannot be read there, or the `E` is the name of a constant behind
something that ends with a digit and is finished (`Term.signFate_of_isSignAfter`).
-/

namespace Reckoner

/-! ## Digits and names -/

/-- Whether a character makes an `E` behind it look like a power of ten. -/
def Operator.isFigure (c : Char) : Bool := Text.isDigit c || c == '.'

/-- The sign of an operand, and not an operator. -/
theorem Operator.isSignAfter_cons_cons (c d : Char) (before : Text) :
    isSignAfter (c :: d :: before) = (isOperator c || c == 'E' && isFigure d) := rfl

theorem Operator.not_isOperator_of_isFigure {c : Char} (h : isFigure c = true) :
    isOperator c = false := by
  have hletters : Tier.letters.all (fun d => !isFigure d) = true := by rfl
  rw [Bool.eq_false_iff]
  intro hop
  have hc := List.all_eq_true.1 hletters c (isOperator_iff.1 hop)
  rw [h] at hc
  exact absurd hc (by decide)

/-- The only figure that a name is written with is the zero. -/
theorem Symbol.eq_zero_of_lowersTo {c a : Char} (h : Operator.isFigure c = true)
    (hlower : Text.LowersTo c a) (ha : a ∈ alphabet) : a = '0' := by
  rw [Operator.isFigure, Bool.or_eq_true, beq_iff_eq] at h
  rcases h with h | rfl
  · exact (eq_zero_of_isDigit h hlower ha).2
  · exact absurd ha (by rw [← Option.some.inj hlower]; decide)

/-- Before a sign, an `E` is a name of its own. -/
theorem Symbol.eq_euler_of_atStart? {s : Char} (hs : s = '+' ∨ s = '-') {t : Text} {symbol : Symbol}
    (h : atStart? ('E' :: s :: t) = some symbol) : symbol = .constant .euler := by
  obtain ⟨cut, htext, hcut⟩ := exists_of_atStart? h
  have hsign : ∀ a ∈ alphabet, ¬ Text.LowersTo s a := by
    have hself : (Text.lowercaseAt [] s []).head? = some s := by
      rcases hs with rfl | rfl <;> rfl
    intro a ha hlower
    rw [Text.LowersTo, hself] at hlower
    rcases hs with rfl | rfl <;> exact absurd ha (by rw [← Option.some.inj hlower]; decide)
  have hletters : symbol.letters = ['e'] := by
    have hmem : ∀ a ∈ symbol.letters, a ∈ alphabet := fun a ha => mem_alphabet ha
    have hne := symbol.letters_ne_nil
    generalize symbol.letters = letters at hcut hmem hne htext
    cases hcut with
    | nil => exact absurd rfl hne
    | @cons c a cut letters hc hcut =>
      cases hcut with
      | nil =>
        obtain ⟨rfl, -⟩ := List.cons.inj htext
        rw [← Option.some.inj hc]
        rfl
      | @cons d b cut letters hd hcut =>
        obtain ⟨-, htail⟩ := List.cons.inj htext
        obtain ⟨rfl, -⟩ := List.cons.inj htail
        exact absurd hd (hsign b (hmem b (by simp)))
  exact @letters_injective _ (.constant .euler) hletters

/-! ## Pieces on the way -/

namespace Piece

variable [Stack] {p q : Piece}

/-- When a piece is read, another one is read on the way, if there is room enough. -/
def Reads (p q : Piece) : Prop := ∃ room, q ∈ (Term.readAt room 0 p).pieces

theorem Reads.refl (p : Piece) : p.Reads p := ⟨0, by simp [Term.readAt]⟩

/-- Both operands of a split piece are read on the way. -/
theorem Reads.of_split {s : Split} (h : Split.loosest? p.text = some s) {part : Piece}
    (hpart : part ∈ [p.initial s.before, p.final s.after]) (hq : part.Reads q) : p.Reads q := by
  obtain ⟨room, hq⟩ := hq
  obtain ⟨-, c, -, htext⟩ := Split.text_of_loosest? h
  have hne : p.text ≠ [] := by simp [htext]
  refine ⟨room + 1, ?_⟩
  rw [Term.readAt, if_neg hne]
  simp only [h, List.mem_cons, List.mem_append]
  rcases List.mem_pair.1 hpart with rfl | rfl
  · exact .inr (.inl hq)
  · exact .inr (.inr hq)

theorem Reads.left {s : Split} (h : Split.loosest? p.text = some s)
    (hq : (p.initial s.before).Reads q) : p.Reads q := hq.of_split h (by simp)

theorem Reads.right {s : Split} (h : Split.loosest? p.text = some s)
    (hq : (p.final s.after).Reads q) : p.Reads q := hq.of_split h (by simp)

section

variable (hne : p.text ≠ []) (hsplit : Split.loosest? p.text = none)
include hne hsplit

theorem Reads.operand (hbang : p.text.getLast? = some '!')
    (hq : (p.initial p.text.dropLast).Reads q) : p.Reads q := by
  obtain ⟨room, hq⟩ := hq
  refine ⟨room + 1, ?_⟩
  rw [Term.readAt, if_neg hne]
  simp only [hsplit, if_pos hbang]
  simp [hq]

variable (hbang : p.text.getLast? ≠ some '!') {n : Naming} (hname : Naming.read? p.text = some n)
include hbang hname

theorem Reads.factor {l : Literal} (hfactor : n.factor = some l) : p.Reads (p.initial l.text) := by
  obtain ⟨factor, symbol, rest⟩ := n
  obtain rfl : factor = some l := hfactor
  refine ⟨1, ?_⟩
  rw [Term.readAt, if_neg hne]
  simp only [hsplit, if_neg hbang, hname]
  cases symbol with
  | constant c => simp [Piece.factor]
  | function f =>
    cases rest with
    | nil => simp [Piece.factor]
    | cons c rest =>
      cases hlist : ArgumentList.read? (c :: rest) with
      | none => simp [hlist, Piece.factor]
      | some args =>
        simp only [hlist]
        split <;> simp [Piece.factor]

/-- What stands behind a name is read with less room, behind a function with still less. -/
theorem Reads.rest (hrest : n.rest ≠ []) (hlist : ArgumentList.read? n.rest = none)
    (hq : (p.final n.rest).Reads q) : p.Reads q := by
  obtain ⟨room, hq⟩ := hq
  obtain ⟨factor, symbol, rest⟩ := n
  cases symbol with
  | constant c =>
    refine ⟨room + 2, ?_⟩
    rw [Term.readAt, if_neg hne]
    simp only [hsplit, if_neg hbang, hname, Term.readAt]
    simp [hq]
  | function f =>
    obtain ⟨c, rest, rfl⟩ := List.exists_cons_of_ne_nil hrest
    refine ⟨room + 3, ?_⟩
    rw [Term.readAt, if_neg hne]
    simp only [hsplit, if_neg hbang, hname, hlist, Term.readAt]
    simp [hq]

end

/-! ## What becomes of a sign -/

/-- What becomes of a plus or minus behind an `E`, when a piece is read that it stands in behind
`before`. -/
inductive SignFate (p : Piece) (before : Text) (s : Char) : Prop where
  /-- It is the sign of the power of ten of a numeral that is read. -/
  | exponent {q : Piece} {l : Literal} {digits : Text} (hq : p.Reads q) (hl : l.WellFormed)
    (htext : q.text = l.text) (hexponent : l.numeral.exponent = some ⟨some s, digits⟩)
    (hbefore : before = q.before ++ l.mantissa ++ ['E'])
  /-- The `E` is a name behind the name `mu0`. -/
  | behindName {q : Piece} {n : Naming} {rest : Text} (hq : p.Reads q)
    (hname : Naming.read? q.text = some n) (hsymbol : n.symbol = .constant .permeability)
    (hrest : n.rest = 'E' :: s :: rest) (hbefore : before = (q.final n.rest).before ++ ['E'])
  /-- The `E` is a name behind a numeral that has a power of ten already. -/
  | behindNumeral {q : Piece} {n : Naming} {l : Literal} {e : WrittenExponent} (hq : p.Reads q)
    (hname : Naming.read? q.text = some n) (hsymbol : n.symbol = .constant .euler)
    (hfactor : n.factor = some l) (hfinished : l.numeral.exponent = some e)
    (hbefore : before = q.before ++ l.text ++ ['E'])
  /-- It stands in a piece that cannot be read. -/
  | unreadable {q : Piece} {x y : Text} (hq : p.Reads q)
    (hread : Term.read 1 0 q.text = .unreadable q.text) (htext : q.text = x ++ s :: y)
    (hbefore : before = q.before ++ x)
  /-- It is the sign of a power of ten without digits, which is reported. -/
  | unfinished {x y : Text} {d : Char} (hwhole : p.whole = x ++ d :: 'E' :: s :: y)
    (hbefore : before = x ++ [d, 'E'])
    (hstarts : startsUnfinishedExponent (d :: 'E' :: s :: y) = true)

/-- What becomes of a sign in a part becomes of it in the piece. -/
theorem SignFate.of_part {p q : Piece} {before : Text} {s : Char} (hpart : p.Part q)
    (hreads : ∀ r, q.Reads r → p.Reads r) (h : q.SignFate before s) : p.SignFate before s := by
  cases h with
  | exponent hq hl htext hexponent hbefore =>
    exact .exponent (hreads _ hq) hl htext hexponent hbefore
  | behindName hq hname hsymbol hrest hbefore =>
    exact .behindName (hreads _ hq) hname hsymbol hrest hbefore
  | behindNumeral hq hname hsymbol hfactor hfinished hbefore =>
    exact .behindNumeral (hreads _ hq) hname hsymbol hfactor hfinished hbefore
  | unreadable hq hread htext hbefore => exact .unreadable (hreads _ hq) hread htext hbefore
  | unfinished hwhole hbefore hstarts =>
    exact .unfinished (hpart.whole_eq.symm.trans hwhole) hbefore hstarts

end Piece

/-! ### Where the sign may stand -/

section

variable {p : Piece} {x y : Text} {d s : Char}

/-- A sign in a literal is the sign of its power of ten. -/
theorem Literal.eq_of_text_sign {l : Literal} (hl : l.WellFormed) (hs : s = '+' ∨ s = '-')
    (htext : l.text = x ++ d :: 'E' :: s :: y) :
    l.mantissa = x ++ [d] ∧ ∃ digits, l.numeral.exponent = some ⟨some s, digits⟩ := by
  have hsplit : l.text = (x ++ [d]) ++ 'E' :: s :: y := by simp [htext]
  obtain ⟨hmantissa, ⟨sign, digits⟩, he, hetext⟩ := eq_mantissa_of_exponent hl hsplit
  refine ⟨hmantissa.symm, ?_⟩
  simp only [WrittenExponent.text, List.cons_append, List.cons.injEq, true_and] at hetext
  cases sign with
  | none =>
    have hdecimal : Text.isDecimal s = true :=
      (hl.exponent _ he).digits s (by simp [show digits = s :: y from hetext])
    rcases hs with rfl | rfl <;> exact absurd hdecimal (by decide)
  | some sign =>
    obtain ⟨rfl, -⟩ := List.cons.inj hetext
    exact ⟨digits, he⟩

/-- A sign behind a numeral and an `E`, with no digit behind it, has a power of ten begun that is
not finished. -/
theorem startsUnfinishedExponent_sign (hd : Numeral.isMantissa d = true) (hs : s = '+' ∨ s = '-')
    (hy : ∀ c ∈ y.head?, Text.isDecimal c = false) :
    startsUnfinishedExponent (d :: 'E' :: s :: y) = true := by
  have hhead : y.head?.any Text.isDecimal = false := by
    cases y with
    | nil => rfl
    | cons c y => exact hy c rfl
  simp only [Numeral.isMantissa] at hd
  rcases hs with rfl | rfl <;> simp [startsUnfinishedExponent, hd, hhead]

namespace Split

/-- No operator is a figure, the `E` behind it or the sign behind that. -/
theorem exists_of_text_sign (hd : Operator.isFigure d = true) (hs : s = '+' ∨ s = '-')
    {t : Text} {split : Split} (h : loosest? t = some split)
    (htext : t = x ++ d :: 'E' :: s :: y) :
    ∃ c, Operator.isOperator c = true ∧ t = split.before ++ c :: split.after ∧
      ((∃ z, split.before = x ++ d :: 'E' :: s :: z) ∨
        ∃ z, x = split.before ++ c :: z ∧ split.after = z ++ d :: 'E' :: s :: y) := by
  obtain ⟨tier, c, hat, hsplit⟩ := text_of_loosest? h
  have hc : Operator.isOperator c = true :=
    Operator.isOperator_of_operator? (Split.operator?_of_at? hat)
  refine ⟨c, hc, hsplit, ?_⟩
  rw [htext] at hsplit
  rcases List.append_eq_append_iff.1 hsplit with ⟨z, hbefore, hz⟩ | ⟨z, hx, hz⟩
  · match z with
    | [] =>
      obtain ⟨rfl, -⟩ := List.cons.inj hz
      rw [Operator.not_isOperator_of_isFigure hd] at hc
      exact absurd hc (by decide)
    | [_] =>
      simp only [List.cons_append, List.nil_append, List.cons.injEq] at hz
      obtain ⟨-, rfl, -⟩ := hz
      exact absurd hc (by decide)
    | [_, _] =>
      -- the sign is no operator of a sum, and of no other tier either
      simp only [List.cons_append, List.nil_append, List.cons.injEq] at hz
      obtain ⟨rfl, rfl, rfl, -⟩ := hz
      have hafter : Operator.isSignAfter split.before.reverse = true := by
        rw [hbefore]
        simp [Operator.isSignAfter_cons_cons, hd]
      rcases hs with rfl | rfl <;> cases tier <;>
        first | (rw [Operator.at?_sum_eq_none hafter] at hat; cases hat) | cases hat
    | _ :: _ :: _ :: z =>
      simp only [List.cons_append, List.cons.injEq] at hz
      obtain ⟨rfl, rfl, rfl, -⟩ := hz
      exact .inl ⟨z, hbefore⟩
  · cases z with
    | nil =>
      obtain ⟨rfl, -⟩ := List.cons.inj hz
      rw [Operator.not_isOperator_of_isFigure hd] at hc
      exact absurd hc (by decide)
    | cons _ z =>
      obtain ⟨rfl, hafter⟩ := List.cons.inj hz
      exact .inr ⟨z, hx, hafter⟩

end Split

/-- Where a figure, an `E` behind it and a sign behind that stand in a text that begins with a
name. -/
inductive Naming.HoldsSign (n : Naming) (x y : Text) (d s : Char) : Prop where
  /-- In the factor. -/
  | inFactor {l : Literal} {z : Text} (hfactor : n.factor = some l) (hl : l.WellFormed)
    (htext : l.text = x ++ d :: 'E' :: s :: z)
  /-- The figure ends the factor, and the `E` is the name. -/
  | behindFactor {l : Literal} (hfactor : n.factor = some l) (hl : l.WellFormed)
    (htext : l.text = x ++ [d]) (hsymbol : n.symbol = .constant .euler)
    (hscan : l.numeral.exponent = none → WrittenExponent.scan? ('E' :: s :: y) = none)
  /-- The figure ends the name. -/
  | behindName (hsymbol : n.symbol = .constant .permeability) (hrest : n.rest = 'E' :: s :: y)
  /-- Behind the name. -/
  | inRest {front z : Text} (hfront : front ≠ []) (hx : x = front ++ z)
    (hrest : n.rest = z ++ d :: 'E' :: s :: y)

/-- From the figure on, they stand behind the factor: the figure ends the name, or all of them
stand behind it. -/
theorem Naming.holdsSign_of_behind (hd : Operator.isFigure d = true) {n : Naming}
    {name front z : Text} (hlower : List.Forall₂ Text.LowersTo name n.symbol.letters)
    (hx : x = front ++ z) (hz : name ++ n.rest = z ++ d :: 'E' :: s :: y) :
    n.HoldsSign x y d s := by
  have hletter : ∀ c ∈ name, ∃ a ∈ n.symbol.letters, Text.LowersTo c a := fun c hc =>
    exists_of_mem_forall₂ hlower hc
  have hname : name ≠ [] := by
    rintro rfl
    exact n.symbol.letters_ne_nil (List.forall₂_nil_left_iff.1 hlower)
  rcases List.append_eq_append_iff.1 hz with ⟨w, hz, hrest⟩ | ⟨w, hcut, hw⟩
  · refine @HoldsSign.inRest _ _ _ _ _ (front ++ name) _ (by simp [hname]) ?_ hrest
    rw [hx, hz, List.append_assoc]
  · cases w with
    | nil =>
      rw [List.append_nil] at hcut
      exact @HoldsSign.inRest _ _ _ _ _ (front ++ name) [] (by simp [hname]) (by simp [hx, hcut])
        hw.symm
    | cons c w =>
      simp only [List.cons_append, List.cons.injEq] at hw
      obtain ⟨rfl, hw⟩ := hw
      obtain ⟨a, ha, hda⟩ := hletter d (by simp [hcut])
      obtain rfl := Symbol.eq_zero_of_lowersTo hd hda (Symbol.mem_alphabet ha)
      have hletters := Symbol.letters_of_digit ha
      cases w with
      | nil => exact .behindName (Symbol.letters_injective hletters) hw.symm
      | cons c w =>
        -- no letter of that name stands behind the zero
        obtain ⟨rfl, -⟩ := List.cons.inj hw
        obtain ⟨a, ha, hE⟩ := hletter 'E' (by simp [hcut])
        rw [hletters, ← Option.some.inj hE] at ha
        exact absurd ha (by decide)

/-- They stand in the factor or behind it, or behind the name. -/
theorem Naming.holdsSign (hd : Operator.isFigure d = true) (hs : s = '+' ∨ s = '-') {t : Text}
    {n : Naming} (h : read? t = some n) (htext : t = x ++ d :: 'E' :: s :: y) :
    n.HoldsSign x y d s := by
  obtain ⟨name, hparts, hlower, hstart, hscan⟩ := exists_of_read? h
  cases hfactor : n.factor with
  | none =>
    rw [hfactor, htext] at hparts
    exact @holdsSign_of_behind x y d s hd n name [] x hlower rfl hparts.symm
  | some l =>
    have hl := Literal.wellFormed_of_scan? (hscan l hfactor)
    rw [hfactor, htext] at hparts
    rcases List.append_eq_append_iff.1 hparts with ⟨z, hz, hrest⟩ | ⟨z, hx, hz⟩
    · match z with
      | [] => exact @holdsSign_of_behind x y d s hd n name x [] hlower (by simp) hrest.symm
      | [_] =>
        simp only [List.cons_append, List.nil_append, List.cons.injEq] at hrest
        obtain ⟨rfl, hrest⟩ := hrest
        have hsymbol := hstart
        rw [← hrest] at hsymbol
        refine .behindFactor hfactor hl.1 hz (Symbol.eq_euler_of_atStart? hs hsymbol) ?_
        intro hnone
        rw [hrest]
        exact hl.2.2 hnone
      | [_, _] =>
        -- a literal does not end with an `E`
        simp only [List.cons_append, List.nil_append, List.cons.injEq] at hrest
        obtain ⟨rfl, rfl, -⟩ := hrest
        obtain ⟨start, c, hlast, hc⟩ := Term.exists_last_literal hl.1
        have hend : start ++ [c] = (x ++ [d]) ++ ['E'] := by
          rw [← hlast, show l.text = x ++ [d, 'E'] from hz, List.append_assoc]
          rfl
        rw [List.singleton_inj.1 (List.append_inj' hend rfl).2] at hc
        exact absurd hc (by decide)
      | _ :: _ :: _ :: z =>
        simp only [List.cons_append, List.cons.injEq] at hrest
        obtain ⟨rfl, rfl, rfl, -⟩ := hrest
        exact .inFactor hfactor hl.1 hz
    · exact holdsSign_of_behind hd hlower hx hz

/-! ### The reading -/

open Piece

/-- Without a bracket there is no list. -/
theorem ArgumentList.read?_eq_none_of_not_mem {t : Text} (h : '[' ∉ t) : read? t = none := by
  unfold read?
  split
  · exact absurd List.mem_cons_self h
  · rfl

/-- A sign that is scanned with no power of ten has no digit behind it. -/
theorem WrittenExponent.not_isDecimal_of_scan? (hs : s = '+' ∨ s = '-')
    (h : scan? ('E' :: s :: y) = none) : ∀ c ∈ y.head?, Text.isDecimal c = false := by
  intro c hc
  obtain ⟨y, rfl⟩ := List.head?_eq_some_iff.1 hc
  by_contra hdecimal
  rw [Bool.not_eq_false] at hdecimal
  rcases hs with rfl | rfl <;> simp [scan?, hdecimal] at h

namespace Piece

variable [Stack]

/-- In all shorter texts without lists, it is told what becomes of the sign. -/
def FatesBelow (length : Nat) (d s : Char) : Prop :=
  ∀ (q : Piece) (x y : Text), q.text.length < length → q.text = x ++ d :: 'E' :: s :: y →
    '[' ∉ q.text → (∀ c ∈ q.after.head?, Text.isDecimal c = false) →
      q.SignFate (q.before ++ x ++ [d, 'E']) s

section

variable (ih : FatesBelow p.text.length d s) (hbracket : '[' ∉ p.text)
include ih hbracket

/-- All of it stands in a beginning, before a character that is no digit. -/
theorem signFate_initial {z u : Text} {c : Char}
    (hsplit : p.text = (x ++ d :: 'E' :: s :: z) ++ c :: u) (hc : Text.isDecimal c = false) :
    (p.initial (x ++ d :: 'E' :: s :: z)).SignFate (p.before ++ x ++ [d, 'E']) s := by
  have hpart := initial_eq hsplit
  rw [hpart]
  refine ih _ x z ?_ rfl (fun h => hbracket (hsplit ▸ List.mem_append_left _ h)) ?_
  · simp only [hsplit, List.length_append, List.length_cons]
    omega
  · simpa using hc

/-- A factorial stands behind all of it. -/
theorem signFate_of_bang (hs : s = '+' ∨ s = '-') (htext : p.text = x ++ d :: 'E' :: s :: y)
    (hsplit : Split.loosest? p.text = none) (hbang : p.text.getLast? = some '!') :
    p.SignFate (p.before ++ x ++ [d, 'E']) s := by
  obtain ⟨z, hz⟩ : ∃ z, y = z ++ ['!'] := by
    rcases List.eq_nil_or_concat' y with rfl | ⟨z, c, rfl⟩
    · have hlast : p.text = (x ++ [d, 'E']) ++ [s] := by simp [htext]
      rw [hlast, List.getLast?_concat] at hbang
      rcases hs with rfl | rfl <;> exact absurd hbang (by decide)
    · have hlast : p.text = (x ++ d :: 'E' :: s :: z) ++ [c] := by simp [htext]
      rw [hlast, List.getLast?_concat] at hbang
      exact ⟨z, by rw [Option.some.inj hbang]⟩
  have hparts : p.text = (x ++ d :: 'E' :: s :: z) ++ ['!'] := by simp [htext, hz]
  have hpart := signFate_initial ih hbracket hparts (by decide)
  have hdrop : p.text.dropLast = x ++ d :: 'E' :: s :: z := by rw [hparts, List.dropLast_concat]
  rw [← hdrop] at hpart
  exact hpart.of_part (.operand hbang) fun _ => .operand (by simp [htext]) hsplit hbang

variable (hafter : ∀ c ∈ p.after.head?, Text.isDecimal c = false)
include hafter

/-- All of it stands at the end. -/
theorem signFate_final {front z : Text} (hsplit : p.text = front ++ (z ++ d :: 'E' :: s :: y))
    (hfront : front ≠ []) :
    (p.final (z ++ d :: 'E' :: s :: y)).SignFate (p.before ++ (front ++ z) ++ [d, 'E']) s := by
  rw [final_eq hsplit, ← List.append_assoc]
  refine ih _ z y ?_ rfl (fun h => hbracket (hsplit ▸ List.mem_append_right _ h)) hafter
  have hpos := List.length_pos_of_ne_nil hfront
  simp only [hsplit, List.length_append, List.length_cons]
  omega

variable (hd : Operator.isFigure d = true) (hs : s = '+' ∨ s = '-')
  (htext : p.text = x ++ d :: 'E' :: s :: y)
include hd hs htext

/-- An operator stands before all of it or behind. -/
theorem signFate_of_loosest? {split : Split} (hsplit : Split.loosest? p.text = some split) :
    p.SignFate (p.before ++ x ++ [d, 'E']) s := by
  obtain ⟨c, hc, hparts, ⟨z, hbefore⟩ | ⟨z, hx, hright⟩⟩ :=
    Split.exists_of_text_sign hd hs hsplit htext
  · have hdecimal : Text.isDecimal c = false := by
      by_contra hdecimal
      rw [Bool.not_eq_false] at hdecimal
      rw [Split.not_isOperator_of_isMantissa (by simp [Numeral.isMantissa, hdecimal])] at hc
      exact absurd hc (by decide)
    have hpart := signFate_initial ih hbracket (hbefore ▸ hparts) hdecimal
    rw [← hbefore] at hpart
    exact hpart.of_part (.left hsplit) fun _ => .left hsplit
  · have hfinal : p.text = (split.before ++ [c]) ++ (z ++ d :: 'E' :: s :: y) := by
      simp [htext, hx]
    have hpart := signFate_final ih hbracket hafter hfinal (by simp)
    rw [← hright, List.append_assoc split.before, List.singleton_append, ← hx] at hpart
    exact hpart.of_part (.right hsplit) fun _ => .right hsplit

/-- A name stands at the beginning, behind its factor. -/
theorem signFate_of_naming (hsplit : Split.loosest? p.text = none)
    (hbang : p.text.getLast? ≠ some '!') {n : Naming} (hname : Naming.read? p.text = some n) :
    p.SignFate (p.before ++ x ++ [d, 'E']) s := by
  have hne : p.text ≠ [] := by simp [htext]
  cases Naming.holdsSign hd hs hname htext with
  | inFactor hfactor hl hl' =>
    obtain ⟨hmantissa, digits, hexponent⟩ := Literal.eq_of_text_sign hl hs hl'
    refine .exponent (Reads.factor hne hsplit hbang hname hfactor) hl rfl hexponent ?_
    rw [hmantissa]
    simp [initial]
  | @behindFactor l hfactor hl hl' hsymbol hscan =>
    cases hexponent : l.numeral.exponent with
    | some e =>
      exact .behindNumeral (.refl p) hname hsymbol hfactor hexponent (by simp [hl'])
    | none =>
      -- the figure ends the digits and the point of a numeral
      obtain ⟨start, c, hlast, hc⟩ := Term.exists_last_literal hl
      rw [hlast] at hl'
      rw [List.singleton_inj.1 (List.append_inj' hl' rfl).2] at hc
      have hwhole : p.whole = (p.before ++ x) ++ d :: 'E' :: s :: (y ++ p.after) := by
        simp [whole, htext]
      refine .unfinished hwhole rfl (startsUnfinishedExponent_sign hc hs ?_)
      cases y with
      | nil => exact hafter
      | cons c y => simpa using WrittenExponent.not_isDecimal_of_scan? hs (hscan hexponent)
  | behindName hsymbol hrest =>
    have hparts : p.text = (x ++ [d]) ++ n.rest := by simp [htext, hrest]
    exact .behindName (.refl p) hname hsymbol hrest (by rw [final_eq hparts]; simp)
  | @inRest front z hfront hx hrest =>
    have hparts : p.text = front ++ (z ++ d :: 'E' :: s :: y) := by simp [htext, hx]
    have hpart := signFate_final ih hbracket hafter hparts hfront
    rw [← hrest, ← hx] at hpart
    have hlist : ArgumentList.read? n.rest = none :=
      ArgumentList.read?_eq_none_of_not_mem fun h => hbracket (Naming.rest_subset hname h)
    exact hpart.of_part (.rest hname) fun _ =>
      .rest hne hsplit hbang hname (by simp [hrest]) hlist

end

/-- What becomes of a sign behind a figure and an `E`.  The induction is on the length of the piece
in which all three of them stand; no digit stands behind the piece. -/
theorem signFate (hd : Operator.isFigure d = true) (hs : s = '+' ∨ s = '-')
    (htext : p.text = x ++ d :: 'E' :: s :: y) (hbracket : '[' ∉ p.text)
    (hafter : ∀ c ∈ p.after.head?, Text.isDecimal c = false) :
    p.SignFate (p.before ++ x ++ [d, 'E']) s := by
  induction hlength : p.text.length using Nat.strong_induction_on generalizing p x y with
  | _ length ih =>
  have ih : FatesBelow p.text.length d s := fun q x y hq htext hbracket hafter =>
    ih _ (hlength ▸ hq) htext hbracket hafter rfl
  cases hsplit : Split.loosest? p.text with
  | some split => exact signFate_of_loosest? ih hbracket hafter hd hs htext hsplit
  | none =>
    by_cases hbang : p.text.getLast? = some '!'
    · exact signFate_of_bang ih hbracket hs htext hsplit hbang
    cases hname : Naming.read? p.text with
    | some n => exact signFate_of_naming ih hbracket hafter hd hs htext hsplit hbang hname
    | none =>
      cases hliteral : Literal.read? p.text with
      | some l =>
        obtain ⟨hl, hl'⟩ := Literal.wellFormed_of_read? hliteral
        obtain ⟨hmantissa, digits, hexponent⟩ := Literal.eq_of_text_sign hl hs (hl'.trans htext)
        refine .exponent (.refl p) hl hl'.symm hexponent ?_
        rw [hmantissa]
        simp
      | none =>
        refine .unreadable (x := x ++ [d, 'E']) (y := y) (.refl p) ?_ (by simp [htext]) (by simp)
        rw [Term.read.eq_4 _ _ (by simp [htext])]
        simp only [hsplit, if_neg hbang, hname, hliteral]

end Piece

namespace Term

/-- A plus or minus in a text without lists, behind a digit or point and an `E`, so that it is no
operator there, is the sign of the power of ten of a numeral that is read.  Otherwise the `E` is the
name of a constant, behind the name `mu0` or behind a numeral with a power of ten of its own, or the
text cannot be read where the sign stands, or the power of ten has no digits, which is reported. -/
theorem signFate_of_isSignAfter [Stack] {t before after : Text} (hbracket : '[' ∉ t)
    (htext : t = before ++ s :: after) (hs : s = '+' ∨ s = '-')
    (hoperator : before.getLast?.any Operator.isOperator = false)
    (hsign : Operator.isSignAfter before.reverse = true) :
    (⟨[], t, []⟩ : Piece).SignFate before s := by
  obtain ⟨x, d, hd, rfl⟩ : ∃ x d, Operator.isFigure d = true ∧ before = x ++ [d, 'E'] := by
    rcases List.eq_nil_or_concat' before with rfl | ⟨z, c, rfl⟩
    · exact absurd hsign (by decide)
    rw [List.getLast?_concat, Option.any_some] at hoperator
    rw [List.reverse_concat, Operator.isSignAfter, hoperator, Bool.false_or, Bool.and_eq_true,
      beq_iff_eq] at hsign
    obtain ⟨rfl, hfigure⟩ := hsign
    rcases List.eq_nil_or_concat' z with rfl | ⟨x, d, rfl⟩
    · exact absurd hfigure (by decide)
    rw [List.reverse_concat, List.head?_cons, Option.any_some] at hfigure
    exact ⟨x, d, hfigure, by simp⟩
  have hpattern : (⟨[], t, []⟩ : Piece).text = x ++ d :: 'E' :: s :: after := by simp [htext]
  exact Piece.signFate hd hs hpattern hbracket (by simp)

end Term

end

end Reckoner
