import Mathlib
import Reckoner.Expression.Term
import Reckoner.Proofs.Expression.ArgumentList
import Reckoner.Proofs.Symbol.Lookup

/-!
# Reading a text

One lemma for each form of a text: what is read from a text that is split at an operator, that ends
with a factorial, that is a literal, a constant, or a function with its arguments.  Each reading
takes one level of the room there is.
-/

namespace Reckoner

namespace Term

section

variable [Stack] {room : Nat}

theorem read_charge (charge : Nat) (t : Text) :
    read (room + 1) (charge + 1) t = read room charge t := by
  rw [read]

/-- Levels that are left free first. -/
theorem read_add_charge (charge : Nat) (t : Text) :
    read (room + 1 + charge) charge t = read (room + 1) 0 t := by
  induction charge with
  | zero => rfl
  | succ charge ih => rw [← Nat.add_assoc, read_charge, ih]

/-- A construct that takes a few levels has room in a text. -/
theorem exists_ofText_eq {k : Nat} (h : k ≤ 700) : ∃ room, ∀ t, ofText t = read (room + k) 0 t := by
  obtain ⟨room, hroom⟩ := Stack.exists_levels_eq h
  exact ⟨room, fun t => by rw [ofText, hroom]⟩

theorem read_nil : read (room + 1) 0 [] = absent := by
  rw [read]

/-- A text that is split at an operator. -/
theorem read_of_loosest? {t : Text} {s : Split} (hne : t ≠ []) (h : Split.loosest? t = some s) :
    read (room + 1) 0 t = binary s.operator t (read room 0 s.before) (read room 0 s.after) := by
  rw [read.eq_4 _ _ hne, h]

/-- A text that ends with a factorial. -/
theorem read_of_bang {t : Text} (h : Split.loosest? (t ++ ['!']) = none) :
    read (room + 1) 0 (t ++ ['!']) = factorial (read room 0 t) := by
  rw [read.eq_4 _ _ (by simp), h]
  simp

end

/-! ## Literals -/

theorem literal_ne_nil {l : Literal} (h : l.WellFormed) : l.text ≠ [] := by
  obtain ⟨c, rest, hn, -⟩ := Numeral.exists_head h
  simp [Literal.text, hn]

/-- A literal ends with a digit or a point. -/
theorem exists_last_literal {l : Literal} (h : l.WellFormed) :
    ∃ before c, l.text = before ++ [c] ∧ Numeral.isMantissa c = true := by
  obtain ⟨before, c, hn, hc⟩ := Numeral.exists_last h
  exact ⟨(if l.negative then [Literal.minus] else []) ++ before, c, by simp [Literal.text, hn], hc⟩

theorem getLast?_literal_ne_bang {l : Literal} (h : l.WellFormed) : l.text.getLast? ≠ some '!' := by
  obtain ⟨before, c, hl, hc⟩ := exists_last_literal h
  rw [hl, List.getLast?_concat]
  intro heq
  rw [Option.some.inj heq] at hc
  exact absurd hc (by decide)

theorem naming_literal {l : Literal} (h : l.WellFormed) : Naming.read? l.text = none := by
  simp [Naming.read?, Literal.scan?_text h, Symbol.atStart?_nil]

/-- A literal. -/
theorem read_literal [Stack] {room : Nat} {l : Literal} (h : l.WellFormed) :
    read (room + 1) 0 l.text = literal l := by
  have hsplit : Split.loosest? l.text = none :=
    Split.loosest?_eq_none fun tier => Split.passes_literal h
  rw [read.eq_4 _ _ (literal_ne_nil h), hsplit, if_neg (getLast?_literal_ne_bang h),
    naming_literal h, Literal.read?_text h]

end Term

/-! ## Names -/

namespace Symbol

/-- No character of a name is an operator, a bracket or a factorial. -/
theorem isPlain_of_mem {s : Symbol} {c : Char} (h : c ∈ s.letters) :
    Split.isPlain c = true ∧ c ≠ '!' := by
  have hall : alphabet.all (fun c => Split.isPlain c && c != '!') = true := by decide
  simpa using List.all_eq_true.1 hall c (mem_alphabet h)

/-- No name begins like a literal. -/
theorem scan?_letters (s : Symbol) (rest : Text) : Literal.scan? (s.letters ++ rest) = none := by
  have hall : all.all (fun s => s.letters.head?.all fun c =>
      !Numeral.isMantissa c && c != Literal.minus) = true := by
    decide
  have hs := List.all_eq_true.1 hall s s.mem_all
  obtain ⟨c, t, hletters⟩ := List.exists_cons_of_ne_nil s.letters_ne_nil
  simp only [hletters, List.head?_cons, Option.all_some, Bool.and_eq_true, Bool.not_eq_true',
    bne_iff_ne] at hs
  rw [hletters, List.cons_append, Literal.scan?, if_neg hs.2, Numeral.scan?_eq_none hs.1]
  rfl

end Symbol

namespace Naming

theorem read?_constant (c : MathConstant) :
    read? (Symbol.constant c).letters = some ⟨none, .constant c, []⟩ := by
  have hscan := (Symbol.constant c).scan?_letters []
  rw [List.append_nil] at hscan
  simp [read?, hscan, Symbol.atStart?_constant]

theorem read?_function (f : MathFunction) (rest : Text) :
    read? ((Symbol.function f).letters ++ rest) = some ⟨none, .function f, rest⟩ := by
  simp [read?, Symbol.scan?_letters, Symbol.atStart?_function]

/-- A name that is read stands between its factor and the text behind it. -/
theorem exists_of_read? {t : Text} {n : Naming} (h : read? t = some n) :
    ∃ name, t = n.factor.elim [] Literal.text ++ (name ++ n.rest) ∧
      List.Forall₂ Text.LowersTo name n.symbol.letters ∧
      Symbol.atStart? (name ++ n.rest) = some n.symbol ∧
      ∀ l ∈ n.factor, Literal.scan? t = some (l, name ++ n.rest) := by
  rw [read?] at h
  obtain ⟨s, hs, rfl⟩ := Option.map_eq_some_iff.1 h
  obtain ⟨name, hname, hlower⟩ := Symbol.exists_of_atStart? hs
  refine ⟨name, ?_, hlower, by rw [← hname]; exact hs, ?_⟩
  · rw [← hname]
    cases hscan : Literal.scan? t with
    | none => rfl
    | some found => exact (Literal.wellFormed_of_scan? hscan).2.1.symm
  · rw [← hname]
    cases hscan : Literal.scan? t with
    | none => simp
    | some found => simp

end Naming

namespace Term

variable [Stack] {room : Nat}

/-- A constant. -/
theorem read_constant (c : MathConstant) :
    read (room + 3) 0 (Symbol.constant c).letters =
      constant (Symbol.constant c).letters none c absent := by
  have hsplit : Split.loosest? (Symbol.constant c).letters = none :=
    Split.loosest?_eq_none fun tier =>
      Split.passes_of_isPlain fun d hd => (Symbol.isPlain_of_mem hd).1
  have hbang : (Symbol.constant c).letters.getLast? ≠ some '!' := by
    intro h
    exact (Symbol.isPlain_of_mem (List.mem_of_getLast? h)).2 rfl
  rw [read.eq_4 _ _ (Symbol.letters_ne_nil _), hsplit, if_neg hbang, Naming.read?_constant]
  simp only [read_charge, read_nil]

omit [Stack] in
/-- A function is not split from a text that is passed, and no factorial is taken of it if none is
taken of the text. -/
theorem loosest?_function (f : MathFunction) {rest : Text}
    (hpass : ∀ tier before, Split.Passes tier before rest) (hbang : rest.getLast? ≠ some '!') :
    Split.loosest? ((Symbol.function f).letters ++ rest) = none ∧
      ((Symbol.function f).letters ++ rest).getLast? ≠ some '!' := by
  refine ⟨Split.loosest?_eq_none fun tier => (Split.passes_of_isPlain fun d hd =>
    (Symbol.isPlain_of_mem hd).1).append (hpass _ _), ?_⟩
  rw [List.getLast?_append]
  cases h : rest.getLast? with
  | none =>
    rw [Option.none_or]
    exact fun h => (Symbol.isPlain_of_mem (List.mem_of_getLast? h)).2 rfl
  | some c => rwa [h] at hbang

/-- A function of a literal. -/
theorem read_function_literal (f : MathFunction) {l : Literal} (h : l.WellFormed) :
    read (room + 4) 0 ((Symbol.function f).letters ++ l.text) =
      call ((Symbol.function f).letters ++ l.text) none f l.text [literal l] := by
  have hlist : ArgumentList.read? l.text = none := by
    unfold ArgumentList.read?
    split
    · rename_i rest hl
      exact absurd (Literal.isLetter_of_mem h '[' (by simp [hl])) (by decide)
    · rfl
  have harg : read (room + 3) 2 l.text = literal l := by
    rw [read_charge, read_charge, read_literal h]
  obtain ⟨hsplit, hbang⟩ := loosest?_function f (fun _ _ => Split.passes_literal h)
    (getLast?_literal_ne_bang h)
  obtain ⟨c, rest, hl⟩ := List.exists_cons_of_ne_nil (literal_ne_nil h)
  rw [read.eq_4 _ _ (by simp [Symbol.letters_ne_nil]), hsplit, if_neg hbang,
    Naming.read?_function]
  simp only [hlist, harg]
  rw [hl]

end Term

end Reckoner
