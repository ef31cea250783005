import Mathlib
import Reckoner.Proofs.Expression.Dice

/-!
# The pieces of a text that are read

A text is read piece by piece: its operands, the factor before a name, what stands behind the name,
and the items of a list are read on their own.  `Term.readAt` reads a text as `Term.read` does
(`Term.term_readAt`), and says where in the whole text every piece stood that was read on the way.
-/

namespace Reckoner

/-- A piece of a text, with what stands before and behind it. -/
structure Piece where
  /-- What stands before the piece. -/
  before : Text
  /-- The piece itself. -/
  text : Text
  /-- What stands behind the piece. -/
  after : Text
  deriving DecidableEq, Repr

namespace Piece

/-- The text that a piece belongs to. -/
def whole (p : Piece) : Text := p.before ++ p.text ++ p.after

/-- The piece at which a piece begins. -/
def initial (p : Piece) (t : Text) : Piece := ⟨p.before, t, p.text.drop t.length ++ p.after⟩

/-- The piece with which a piece ends. -/
def final (p : Piece) (t : Text) : Piece :=
  ⟨p.before ++ p.text.take (p.text.length - t.length), t, p.after⟩

/-- The items of a list, between what stands before the first and behind the last of them. -/
def items (before after : Text) : List Text → List Piece
  | [] => []
  | t :: rest =>
    ⟨before, t, ArgumentList.separated ';' rest ++ after⟩ ::
      items (before ++ t ++ [';']) after rest

/-- The items of a list with which a piece ends. -/
def listItems (p : Piece) (list : Text) (args : List Text) : List Piece :=
  items ((p.final list).before ++ ['[']) (']' :: p.after) args

/-- The factor with which a piece begins, if there is one. -/
def factor (p : Piece) : Option Literal → List Piece
  | none => []
  | some l => [p.initial l.text]

variable {p : Piece}

theorem initial_eq {x y : Text} (h : p.text = x ++ y) :
    p.initial x = ⟨p.before, x, y ++ p.after⟩ := by
  rw [initial, h, List.drop_left]

theorem final_eq {x y : Text} (h : p.text = x ++ y) : p.final y = ⟨p.before ++ x, y, p.after⟩ := by
  have hlength : p.text.length - y.length = x.length := by simp [h]
  rw [final, hlength, h, List.take_left]

theorem map_text_items (before after : Text) (args : List Text) :
    (items before after args).map text = args := by
  induction args generalizing before with
  | nil => rfl
  | cons t rest ih => rw [items, List.map_cons, ih]

theorem whole_of_mem_items {before after first : Text} {rest : List Text} {q : Piece}
    (h : q ∈ items before after (first :: rest)) :
    q.whole = before ++ (first ++ ArgumentList.separated ';' rest) ++ after := by
  induction rest generalizing before first with
  | nil =>
    rw [items, items, List.mem_singleton] at h
    simp [h, whole, ArgumentList.separated]
  | cons t rest ih =>
    rcases List.mem_cons.1 h with rfl | h
    · simp [whole, ArgumentList.separated]
    · rw [ih h]
      simp [ArgumentList.separated]

/-- An item stands between the brackets and the semicolons of its list. -/
theorem exists_of_mem_items {before after : Text} {args : List Text} {q : Piece}
    (hbefore : ∃ u, ∃ c ∈ ['[', ';'], before = u ++ [c])
    (h : q ∈ items before (']' :: after) args) :
    (∃ u, ∃ c ∈ ['[', ';'], q.before = u ++ [c]) ∧ ∃ c ∈ [';', ']'], ∃ v, q.after = c :: v := by
  induction args generalizing before with
  | nil => exact absurd h List.not_mem_nil
  | cons t rest ih =>
    rcases List.mem_cons.1 h with rfl | h
    · refine ⟨hbefore, ?_⟩
      cases rest with
      | nil => exact ⟨']', by simp, after, rfl⟩
      | cons s rest => exact ⟨';', by simp, _, rfl⟩
    · exact ih ⟨before ++ t, ';', by simp, rfl⟩ h

/-- A piece that is read on its own when a piece is read. -/
inductive Part (p : Piece) : Piece → Prop where
  /-- The left operand of an operator. -/
  | left {s : Split} (h : Split.loosest? p.text = some s) : Part p (p.initial s.before)
  /-- The right operand of an operator. -/
  | right {s : Split} (h : Split.loosest? p.text = some s) : Part p (p.final s.after)
  /-- The operand of a factorial. -/
  | operand (h : p.text.getLast? = some '!') : Part p (p.initial p.text.dropLast)
  /-- The factor before a name. -/
  | factor {n : Naming} {l : Literal} (h : Naming.read? p.text = some n)
    (hfactor : n.factor = some l) : Part p (p.initial l.text)
  /-- What stands behind a name. -/
  | rest {n : Naming} (h : Naming.read? p.text = some n) : Part p (p.final n.rest)
  /-- An item of the list behind a name. -/
  | item {n : Naming} {args : List Text} {q : Piece} (h : Naming.read? p.text = some n)
    (hlist : ArgumentList.read? n.rest = some args) (hitem : q ∈ p.listItems n.rest args) :
    Part p q

/-- A part stands in the text where its piece stands. -/
theorem Part.whole_eq {q : Piece} (h : p.Part q) : q.whole = p.whole := by
  have hinitial : ∀ {x y : Text}, p.text = x ++ y → (p.initial x).whole = p.whole := by
    intro x y htext
    rw [initial_eq htext]
    simp [whole, htext]
  have hfinal : ∀ {x y : Text}, p.text = x ++ y → (p.final y).whole = p.whole := by
    intro x y htext
    rw [final_eq htext]
    simp [whole, htext]
  cases h with
  | left h =>
    obtain ⟨-, c, -, htext⟩ := Split.text_of_loosest? h
    exact hinitial htext
  | right h =>
    obtain ⟨-, c, -, htext⟩ := Split.text_of_loosest? h
    exact hfinal (htext.trans (List.append_cons _ _ _))
  | operand h => exact hinitial (List.dropLast_append_getLast? _ h).symm
  | factor h hfactor =>
    obtain ⟨name, htext, -⟩ := Naming.exists_of_read? h
    rw [hfactor] at htext
    exact hinitial htext
  | rest h =>
    obtain ⟨name, htext, -⟩ := Naming.exists_of_read? h
    exact hfinal (htext.trans (List.append_assoc _ _ _).symm)
  | @item n args _ h hlist hitem =>
    obtain ⟨name, htext, -⟩ := Naming.exists_of_read? h
    rw [← List.append_assoc] at htext
    obtain ⟨first, rest, rfl, hrest⟩ := ArgumentList.exists_of_read? hlist
    rw [listItems] at hitem
    rw [whole_of_mem_items hitem, final_eq htext, whole, htext, hrest]
    simp

end Piece

/-- A term with all the pieces that were read for it, in the order in which they are evaluated. -/
structure Reading where
  /-- The term. -/
  term : Term
  /-- The pieces. -/
  pieces : List Piece

namespace Term

variable [Stack]

/-- Reads a piece of a text without parentheses, and remembers it and every piece that is read for
it. -/
def readAt : (room charge : Nat) → Piece → Reading
  | 0, _, p => ⟨tooDeep, [p]⟩
  | room + 1, charge + 1, p => readAt room charge p
  | room + 1, 0, p =>
    if p.text = [] then ⟨absent, [p]⟩
    else
      match Split.loosest? p.text with
      | some split =>
        let left := readAt room 0 (p.initial split.before)
        let right := readAt room 0 (p.final split.after)
        ⟨binary split.operator p.text left.term right.term, p :: (left.pieces ++ right.pieces)⟩
      | none =>
        if p.text.getLast? = some '!' then
          let operand := readAt room 0 (p.initial p.text.dropLast)
          ⟨factorial operand.term, p :: operand.pieces⟩
        else
          match Naming.read? p.text with
          | some ⟨factor, .constant c, rest⟩ =>
            let tail := readAt room 1 (p.final rest)
            ⟨constant p.text factor c tail.term, p :: (p.factor factor ++ tail.pieces)⟩
          | some ⟨factor, .function f, rest⟩ =>
            match rest, ArgumentList.read? rest with
            | [], _ => ⟨emptyCall p.text factor f rest, p :: p.factor factor⟩
            | _, none =>
              let arg := readAt room 2 (p.final rest)
              ⟨call p.text factor f rest [arg.term], p :: (p.factor factor ++ arg.pieces)⟩
            | _, some args =>
              if args.any List.isEmpty then
                ⟨emptyCall p.text factor f rest, p :: p.factor factor⟩
              else
                let items := (p.listItems rest args).map (readAt room Stack.itemCharge)
                ⟨call p.text factor f rest (items.map Reading.term),
                  p :: (p.factor factor ++ items.flatMap Reading.pieces)⟩
          | none =>
            match Literal.read? p.text with
            | some l => ⟨literal l, [p]⟩
            | none => ⟨unreadable p.text, [p]⟩

/-- The pieces of a text without parentheses that are evaluated, the text itself first. -/
def pieces (t : Text) : List Piece := (readAt Stack.levels 0 ⟨[], t, []⟩).pieces

/-- The items of a list are read as their texts are. -/
theorem map_term_readAt {room : Nat}
    (h : ∀ p, (readAt room Stack.itemCharge p).term = read room Stack.itemCharge p.text) (p : Piece)
    (list : Text) (args : List Text) :
    ((p.listItems list args).map (readAt room Stack.itemCharge)).map Reading.term =
      args.map fun item => read room Stack.itemCharge item := by
  have hitems := congrArg (List.map fun item => read room Stack.itemCharge item)
    (Piece.map_text_items ((p.final list).before ++ ['[']) (']' :: p.after) args)
  rw [List.map_map] at hitems
  rw [Piece.listItems, List.map_map, ← hitems]
  exact List.map_congr_left fun q _ => h q

/-- A piece is read as its text is. -/
theorem term_readAt (room charge : Nat) (p : Piece) :
    (readAt room charge p).term = read room charge p.text := by
  induction room generalizing charge p with
  | zero => rfl
  | succ room ih =>
    cases charge with
    | succ charge => exact ih charge p
    | zero =>
      rw [readAt]
      by_cases hnil : p.text = []
      · rw [if_pos hnil, hnil, read_nil]
      rw [if_neg hnil, read.eq_4 _ _ hnil]
      cases hsplit : Split.loosest? p.text with
      | some s =>
        simp only [ih]
        rfl
      | none =>
        by_cases hbang : p.text.getLast? = some '!'
        · simp only [if_pos hbang, ih]
          rfl
        simp only [if_neg hbang]
        cases hname : Naming.read? p.text with
        | none => cases Literal.read? p.text <;> rfl
        | some n =>
          obtain ⟨factor, symbol, rest⟩ := n
          cases symbol with
          | constant c =>
            simp only [ih]
            rfl
          | function f =>
            cases rest with
            | nil => rfl
            | cons c rest =>
              cases hlist : ArgumentList.read? (c :: rest) with
              | none =>
                simp only [hlist, ih]
                rfl
              | some args =>
                by_cases hempty : args.any List.isEmpty = true
                · simp only [hlist, if_pos hempty]
                · simp only [hlist, if_neg hempty, map_term_readAt (ih _)]

/-- What holds of a piece, and of the parts of every piece that it holds of, holds of all pieces
that are read. -/
theorem forall_mem_readAt {motive : Piece → Prop}
    (hpart : ∀ p q : Piece, motive p → p.Part q → motive q) (room charge : Nat) {p : Piece}
    (hp : motive p) : ∀ q ∈ (readAt room charge p).pieces, motive q := by
  induction room generalizing charge p with
  | zero => simpa [readAt] using hp
  | succ room ih =>
    cases charge with
    | succ charge => exact ih charge hp
    | zero =>
      have hone : ∀ q ∈ [p], motive q := by simpa using hp
      have hrest : ∀ {charge : Nat} {part : Piece}, p.Part part →
          ∀ q ∈ (readAt room charge part).pieces, motive q :=
        fun h => ih _ (hpart p _ hp h)
      rw [readAt]
      by_cases hnil : p.text = []
      · rwa [if_pos hnil]
      rw [if_neg hnil]
      cases hsplit : Split.loosest? p.text with
      | some s =>
        exact List.forall_mem_cons.2 ⟨hp, List.forall_mem_append.2
          ⟨hrest (.left hsplit), hrest (.right hsplit)⟩⟩
      | none =>
        by_cases hbang : p.text.getLast? = some '!'
        · simp only [if_pos hbang]
          exact List.forall_mem_cons.2 ⟨hp, hrest (.operand hbang)⟩
        simp only [if_neg hbang]
        cases hname : Naming.read? p.text with
        | none => cases Literal.read? p.text <;> exact hone
        | some n =>
          have hfactor : ∀ q ∈ p.factor n.factor, motive q := by
            cases hl : n.factor with
            | none => simp [Piece.factor]
            | some l => simpa [Piece.factor] using hpart p _ hp (.factor hname hl)
          obtain ⟨factor, symbol, rest⟩ := n
          cases symbol with
          | constant c =>
            exact List.forall_mem_cons.2 ⟨hp, List.forall_mem_append.2
              ⟨hfactor, hrest (.rest hname)⟩⟩
          | function f =>
            cases rest with
            | nil => exact List.forall_mem_cons.2 ⟨hp, hfactor⟩
            | cons c rest =>
              cases hlist : ArgumentList.read? (c :: rest) with
              | none =>
                simp only [hlist]
                exact List.forall_mem_cons.2 ⟨hp, List.forall_mem_append.2
                  ⟨hfactor, hrest (.rest hname)⟩⟩
              | some args =>
                simp only [hlist]
                split
                · exact List.forall_mem_cons.2 ⟨hp, hfactor⟩
                · refine List.forall_mem_cons.2 ⟨hp, List.forall_mem_append.2 ⟨hfactor, ?_⟩⟩
                  intro q hq
                  obtain ⟨r, hr, hq⟩ := List.mem_flatMap.1 hq
                  obtain ⟨item, hitem, rfl⟩ := List.mem_map.1 hr
                  exact hrest (.item hname hlist hitem) q hq

/-- Every piece stands in the text. -/
theorem whole_of_mem_pieces {t : Text} {p : Piece} (h : p ∈ pieces t) : p.whole = t :=
  forall_mem_readAt (fun _ _ hp hpart => hpart.whole_eq.trans hp) Stack.levels 0
    (by simp [Piece.whole]) p h

/-- The pieces of a text are those of the reading that gives its term. -/
theorem term_pieces (t : Text) :
    (readAt Stack.levels 0 ⟨[], t, []⟩).term = ofText t := term_readAt Stack.levels 0 _

end Term

end Reckoner
