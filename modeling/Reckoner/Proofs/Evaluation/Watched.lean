import Mathlib
import Reckoner.Proofs.Evaluation.Replacing
import Reckoner.Proofs.Expression.Scan
import Reckoner.Proofs.Expression.Shape

/-!
# Texts that an evaluation is given

An evaluation goes from a text to its parts: operands, what follows a name, items of lists, and
texts with groups replaced.  To say something of all these texts, a watch is called on each of them
before anything is done with it (`Visit`).  A watch that is silent on texts that close their lists
is never heard while an expression without brackets is evaluated: then the watched evaluation is the
evaluation itself (`Evaluation.evaluation_closesLists`).
-/

namespace Reckoner

/-- What an evaluation is given on its way. -/
inductive Visit where
  /-- A group that is to be replaced, in a whole text. -/
  | group (g : Group)
  /-- A text that is to be evaluated. -/
  | text (t : Text)
  /-- A text at whose beginning a name is looked for. -/
  | name (t : Text)
  /-- What follows the name of a function. -/
  | arguments (t : Text)
  deriving DecidableEq

/-- All texts that are given close their lists. -/
def Visit.ClosesLists : Visit → Prop
  | group g => g.text.Listed ∧ g.content.Listed
  | text t | name t | arguments t => t.Listed

instance : DecidablePred Visit.ClosesLists
  | .group g => inferInstanceAs (Decidable (g.text.Listed ∧ g.content.Listed))
  | .text t | .name t | .arguments t => inferInstanceAs (Decidable t.Listed)

namespace Evaluation

/-! ## Watched evaluations -/

section

variable [MathLibrary] [Stack] (watch : Visit → Evaluation Unit)

/-- A function with its factor and what follows its name; `value` evaluates texts when some levels
are left free first. -/
def callWatched (value : Nat → Text → Evaluation Float) (t : Text) (factor : Float)
    (f : MathFunction) (rest : Text) : Evaluation Float := do
  watch (.arguments rest)
  if rest = [] then emptyCall f rest
  else
    match ArgumentList.read? rest with
    | none =>
      let x ← value 2 rest
      function t factor f rest [x]
    | some items =>
      if items.any List.isEmpty then emptyCall f rest
      else function t factor f rest (← items.mapM (value Stack.itemCharge))

/-- A name with its factor and what follows it. -/
def namingWatched (value : Nat → Text → Evaluation Float) (t : Text) (n : Naming) :
    Evaluation Float := do
  let factor ← Evaluation.factor t n.factor
  match n.symbol with
  | .constant c =>
    trace (.constant c) t
    let x ← value 1 n.rest
    checkFinite (factor * c.value * x) (.constantOverflow t)
  | .function f => callWatched watch value t factor f n.rest

/-- A text that is not empty; `value` evaluates its parts, and is told what an empty one counts
as. -/
def partsWatched (value : Nat → Float → Text → Evaluation Float) (t : Text) : Evaluation Float :=
  match Split.loosest? t with
  | some s => do
    let a ← value 0 s.operator.neutral s.before
    let b ← value 0 s.operator.neutral s.after
    operator s.operator t a b
  | none => do
    if t.getLast? = some '!' then
      let x ← value 0 1 t.dropLast
      Reckoner.factorial x
    else
      watch (.name t)
      match Naming.read? t with
      | some n => namingWatched watch (fun charge => value charge 1) t n
      | none =>
        match Literal.read? t with
        | some l => literal l
        | none => unreadable t

/-- The value of a text without parentheses, with a watch; `room` and `charge` are the levels that
are left and those that are left free first. -/
def evaluateWatched : (room charge : Nat) → (neutral : Float) → Text → Evaluation Float
  | 0, _, _, t => do
    watch (.text t)
    throw .tooDeep
  | room + 1, charge + 1, neutral, t => evaluateWatched room charge neutral t
  | room + 1, 0, neutral, t => do
    watch (.text t)
    if t = [] then return neutral
    else partsWatched watch (fun charge neutral t => evaluateWatched room charge neutral t) t

/-- The value of a text without parentheses with all levels left, with a watch. -/
def evaluateFlatWatched (neutral : Float) (t : Text) : Evaluation Float :=
  evaluateWatched watch Stack.levels 0 neutral t

/-- What a group is replaced with, with a watch. -/
def replacementWatched (g : Group) : Evaluation Text := do
  watch (.group g)
  replacement (evaluateFlatWatched watch 1) g

/-- The value of an expression, with a watch. -/
def evaluateExpressionWatched (expression : Text) : Evaluation Float :=
  evaluateExpressionBy (replacementWatched watch) (evaluateFlatWatched watch 1) expression

end

/-! ## Texts without parentheses -/

/-- A watch that is not heard while lists are closed. -/
def IsSilent (watch : Visit → Evaluation Unit) : Prop :=
  ∀ v : Visit, v.ClosesLists → watch v = return ()

section

variable [MathLibrary]

/-- Items that are evaluated as they are read. -/
theorem mapM_eq_evaluateAll {value : Text → Evaluation Float} {read : Text → Term}
    {items : List Text} (h : ∀ item ∈ items, value item = (read item).evaluate 1) :
    items.mapM value = Term.evaluateAll (items.map read) := by
  induction items with
  | nil => rfl
  | cons item items ih =>
    obtain ⟨hitem, hitems⟩ := List.forall_mem_cons.1 h
    rw [List.mapM_cons, List.map_cons, Term.evaluateAll, hitem, ih hitems]

variable [Stack] {watch : Visit → Evaluation Unit} (hwatch : IsSilent watch) {room : Nat} {t : Text}
include hwatch

/-- What follows the name of a function is evaluated as it is read. -/
theorem callWatched_eq {value : Nat → Text → Evaluation Float}
    (hvalue : ∀ charge s, s.Listed → value charge s = (Term.read room charge s).evaluate 1)
    (neutral : Float) {l : Option Literal} {f : MathFunction} {rest : Text} (hrest : rest.Listed)
    (hnil : t ≠ []) (hsplit : Split.loosest? t = none) (hbang : t.getLast? ≠ some '!')
    (hname : Naming.read? t = some ⟨l, .function f, rest⟩) :
    (do callWatched watch value t (← factor t l) f rest) =
      (Term.read (room + 1) 0 t).evaluate neutral := by
  rw [Term.read.eq_4 _ _ hnil, hsplit, if_neg hbang, hname]
  simp only [callWatched, hwatch (.arguments rest) hrest, pure_bind]
  cases rest with
  | nil => simp only [↓reduceIte, Term.evaluate]
  | cons c rest =>
    simp only [reduceCtorEq, ↓reduceIte]
    cases hlist : ArgumentList.read? (c :: rest) with
    | none =>
      simp only [Term.evaluate, Term.evaluateAll, hvalue 2 _ hrest, pure_bind, bind_assoc]
    | some items =>
      by_cases hempty : items.any List.isEmpty = true
      · simp only [if_pos hempty, Term.evaluate]
      · have hitems : ∀ item ∈ items, value Stack.itemCharge item =
            (Term.read room Stack.itemCharge item).evaluate 1 := by
          intro item hitem
          exact hvalue _ item (ArgumentList.listed_of_mem_read? hrest hlist hitem)
        simp only [if_neg hempty, Term.evaluate, mapM_eq_evaluateAll hitems]

/-- The parts of a text that closes its lists are evaluated as they are read. -/
theorem partsWatched_eq {value : Nat → Float → Text → Evaluation Float}
    (hvalue : ∀ charge neutral s, s.Listed →
      value charge neutral s = (Term.read room charge s).evaluate neutral)
    (neutral : Float) (ht : t.Listed) (hnil : t ≠ []) :
    partsWatched watch value t = (Term.read (room + 1) 0 t).evaluate neutral := by
  rw [partsWatched]
  cases hsplit : Split.loosest? t with
  | some s =>
    obtain ⟨hbefore, hafter⟩ := Split.listed_of_loosest? ht hsplit
    rw [Term.read_of_loosest? hnil hsplit, Term.evaluate]
    simp only [hvalue _ _ _ hbefore, hvalue _ _ _ hafter]
  | none =>
    by_cases hbang : t.getLast? = some '!'
    · have htext := List.dropLast_append_getLast? '!' hbang
      rw [← htext] at ht
      have hoperand := ht.of_concat (by decide)
      rw [Term.read.eq_4 _ _ hnil, hsplit]
      simp only [if_pos hbang, Term.evaluate, hvalue _ _ _ hoperand]
    · simp only [if_neg hbang, hwatch (.name t) ht, pure_bind]
      cases hname : Naming.read? t with
      | some n =>
        have hrest := Naming.listed_rest ht hname
        obtain ⟨l, symbol, rest⟩ := n
        cases symbol with
        | constant c =>
          rw [Term.read.eq_4 _ _ hnil, hsplit, if_neg hbang, hname]
          simp only [namingWatched, Term.evaluate, hvalue _ _ _ hrest]
        | function f =>
          exact callWatched_eq hwatch (fun charge s hs => hvalue charge 1 s hs) neutral hrest hnil
            hsplit hbang hname
      | none =>
        rw [Term.read.eq_4 _ _ hnil, hsplit, if_neg hbang, hname]
        cases Literal.read? t with
        | some l => rw [Term.evaluate]
        | none => rw [Term.evaluate]

/-- A silent watch does nothing while a text that closes its lists is evaluated.  The induction is
on the levels that are left. -/
theorem evaluateWatched_eq (charge : Nat) (neutral : Float) (ht : t.Listed) :
    evaluateWatched watch room charge neutral t =
      (Term.read room charge t).evaluate neutral := by
  induction room generalizing charge neutral t with
  | zero => rw [evaluateWatched, hwatch (.text t) ht, pure_bind, Term.read, Term.evaluate]
  | succ room ih =>
    cases charge with
    | succ charge => rw [evaluateWatched, Term.read_charge, ih charge neutral ht]
    | zero =>
      rw [evaluateWatched, hwatch (.text t) ht, pure_bind]
      by_cases hnil : t = []
      · rw [if_pos hnil, hnil, Term.read_nil, Term.evaluate]
      · rw [if_neg hnil]
        exact partsWatched_eq hwatch (fun charge neutral s hs => ih charge neutral hs) neutral ht
          hnil

theorem evaluateFlatWatched_eq (neutral : Float) (ht : t.Listed) :
    evaluateFlatWatched watch neutral t = evaluateFlat neutral t :=
  evaluateWatched_eq hwatch 0 neutral ht

end

end Evaluation

/-! ## Texts with groups -/

namespace Text

/-- A text without lists. -/
def IsListless (t : Text) : Prop := ∀ c ∈ t, c ≠ '[' ∧ c ≠ ']'

theorem IsListless.normalize {t : Text} (h : IsListless t) : IsListless (normalize t) := by
  intro c hc
  rcases mem_normalize hc with rfl | hc
  · decide
  · exact h c hc

theorem IsListless.not_mem {t : Text} (h : IsListless t) : '[' ∉ t ∧ ']' ∉ t :=
  ⟨fun hc => (h _ hc).1 rfl, fun hc => (h _ hc).2 rfl⟩

theorem Replaces.listed_of_isListless {t u : Text} (h : Replaces t u) (ht : IsListless t) :
    Listed u :=
  h.listed ht.not_mem.1 ht.not_mem.2

theorem Begins.listed {t u : Text} (h : Begins t u) (ht : IsListless t) : Listed u := by
  induction h with
  | closed h => exact h.listed_of_isListless ht
  | opened h h' ih =>
    obtain ⟨hstart, hrest⟩ := List.forall_mem_append.1 ht
    obtain ⟨hopening, hcontent⟩ := List.forall_mem_cons.1 hrest
    exact (ih hstart).append (.cons hopening (h'.listed_of_isListless hcontent))

/-- The beginning of a text without lists, in reverse, with every group replaced that is closed. -/
def IsPassed (before : Text) : Prop := ∃ t, IsListless t ∧ t.Begins before.reverse

theorem isPassed_nil : IsPassed [] := ⟨[], List.forall_mem_nil _, .closed .nil⟩

namespace IsPassed

variable {before inner start new : Text} {c : Char}

/-- A character that is no bracket is passed. -/
theorem cons (h : IsPassed before) (hc : c ≠ '[' ∧ c ≠ ']') (hclosing : c ≠ ')') :
    IsPassed (c :: before) := by
  obtain ⟨t, ht, hbegins⟩ := h
  refine ⟨t ++ [c], List.forall_mem_append.2 ⟨ht, List.forall_mem_singleton.2 hc⟩, ?_⟩
  rw [List.reverse_cons]
  by_cases hopening : c = '('
  · rw [hopening]
    exact .opened hbegins .nil
  · exact hbegins.append (.cons ⟨hopening, hclosing⟩ .nil)

variable (h : IsPassed (inner.reverse ++ '(' :: start)) (hinner : '(' ∉ inner)
include h hinner

/-- The group that was opened last is in a text that closes its lists. -/
theorem listed_group : Listed start.reverse ∧ Listed inner := by
  obtain ⟨t, ht, hbegins⟩ := h
  have hreverse : (inner.reverse ++ '(' :: start).reverse = start.reverse ++ '(' :: inner := by
    simp
  obtain ⟨t₀, content, rfl, hstart, hcontent⟩ := hbegins.last_opened hreverse hinner
  obtain ⟨ht₀, hrest⟩ := List.forall_mem_append.1 ht
  exact ⟨hstart.listed ht₀, hcontent.listed_of_isListless (List.forall_mem_cons.1 hrest).2⟩

/-- The group that was opened last is passed when it is replaced. -/
theorem replaced (hnew : inner.IsReplacement new) : IsPassed (new.reverse ++ start) := by
  obtain ⟨t, ht, hbegins⟩ := h
  have hreverse : (inner.reverse ++ '(' :: start).reverse = start.reverse ++ '(' :: inner := by
    simp
  obtain ⟨t₀, content, rfl, hstart, hcontent⟩ := hbegins.last_opened hreverse hinner
  have hclosing : IsListless [')'] := List.forall_mem_singleton.2 (by decide)
  refine ⟨t₀ ++ '(' :: content ++ [')'], List.forall_mem_append.2 ⟨ht, hclosing⟩, ?_⟩
  simpa using hstart.append (.group hcontent hnew .nil)

end IsPassed

end Text

namespace Evaluation

open Text

section

variable [MathLibrary] [Stack] {watch : Visit → Evaluation Unit} (hwatch : IsSilent watch)
include hwatch

theorem replacementWatched_eq {g : Group} (htext : g.text.Listed) (hcontent : g.content.Listed) :
    replacementWatched watch g = replacement (evaluateFlat 1) g := by
  rw [replacementWatched, hwatch (.group g) ⟨htext, hcontent⟩, pure_bind, replacement, replacement,
    replacementIn, replacementIn, evaluateFlatWatched_eq hwatch 1 hcontent]

/-- A silent watch does nothing while groups are replaced.  The induction is on what is left of the
text; what was passed closes its lists, because every list there has replaced a group. -/
theorem replaceGroupsBy_replacementWatched {before after : Text} (h : IsPassed before)
    (hafter : IsListless after) :
    replaceGroupsBy (replacementWatched watch) before after = replaceGroups before after := by
  induction after generalizing before with
  | nil => rfl
  | cons c after ih =>
    obtain ⟨hc, hrest⟩ := List.forall_mem_cons.1 hafter
    rw [replaceGroupsBy, replaceGroups_def_cons]
    by_cases hclosing : c = ')'
    · rw [if_pos hclosing, if_pos hclosing]
      by_cases hopening : '(' ∈ before
      · obtain ⟨inner, start, rfl, hinner⟩ := List.eq_append_cons_of_mem hopening
        obtain ⟨inner, rfl⟩ : ∃ t : Text, inner = t.reverse :=
          ⟨_, (List.reverse_reverse inner).symm⟩
        rw [List.mem_reverse] at hinner
        obtain ⟨hstart, hcontent⟩ := h.listed_group hinner
        have htext : Listed (Group.text ⟨start.reverse, inner, after⟩) :=
          (hstart.append (.cons (by decide) hcontent)).append
            (.cons (by decide) (listed_of_ne hrest))
        rw [cutAtOpening_append hinner, List.append_nil]
        simp only [replacementWatched_eq hwatch htext hcontent]
        refine (yields_replacement _).bind_congr fun new hnew => ?_
        exact ih (h.replaced hinner hnew.isReplacement) hrest
      · rw [cutAtOpening_eq_none hopening]
    · rw [if_neg hclosing, if_neg hclosing, ih (h.cons hc hclosing) hrest]

theorem evaluateNormalizedBy_replacementWatched {t : Text} (ht : IsListless t) :
    evaluateNormalizedBy (replacementWatched watch) (evaluateFlatWatched watch 1) t =
      evaluateNormalized t := by
  have hresolve : Yields (fun o => ∀ u ∈ o, Listed u) (resolve t) := by
    rintro limits s o s' hrun u rfl
    exact (replaces_of_resolve hrun).listed_of_isListless ht
  rw [evaluateNormalizedBy, evaluateNormalized_def,
    replaceGroupsBy_replacementWatched hwatch isPassed_nil ht]
  refine hresolve.bind_congr fun o ho => ?_
  cases o with
  | none => rfl
  | some flat => simp only [evaluateFlatWatched_eq hwatch 1 (ho flat rfl)]

theorem evaluateExpressionWatched_eq {e : Text} (he : IsListless e) :
    evaluateExpressionWatched watch e = evaluateExpression e := by
  rw [evaluateExpressionWatched, evaluateExpressionBy, evaluateExpression_def,
    evaluateNormalizedBy_replacementWatched hwatch he.normalize]

end

/-! ## Main result -/

/-- Every scan sees the lists of a text.  In a text that closes its lists all scans agree on what
is outside of every list, so no operator, comma or semicolon that stands between a bracket and its
partner counts as outside.  And an expression that is typed without brackets leads to such texts
only: a watch that is silent on these, whatever it does on others, leaves the evaluation as it is,
although it is shown every text that is evaluated, every text in which a name is looked for, what
follows the name of every function, and every group with the whole text around it. -/
theorem evaluation_closesLists [MathLibrary] [Stack] :
    (∀ t : Text, t.Listed → t.ScansAgree) ∧
      ∀ watch : Visit → Evaluation Unit, IsSilent watch →
        ∀ e : Text, '[' ∉ e → ']' ∉ e →
          evaluateExpressionWatched watch e = evaluateExpression e := by
  refine ⟨fun t ht => ht.scansAgree, ?_⟩
  intro watch hwatch e hopening hclosing
  refine evaluateExpressionWatched_eq hwatch ?_
  intro c hc
  constructor
  · rintro rfl
    exact hopening hc
  · rintro rfl
    exact hclosing hc

/-- A watch that stops everything at a text that does not close its lists. -/
def stopUnlessClosed (v : Visit) : Evaluation Unit :=
  if v.ClosesLists then return () else throw .sumTooLarge

theorem isSilent_stopUnlessClosed : IsSilent stopUnlessClosed := fun _ hv => if_pos hv

/-- It does not stop a call in a call, where the text is split behind all lists. -/
theorem evaluateExpressionWatched_max :
    (Text.Listed "max[1;min[2;3]]+4".toList ∧ Text.ScansAgree "max[1;min[2;3]]+4".toList) ∧
      (IsSilent stopUnlessClosed ∧ '[' ∉ "max(1,min(2,3))+4".toList ∧
        ']' ∉ "max(1,min(2,3))+4".toList) ∧
      evaluateExpressionWatched stopUnlessClosed "max(1,min(2,3))+4".toList =
        evaluateExpression "max(1,min(2,3))+4".toList := by
  have hlisted : Text.Listed "max[1;min[2;3]]+4".toList := by decide
  have hbrackets : '[' ∉ "max(1,min(2,3))+4".toList ∧ ']' ∉ "max(1,min(2,3))+4".toList := by
    decide
  obtain ⟨hscans, hwatched⟩ := evaluation_closesLists
  refine ⟨⟨hlisted, hscans _ hlisted⟩, ⟨isSilent_stopUnlessClosed, hbrackets⟩, ?_⟩
  exact hwatched stopUnlessClosed isSilent_stopUnlessClosed _ hbrackets.1 hbrackets.2

/-- It stops at a bracket that was typed. -/
example (limits : Limits) (s : Session) :
    (evaluateExpressionWatched stopUnlessClosed [']']).runOn limits s =
      .error .sumTooLarge s := by
  rfl

end Evaluation

end Reckoner
