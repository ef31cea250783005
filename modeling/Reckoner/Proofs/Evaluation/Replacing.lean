import Mathlib
import Reckoner.Proofs.Evaluation.Juxtaposition
import Reckoner.Proofs.Evaluation.Value
import Reckoner.Proofs.Expression.Apart

/-!
# Groups that are replaced with values

In a text without dice, a group is replaced with one text only, wherever it stands, but for the
stars beside it (`Evaluation.exists_of_gives_group`).  Behind two beginnings that are done, the
groups of a text are replaced alike, and what stood apart from the beginnings still does
(`Evaluation.exists_of_gives_replaceGroups`).
-/

namespace Reckoner

/-! ## What a group becomes -/

namespace Text

variable {s t u : Text}

/-- When the groups of a text without lists are replaced, the lists are those that groups are
replaced with. -/
theorem Replaces.listed (h : Replaces t u) (hopening : '[' ∉ t) (hclosing : ']' ∉ t) :
    Listed u := by
  induction h with
  | nil => exact .nil
  | cons hc h ih =>
    rw [List.mem_cons, not_or] at hopening hclosing
    exact .cons ⟨Ne.symm hopening.1, Ne.symm hclosing.1⟩ (ih hopening.2 hclosing.2)
  | group hcontent hnew ht ihcontent iht =>
    simp only [List.mem_cons, List.mem_append, not_or] at hopening hclosing
    have hstar : ∀ {star : Text}, star.IsStar → Listed star := by
      rintro star (rfl | rfl)
      · exact .nil
      · exact .cons (by decide) .nil
    refine Listed.append ?_ (iht hopening.2.2.2 hclosing.2.2.2)
    cases hnew with
    | @literal left right x hcomma hx hleft hright =>
      obtain ⟨l, hl, htext, -⟩ := Literal.exists_ofFloat hx
      have hliteral : Listed (Literal.ofFloat x) := by
        refine listed_of_ne fun c hc => ?_
        have hitem := ArgumentList.isItem_literal hl c (htext ▸ hc)
        exact ⟨hitem.1, hitem.2.1⟩
      exact ((hstar hleft).append hliteral).append (hstar hright)
    | @list right hcomma hright =>
      have hinner := ihcontent hopening.2.1 hclosing.2.1
      exact .list (hinner.semicolons 0) (hstar hright)

end Text

/-- The star behind a group, which depends on what follows only. -/
def Group.starBehind (after : Text) : Text := starAfter ⟨[], [], after⟩

/-- A group with nothing around it becomes arguments. -/
theorem Group.Becomes.isArguments {content new : Text} (h : Becomes ⟨[], content, []⟩ new)
    (hcontent : content.Listed) : new.IsArguments := by
  rcases h with ⟨-, rfl⟩ | ⟨-, x, hx, rfl⟩
  · exact .list (hcontent.semicolons 0)
  · obtain ⟨l, hl, htext, -⟩ := Literal.exists_ofFloat hx
    have hnew : starBefore ⟨[], content, []⟩ ++ Literal.ofFloat x ++ starAfter ⟨[], content, []⟩ =
        l.text := by
      rw [htext]
      exact List.append_nil _
    rw [hnew]
    exact .literal hl

/-- A group that is multiplied with what stands before it becomes a text that stands apart. -/
theorem Group.Becomes.standsApart {g : Group} {new : Text} (h : g.Becomes new)
    (hbefore : g.before.getLast?.any joinsLeft = true) (rest : Text) :
    Text.StandsApart (new ++ rest) := by
  rcases h with ⟨-, rfl⟩ | ⟨-, x, hx, rfl⟩
  · show Text.isApart '[' = true
    decide
  · have hstar : g.starBefore = ['*'] := by rw [starBefore, if_pos hbefore]
    rw [hstar]
    show Text.isApart '*' = true
    decide

namespace Evaluation

variable [MathLibrary] [Stack]

/-! ## Values of replacements -/

omit [MathLibrary] [Stack] in
theorem gives_map {α β : Type} {m : Evaluation α} {f : α → β} {b : β} (h : Gives (f <$> m) b) :
    ∃ a, b = f a ∧ Gives m a := by
  obtain ⟨limits, s, s', hrun, hok⟩ := h
  rw [map_eq_pure_bind] at hrun
  cases hm : m.runOn limits s with
  | error halt t =>
    rw [runOn_bind_of_error hm] at hrun
    cases hrun
  | ok a t =>
    rw [runOn_bind_of_ok hm] at hrun
    cases hrun
    exact ⟨a, rfl, limits, s, _, hm, hok⟩

theorem diceless_evaluateFlat {t : Text} (h : t.WithoutDice) :
    Diceless (·.isFinite = true) (evaluateFlat 1 t) :=
  Term.diceless_evaluate isFinite_failedValue (Term.diceIn_read _ _ h)

theorem diceless_replacement {g : Group} (h : g.content.WithoutDice) :
    Diceless g.Becomes (replacement (evaluateFlat 1) g) :=
  fun limits limits' start =>
    @TextCoupling.couples_replacement _ _ (.quiet limits limits' start) g g rfl rfl rfl
      (fun _ => trivial) h

theorem diceless_replaceGroups {before after : Text} (hbefore : before.WithoutDice)
    (hafter : after.WithoutDice) :
    Diceless (fun o => ∀ t ∈ o, Text.WithoutDice t) (replaceGroups before after) :=
  fun limits limits' start => @TextCoupling.couples_replaceGroups _ _ (.quiet limits limits' start)
    before after hbefore hafter

theorem diceless_finish {o : Option Text} (h : ∀ t ∈ o, Text.WithoutDice t) :
    Diceless (·.isFinite = true) (finish o) :=
  fun limits limits' start => @TextCoupling.couples_finish _ _ (.quiet limits limits' start) o h

variable {t content before after : Text} {a : Float} {o : Option Text}

/-- The value of what is left is the value of the text. -/
theorem Gives.of_finish (ht : t.WithoutDice) (h : Gives (finish (some t)) a) :
    Gives (evaluateFlat 1 t) a := by
  obtain ⟨-, -, -, hvalue⟩ := h.of_bind (fun limits limits' start =>
    @TextCoupling.couples_checkExponents _ (.quiet limits limits' start) t)
      fun _ _ => diceless_evaluateFlat ht
  exact hvalue

/-- What a group is replaced with that is not multiplied with what stands before it. -/
theorem exists_of_gives_replacement {new : Text}
    (hbefore : before.getLast?.any Group.joinsLeft = false)
    (h : Gives (replacement (evaluateFlat 1) ⟨before, content, after⟩) new) :
    ∃ x, new = x ++ Group.starBehind after ∧
      Gives (replacement (evaluateFlat 1) ⟨[], content, []⟩) x := by
  have hstar : Group.starBefore ⟨before, content, after⟩ = [] := by
    rw [Group.starBefore, if_neg (by simp [hbefore])]
  rw [replacement, hstar, ← List.nil_append (Group.starAfter _), replacementIn_append_right] at h
  obtain ⟨x, rfl, hx⟩ := gives_map h
  exact ⟨x, rfl, (gives_congr fun _ => TextCoupling.couples_replacementIn_untraced _ _ _ _ _).1 hx⟩

/-- In a group with nothing around it, the text is replaced with `x`. -/
def GivesGroup (t x : Text) : Prop :=
  ∃ flat, Gives (resolve t) (some flat) ∧
    Gives (replacement (evaluateFlat 1) ⟨[], flat, []⟩) x

theorem diceless_resolve (h : t.WithoutDice) :
    Diceless (fun o => ∀ t ∈ o, Text.WithoutDice t) (resolve t) :=
  diceless_replaceGroups Text.withoutDice_nil h

namespace GivesGroup

variable {x x' : Text} (h : GivesGroup t x)
include h

/-- A text without dice becomes one text only. -/
theorem unique (hdice : t.WithoutDice) (h' : GivesGroup t x') : x = x' := by
  obtain ⟨flat, hresolve, hx⟩ := h
  obtain ⟨flat', hresolve', hx'⟩ := h'
  have hflat := (diceless_resolve hdice).of_gives hresolve flat rfl
  cases (diceless_resolve hdice).eq_of_gives hresolve hresolve'
  exact (diceless_replacement hflat).eq_of_gives hx hx'

/-- What a text becomes, once its own groups are replaced. -/
theorem exists_becomes {commas : Bool} (ht : t.Nested commas) (hdice : t.WithoutDice) :
    ∃ flat, t.Replaces flat ∧ flat.Resolved commas ∧ flat.WithoutDice ∧
      Group.Becomes ⟨[], flat, []⟩ x := by
  obtain ⟨flat, hresolve, hx⟩ := h
  have hflat := (diceless_resolve hdice).of_gives hresolve flat rfl
  obtain ⟨flat', heq, hresolved⟩ := hresolve.of_untraced fun _ =>
    TextCoupling.couples_resolve_nested ht
  cases heq
  obtain ⟨limits, s, s', hrun, -⟩ := hresolve
  exact ⟨flat, replaces_of_resolve hrun, hresolved, hflat, (diceless_replacement hflat).of_gives hx⟩

end GivesGroup

/-- A group is replaced by its inner groups first, as if nothing was around them, and then it is
replaced itself. -/
theorem exists_of_gives_group {commas : Bool} (ht : t.Nested commas) (hdice : t.WithoutDice)
    (hdice' : before.WithoutDice) (hdice'' : after.WithoutDice)
    (hbefore : before.head?.any Group.joinsLeft = false)
    (h : Gives (replaceGroups ('(' :: before) (t ++ ')' :: after)) o) :
    ∃ x, GivesGroup t x ∧
      Gives (replaceGroups ((x ++ Group.starBehind after).reverse ++ before) after) o := by
  have hgroup := (gives_congr fun _ => couples_group ht before after).2 h
  -- both texts go on without dice
  have hlater : ∀ {flat new : Text}, flat.WithoutDice →
      Group.Becomes ⟨before.reverse, flat, after⟩ new →
        Diceless (fun o => ∀ t ∈ o, Text.WithoutDice t)
          (replaceGroups (new.reverse ++ before) after) := by
    intro flat new hflat hnew
    exact diceless_replaceGroups (Text.diceIn_append.2 ⟨Text.diceIn_reverse.2 (hnew.diceIn hflat),
      hdice'⟩) hdice''
  have hrest : ∀ o' : Option Text, (∀ t ∈ o', Text.WithoutDice t) →
      Diceless (fun o => ∀ t ∈ o, Text.WithoutDice t) (replaceContent before after o') := by
    intro o' ho'
    cases o' with
    | none => exact fun _ _ _ => Coupling.couples_pure (by simp)
    | some flat =>
      exact fun _ _ _ => (diceless_replacement (ho' flat rfl) _ _ _).bind fun new hnew =>
        hlater (ho' flat rfl) hnew _ _ _
  obtain ⟨o', hgood, hresolve, hgoes⟩ := hgroup.of_bind (diceless_resolve hdice) hrest
  obtain ⟨flat, rfl, -⟩ := hresolve.of_untraced fun _ =>
    TextCoupling.couples_resolve_nested ht
  have hflat := hgood flat rfl
  obtain ⟨new, hnew, hreplacement, hgives⟩ := hgoes.of_bind (diceless_replacement hflat)
    fun new hnew => hlater hflat hnew
  obtain ⟨x, rfl, hx⟩ := exists_of_gives_replacement (by simpa using hbefore) hreplacement
  exact ⟨x, ⟨flat, hresolve, hx⟩, hgives⟩

/-! ## What follows -/

/-- A text without parentheses whose end is multiplied with a group that follows. -/
structure IsDone (x : Text) : Prop where
  /-- No group is open. -/
  opening : '(' ∉ x
  /-- There is no dice operator. -/
  withoutDice : x.WithoutDice
  /-- The end is multiplied with a group. -/
  joins : x.getLast?.any Group.joinsLeft = true

/-- Parentheses that are not balanced leave nothing to evaluate. -/
theorem not_gives_unfinished (h : '(' ∈ before) : ¬ Gives (replaceGroups before []) o := by
  rintro ⟨limits, s, s', hrun, hok⟩
  rw [replaceGroups_unfinished h] at hrun
  cases hrun
  exact absurd hok (by simp [Session.addProblem, Report.addProblem])

theorem not_gives_unmatched (h : '(' ∉ before) :
    ¬ Gives (replaceGroups before (')' :: after)) o := by
  rintro ⟨limits, s, s', hrun, hok⟩
  rw [replaceGroups_unmatched h] at hrun
  cases hrun
  exact absurd hok (by simp [Session.addProblem, Report.addProblem])

variable {x y s rest start inner : Text} {o' : Option Text}

/-- The group that was opened last is replaced. -/
theorem exists_of_gives_close (hinner : '(' ∉ inner) (hx : x.WithoutDice)
    (hs : (start ++ '(' :: inner).WithoutDice) (hrest : rest.WithoutDice)
    (h : Gives (replaceGroups (x ++ (start ++ '(' :: inner)).reverse (')' :: rest)) o) :
    ∃ new, Group.Becomes ⟨x ++ start, inner, rest⟩ new ∧
      Gives (replacement (evaluateFlat 1) ⟨x ++ start, inner, rest⟩) new ∧
        Gives (replaceGroups (x ++ (start ++ new)).reverse rest) o := by
  have hbefore : (x ++ (start ++ '(' :: inner)).reverse =
      inner.reverse ++ '(' :: (x ++ start).reverse := by
    simp
  rw [hbefore, replaceGroups_close hinner, List.reverse_reverse] at h
  obtain ⟨hstart, hopened⟩ := Text.diceIn_append.1 hs
  have hinner' := (Text.diceIn_cons.1 hopened).2
  obtain ⟨new, hnew, hgives, hlater⟩ := h.of_bind (diceless_replacement hinner')
    fun new hnew => diceless_replaceGroups (Text.diceIn_append.2
      ⟨Text.diceIn_reverse.2 (hnew.diceIn hinner'),
        Text.diceIn_reverse.2 (Text.diceIn_append.2 ⟨hx, hstart⟩)⟩) hrest
  rw [← List.reverse_append, List.append_assoc] at hlater
  exact ⟨new, hnew, hgives, hlater⟩

/-- A group is replaced alike behind two beginnings that are done. -/
theorem eq_of_gives_replacement {new new' : Text} (hx : IsDone x) (hy : IsDone y)
    (hinner : inner.WithoutDice)
    (h : Gives (replacement (evaluateFlat 1) ⟨x ++ start, inner, rest⟩) new)
    (h' : Gives (replacement (evaluateFlat 1) ⟨y ++ start, inner, rest⟩) new') : new = new' := by
  have hjoins : (x ++ start).getLast?.any Group.joinsLeft =
      (y ++ start).getLast?.any Group.joinsLeft := by
    rw [List.getLast?_append, List.getLast?_append]
    cases start.getLast? with
    | none => rw [Option.none_or, Option.none_or, hx.joins, hy.joins]
    | some c => rfl
  have halike : Alike (Group.Becomes ⟨x ++ start, inner, rest⟩)
      (replacement (evaluateFlat 1) ⟨x ++ start, inner, rest⟩)
      (replacement (evaluateFlat 1) ⟨y ++ start, inner, rest⟩) :=
    fun limits limits' s => @TextCoupling.couples_replacement _ _ (.quiet limits limits' s)
      ⟨x ++ start, inner, rest⟩ ⟨y ++ start, inner, rest⟩ rfl (Group.starBefore_eq hjoins) rfl
      (fun _ => trivial) hinner
  exact halike.eq_of_gives h h'

omit [MathLibrary] [Stack] in
/-- What is put in the place of a group stands apart from the beginning that the group stood apart
from. -/
theorem standsApart_close {new : Text} (hx : IsDone x)
    (hapart : Text.StandsApart (start ++ '(' :: inner ++ ')' :: rest))
    (hnew : Group.Becomes ⟨x ++ start, inner, rest⟩ new) :
    Text.StandsApart (start ++ new ++ rest) := by
  cases start with
  | nil => exact hnew.standsApart (by simpa using hx.joins) rest
  | cons c start => exact hapart

/-- A closing parenthesis leaves the same text behind two beginnings that are done. -/
theorem exists_of_gives_closes (hx : IsDone x) (hy : IsDone y) (hs : s.WithoutDice)
    (hrest : rest.WithoutDice) (hapart : Text.StandsApart (s ++ ')' :: rest))
    (h : Gives (replaceGroups (x ++ s).reverse (')' :: rest)) o)
    (h' : Gives (replaceGroups (y ++ s).reverse (')' :: rest)) o') :
    ∃ s', s'.WithoutDice ∧ Text.StandsApart (s' ++ rest) ∧
      Gives (replaceGroups (x ++ s').reverse rest) o ∧
        Gives (replaceGroups (y ++ s').reverse rest) o' := by
  have hopen : '(' ∈ s := by
    by_contra hopen
    exact not_gives_unmatched (by simp [hx.opening, hopen]) h
  obtain ⟨inner, start, hreverse, hinner⟩ :=
    List.eq_append_cons_of_mem (List.mem_reverse.2 hopen)
  obtain ⟨start, rfl⟩ : ∃ t : Text, start = t.reverse := ⟨_, (List.reverse_reverse start).symm⟩
  obtain ⟨inner, rfl⟩ : ∃ t : Text, inner = t.reverse := ⟨_, (List.reverse_reverse inner).symm⟩
  rw [List.mem_reverse] at hinner
  obtain rfl : s = start ++ '(' :: inner := by
    rw [← List.reverse_inj, hreverse]
    simp
  have hdice := (Text.diceIn_cons.1 (Text.diceIn_append.1 hs).2).2
  obtain ⟨new, hnew, hgives, hlater⟩ := exists_of_gives_close hinner hx.withoutDice hs hrest h
  obtain ⟨new', -, hgives', hlater'⟩ := exists_of_gives_close hinner hy.withoutDice hs hrest h'
  obtain rfl := eq_of_gives_replacement hx hy hdice hgives hgives'
  exact ⟨start ++ new, Text.diceIn_append.2 ⟨(Text.diceIn_append.1 hs).1, hnew.diceIn hdice⟩,
    standsApart_close hx hapart hnew, hlater, hlater'⟩

/-- Behind two beginnings that are done, the groups of a text are replaced alike.  What was passed
behind the beginnings is `s`, and it stands apart from them with what follows. -/
theorem exists_of_gives_replaceGroups (hx : IsDone x) (hy : IsDone y) (hs : s.WithoutDice)
    (hrest : rest.WithoutDice) (hapart : Text.StandsApart (s ++ rest))
    (h : Gives (replaceGroups (x ++ s).reverse rest) o)
    (h' : Gives (replaceGroups (y ++ s).reverse rest) o') :
    ∃ t, o = some (x ++ t) ∧ o' = some (y ++ t) ∧ t.WithoutDice ∧ Text.StandsApart t := by
  induction rest generalizing s with
  | nil =>
    by_cases hopen : '(' ∈ s
    · exact absurd h (not_gives_unfinished (by simp [hopen]))
    · rw [replaceGroups_nil (by simp [hx.opening, hopen])] at h
      rw [replaceGroups_nil (by simp [hy.opening, hopen])] at h'
      rw [List.append_nil] at hapart
      refine ⟨s, ?_, ?_, hs, hapart⟩
      · rw [gives_pure_iff.1 h, List.reverse_reverse]
      · rw [gives_pure_iff.1 h', List.reverse_reverse]
  | cons c rest ih =>
    obtain ⟨hc, htail⟩ := Text.diceIn_cons.1 hrest
    by_cases hclosing : c = ')'
    · subst hclosing
      obtain ⟨s', hs', hapart', hlater, hlater'⟩ :=
        exists_of_gives_closes hx hy hs htail hapart h h'
      exact ih hs' htail hapart' hlater hlater'
    · rw [replaceGroups_cons hclosing, ← List.reverse_concat, List.append_assoc] at h h'
      refine ih (Text.diceIn_append.2 ⟨hs, Text.diceIn_cons.2 ⟨hc, Text.withoutDice_nil⟩⟩) htail ?_
        h h'
      rwa [List.append_assoc]

end Evaluation

end Reckoner
