import Mathlib
import Reckoner.Proofs.Evaluation.Account

/-!
# Wordings without backticks

The wording of a step has a backtick only if the step quotes one: numbers and names have none.  So a
trace has no backtick if its steps quote none (`Report.hasNoBacktick_traceText`).
-/

namespace Reckoner

/-- The character that begins and ends code. -/
def backtick : Char := '\x60'

/-- Whether a text holds no backtick. -/
def HasNoBacktick (s : String) : Prop := Text.UsesOnly (· ≠ backtick) s.toList

instance (s : String) : Decidable (HasNoBacktick s) :=
  decidable_of_iff (backtick ∉ s.toList)
    ⟨fun h _ hc hb => h (hb ▸ hc), fun h hb => h backtick hb rfl⟩

namespace HasNoBacktick

variable {s t u : String}

theorem append (hs : HasNoBacktick s) (ht : HasNoBacktick t) : HasNoBacktick (s ++ t) := by
  rw [HasNoBacktick, String.toList_append]
  exact Text.usesOnly_append.2 ⟨hs, ht⟩

theorem between (hs : HasNoBacktick s) (ht : HasNoBacktick t) (hu : HasNoBacktick u) :
    HasNoBacktick (s ++ t ++ u) := (hs.append ht).append hu

theorem ofList {t : Text} (h : t.UsesOnly (· ≠ backtick)) : HasNoBacktick (String.ofList t) := by
  rwa [HasNoBacktick, String.toList_ofList]

theorem intercalate (hs : HasNoBacktick s) {items : List String}
    (h : ∀ item ∈ items, HasNoBacktick item) : HasNoBacktick (s.intercalate items) := by
  induction items with
  | nil => exact ofList Text.usesOnly_nil
  | cons item items ih =>
    obtain ⟨hitem, hitems⟩ := List.forall_mem_cons.1 h
    cases items with
    | nil => rwa [String.intercalate_singleton]
    | cons next items =>
      rw [String.intercalate_cons_cons]
      exact (hitem.append hs).append (ih hitems)

/-! ## Numbers -/

theorem ofNat (n : Nat) : HasNoBacktick (toString n) := by
  refine ofList fun c hc => ?_
  rintro rfl
  exact absurd (Nat.isDigit_of_mem_toDigits (by decide) (by decide) hc) (by decide)

theorem ofInt (n : Int) : HasNoBacktick (toString n) := by
  cases n with
  | ofNat n => exact ofNat n
  | negSucc n => exact append (s := "-") (by decide) (ofNat (n + 1))

theorem ofFloat (x : Float) : HasNoBacktick (shownNumber x) := by
  refine ofList ?_
  rintro c hc rfl
  exact absurd (Number.isFigure_or_mem_of_mem_plainText hc) (by decide)

theorem ofFloats (args : List Float) : HasNoBacktick (shownNumbers args) := by
  refine intercalate (by decide) fun item hitem => ?_
  obtain ⟨x, -, rfl⟩ := List.mem_map.1 hitem
  exact ofFloat x

end HasNoBacktick

/-! ## Steps -/

theorem MathConstant.hasNoBacktick_name (c : MathConstant) : HasNoBacktick c.name := by
  cases c <;> decide

theorem MathFunction.hasNoBacktick_name (f : MathFunction) : HasNoBacktick f.name := by
  cases f <;> decide

namespace Event

theorem hasNoBacktick_applied (op : Arithmetic) (a b : Float) :
    HasNoBacktick (applied op a b).message := by
  have ha := HasNoBacktick.ofFloat a
  have hb := HasNoBacktick.ofFloat b
  cases op with
  | add => exact .between (.between (by decide) ha (by decide)) hb (by decide)
  | subtract => exact .between (.between (by decide) ha (by decide)) hb (by decide)
  | multiply => exact .append (.between (by decide) ha (by decide)) hb
  | divide => exact .append (.between (by decide) ha (by decide)) hb
  | power => exact .append (.between (by decide) ha (by decide)) hb
  | remainder => exact .append (.between (by decide) ha (by decide)) hb

theorem hasNoBacktick_rolled (shown : List Int) (more negative : Bool) (count : Nat) (faces : Int) :
    HasNoBacktick (rolled shown more negative count faces).message := by
  have hlisting : HasNoBacktick (", ".intercalate (shown.map toString)) := by
    refine .intercalate (by decide) fun item hitem => ?_
    obtain ⟨value, -, rfl⟩ := List.mem_map.1 hitem
    exact .ofInt value
  have hrest : HasNoBacktick (if more then ", ..." else "") := by cases more <;> decide
  have hsign : HasNoBacktick (if negative then "-" else "") := by cases negative <;> decide
  have hvalues := HasNoBacktick.between (s := "Rolled values: ") (by decide) hlisting hrest
  exact .between (.between (.between hvalues (by decide) hsign) (.ofNat count) (by decide))
    (.ofInt faces) (by decide)

/-- The wording of an event has a backtick only if the event quotes one. -/
theorem hasNoBacktick_message {e : Event} (h : e.quoted.UsesOnly (· ≠ backtick)) :
    HasNoBacktick e.message := by
  cases e with
  | parameters content => exact .between (by decide) (.ofList h) (by decide)
  | group content value =>
    exact .between (.between (by decide) (.ofList h) (by decide)) (.ofFloat value) (by decide)
  | applied op a b => exact hasNoBacktick_applied op a b
  | multiplicand text => exact .between (by decide) (.ofList h) (by decide)
  | constant c =>
    exact .between (.between (by decide) c.hasNoBacktick_name (by decide)) (.ofFloat c.value)
      (by decide)
  | function f args =>
    exact .between (.between (by decide) f.hasNoBacktick_name (by decide)) (.ofFloats args)
      (by decide)
  | number x => exact .between (by decide) (.ofFloat x) (by decide)
  | noDice => exact (by decide : HasNoBacktick "Rolled 0 dice.")
  | rolled shown more negative count faces => exact hasNoBacktick_rolled _ _ _ _ _
  | factorial operand rounded =>
    exact .between (.between (by decide) (.ofFloat operand) (by decide)) (.ofInt rounded)
      (by decide)
  | stated message => exact h

end Event

theorem Step.hasNoBacktick_line {e : Step} (h : e.UsesOnly (· ≠ backtick)) :
    HasNoBacktick e.line :=
  .append (.between (by decide) (Event.hasNoBacktick_message h.1) (by decide)) (.ofList h.2)

/-- A trace has no backtick if its steps quote none. -/
theorem Report.hasNoBacktick_traceText {r : Report}
    (h : ∀ e ∈ r.steps, e.UsesOnly (· ≠ backtick)) : HasNoBacktick r.traceText := by
  refine .intercalate (by decide) (List.forall_mem_append.2 ⟨List.forall_mem_map.2 ?_, ?_⟩)
  · exact fun e he => Step.hasNoBacktick_line (h e he)
  · split
    · exact List.forall_mem_nil _
    · exact List.forall_mem_singleton.2 (.between (by decide) (.ofNat r.dropped) (by decide))

/-! ## Lengths -/

theorem length_intercalate_ge {n : Nat} (s : String) {items : List String}
    (h : ∀ item ∈ items, n ≤ item.length) :
    items.length * n ≤ (s.intercalate items).length := by
  induction items with
  | nil => simp
  | cons item items ih =>
    obtain ⟨hitem, hitems⟩ := List.forall_mem_cons.1 h
    cases items with
    | nil => simpa using hitem
    | cons next items =>
      have hrest := ih hitems
      rw [String.intercalate_cons_cons, String.length_append, String.length_append,
        List.length_cons, Nat.succ_mul]
      omega

theorem Step.length_line_ge (e : Step) : 16 ≤ e.line.length := by
  have hwords : " v: ".length + " with arg = ".length = 16 := rfl
  have hline : e.line = " v: " ++ e.event.message ++ " with arg = " ++ String.ofList e.source := rfl
  rw [hline, String.length_append, String.length_append, String.length_append]
  omega

/-- Every step of a trace takes some room. -/
theorem Report.length_traceText_ge (r : Report) : r.steps.length * 16 ≤ r.traceText.length := by
  have hlines : ∀ line ∈ r.steps.map Step.line ++
      (if r.dropped = 0 then [] else [s!" ... ({r.dropped} more steps)"]), 16 ≤ line.length := by
    refine List.forall_mem_append.2 ⟨List.forall_mem_map.2 fun e _ => e.length_line_ge, ?_⟩
    split
    · exact List.forall_mem_nil _
    · have hwords : " ... (".length + " more steps)".length = 18 := rfl
      refine List.forall_mem_singleton.2 ?_
      show 16 ≤ (" ... (" ++ toString r.dropped ++ " more steps)").length
      rw [String.length_append, String.length_append]
      omega
  calc r.steps.length * 16
      ≤ (r.steps.map Step.line ++
          if r.dropped = 0 then [] else [s!" ... ({r.dropped} more steps)"]).length * 16 := by
        rw [List.length_append, List.length_map]
        exact Nat.mul_le_mul_right 16 (Nat.le_add_right _ _)
    _ ≤ r.traceText.length := length_intercalate_ge _ hlines

end Reckoner
