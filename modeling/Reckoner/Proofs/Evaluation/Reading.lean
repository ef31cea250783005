import Mathlib
import Reckoner.Proofs.Evaluation.Levels
import Reckoner.Proofs.Expression.Items

/-!
# Values of texts that are read

A text without dice that has a value closes the lists it opens, and no separator stands outside of
them (`Term.unseparated_of_gives`).
-/

namespace Reckoner

namespace Term

open Evaluation ArgumentList

variable [MathLibrary] [Stack] {neutral a : Float}

/-- A text that has a value closes the lists it opens and has no separator outside of them. -/
theorem unseparated_of_gives {room charge : Nat} {t : Text}
    (hdice : (read room charge t).DiceIn fun _ => False)
    (h : Gives ((read room charge t).evaluate neutral) a) : t.Unseparated := by
  induction room generalizing charge t neutral a with
  | zero => exact absurd h not_gives_tooDeep
  | succ room ih =>
    cases charge with
    | succ charge =>
      rw [read_charge] at h hdice
      exact ih hdice h
    | zero =>
      obtain ⟨T, hshape, hread⟩ := exists_shape t
      rw [hread] at h hdice
      cases hshape with
      | absent hnil => exact hnil ▸ .nil
      | binary hsplit =>
        obtain ⟨x, y, -, -, hleft, hright, -⟩ := gives_binary hdice h
        obtain ⟨tier, c, hat, htext⟩ := Split.text_of_loosest? hsplit
        have hop := Split.operator?_of_at? hat
        rw [htext]
        exact (ih hdice.2.1 hleft).append (.cons (Split.ne_bracket_of_operator? hop).symm
          (Split.ne_separator_of_operator? hop) (ih hdice.2.2 hright))
      | factorial hbang =>
        obtain ⟨x, -, hoperand, -⟩ := gives_factorial hdice h
        rw [← List.dropLast_append_getLast? '!' hbang]
        exact (ih hdice hoperand).append (.cons (by decide) (by decide) .nil)
      | constant hname =>
        obtain ⟨y, z, -, hz, -⟩ := gives_constant hdice h
        exact Naming.unseparated hname (ih hdice hz)
      | call hname =>
        obtain ⟨y, xs, -, hxs, -⟩ := gives_call hdice h
        cases forall₂_of_gives_evaluateAll hdice hxs with
        | cons hx _ => exact Naming.unseparated hname (ih hdice.1 hx)
      | @list l f rest args hname hlist =>
        obtain ⟨y, xs, -, hxs, -⟩ := gives_call hdice h
        refine Naming.unseparated hname (unseparated_of_read? hlist fun item hitem => ?_)
        obtain ⟨x, -, hx⟩ := exists_of_mem_forall₂ (forall₂_of_gives_evaluateAll hdice hxs)
          (List.mem_map_of_mem hitem)
        exact ih (allDiceIn_iff.1 hdice _ (List.mem_map_of_mem hitem)) hx
      | emptyCall => exact absurd h not_gives_emptyCall
      | literal hliteral =>
        obtain ⟨hl, htext⟩ := Literal.wellFormed_of_read? hliteral
        exact htext ▸ Text.unseparated_literal hl
      | unreadable => exact absurd h (not_gives_unreadable t)

end Term

end Reckoner
