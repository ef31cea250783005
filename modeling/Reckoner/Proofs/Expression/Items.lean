import Mathlib
import Reckoner.Proofs.Expression.Listed

/-!
# Items of lists

An item of a list may hold lists again, but no separator stands outside of them
(`Text.Unseparated`).  The four scanners of a list agree on such items: the commas between them are
found (`Text.Unseparated.hasComma_append`) and become semicolons
(`ArgumentList.semicolons_separated`), the closing bracket is found behind them, and the list is cut
into them again (`ArgumentList.read?_separated`).
-/

namespace Reckoner

theorem ArgumentList.hasComma_append_foldl (s t : Text) (depth : Int) :
    hasComma depth (s ++ t) = (hasComma depth s || hasComma (s.foldl depthAfter depth) t) := by
  induction s generalizing depth with
  | nil => rfl
  | cons c s ih => rw [List.cons_append, hasComma, ih, hasComma, List.foldl_cons, Bool.or_assoc]

namespace Text

/-! ## Texts without separators -/

/-- A text that closes the lists it opens and has no separator outside of them. -/
inductive Unseparated : Text → Prop where
  /-- Nothing. -/
  | nil : Unseparated []
  /-- A character that is no bracket and no separator. -/
  | cons {c : Char} {t : Text} (hbracket : c ≠ '[' ∧ c ≠ ']') (hseparator : c ≠ ',' ∧ c ≠ ';')
    (h : Unseparated t) : Unseparated (c :: t)
  /-- A list, whatever separators it has. -/
  | list {s t : Text} (hs : Listed s) (ht : Unseparated t) : Unseparated ('[' :: (s ++ ']' :: t))

variable {s t : Text}

theorem unseparated_of_isItem (h : ArgumentList.IsItem t) : Unseparated t := by
  induction t with
  | nil => exact .nil
  | cons c t ih =>
    obtain ⟨⟨hopen, hclose, hcomma, hsemicolon⟩, ht⟩ := List.forall_mem_cons.1 h
    exact .cons ⟨hopen, hclose⟩ ⟨hcomma, hsemicolon⟩ (ih ht)

theorem unseparated_literal {l : Literal} (h : l.WellFormed) : Unseparated l.text :=
  unseparated_of_isItem (ArgumentList.isItem_literal h)

theorem Unseparated.append (hs : Unseparated s) (ht : Unseparated t) : Unseparated (s ++ t) := by
  induction hs with
  | nil => exact ht
  | cons hbracket hseparator h ih => exact .cons hbracket hseparator ih
  | list hs hs' ih => simpa using ih.list hs

theorem Unseparated.listed (h : Unseparated t) : Listed t := by
  induction h with
  | nil => exact .nil
  | cons hbracket hseparator h ih => exact .cons hbracket ih
  | list hs ht ih => exact .list hs ih

/-! ## Inside of a list -/

section

variable {depth : Int} (h : Listed t)
include h

theorem Listed.foldl_depthAfter (depth : Int) : t.foldl ArgumentList.depthAfter depth = depth := by
  induction h generalizing depth with
  | nil => rfl
  | cons hc h ih => rw [List.foldl_cons, ArgumentList.depthAfter_of_ne depth hc.1 hc.2, ih]
  | list hs ht ihs iht =>
    rw [List.foldl_cons, List.foldl_append, List.foldl_cons, ArgumentList.depthAfter_open, ihs,
      ArgumentList.depthAfter_close, iht]

/-- No comma in a list becomes a semicolon. -/
theorem Listed.semicolons_append (hdepth : 0 < depth) (rest : Text) :
    ArgumentList.semicolons depth (t ++ rest) = t ++ ArgumentList.semicolons depth rest := by
  induction h generalizing depth rest with
  | nil => rfl
  | @cons c t hc h ih =>
    rw [List.cons_append, ArgumentList.semicolons, if_neg (by simp [hdepth.ne']),
      ArgumentList.depthAfter_of_ne depth hc.1 hc.2, ih hdepth, List.cons_append]
  | @list s t hs ht ihs iht =>
    rw [List.cons_append, List.append_assoc, List.cons_append, ArgumentList.semicolons,
      ArgumentList.depthAfter_open, ihs (by omega), ArgumentList.semicolons,
      ArgumentList.depthAfter_close, iht hdepth]
    simp

/-- No semicolon in a list ends an item. -/
theorem Listed.items_append (hdepth : 0 < depth) (item rest : Text) :
    ArgumentList.items depth item (t ++ rest) =
      ArgumentList.items depth (t.reverse ++ item) rest := by
  induction h generalizing depth item rest with
  | nil => rfl
  | @cons c t hc h ih =>
    rw [List.cons_append, ArgumentList.items, if_neg (by simp [hdepth.ne']),
      ArgumentList.depthAfter_of_ne depth hc.1 hc.2, ih hdepth]
    simp
  | @list s t hs ht ihs iht =>
    rw [List.cons_append, List.append_assoc, List.cons_append, ArgumentList.items,
      if_neg (by simp), ArgumentList.depthAfter_open, ihs (by omega), ArgumentList.items,
      if_neg (by simp), ArgumentList.depthAfter_close, iht hdepth]
    simp

end

/-! ## Outside of the lists -/

section

variable (h : Unseparated t)
include h

theorem Unseparated.semicolons_append (rest : Text) :
    ArgumentList.semicolons 0 (t ++ rest) = t ++ ArgumentList.semicolons 0 rest := by
  induction h generalizing rest with
  | nil => rfl
  | @cons c t hbracket hseparator h ih =>
    rw [List.cons_append, ArgumentList.semicolons, if_neg (by simp [hseparator.1]),
      ArgumentList.depthAfter_of_ne 0 hbracket.1 hbracket.2, ih, List.cons_append]
  | @list s t hs ht ih =>
    rw [List.cons_append, List.append_assoc, List.cons_append, ArgumentList.semicolons,
      show ArgumentList.depthAfter 0 '[' = 1 from rfl, hs.semicolons_append (by decide),
      ArgumentList.semicolons, show ArgumentList.depthAfter 1 ']' = 0 from rfl, ih]
    simp

theorem Unseparated.items_append (item rest : Text) :
    ArgumentList.items 0 item (t ++ rest) = ArgumentList.items 0 (t.reverse ++ item) rest := by
  induction h generalizing item rest with
  | nil => rfl
  | @cons c t hbracket hseparator h ih =>
    rw [List.cons_append, ArgumentList.items, if_neg (by simp [hseparator.2]),
      ArgumentList.depthAfter_of_ne 0 hbracket.1 hbracket.2, ih]
    simp
  | @list s t hs ht ih =>
    rw [List.cons_append, List.append_assoc, List.cons_append, ArgumentList.items,
      if_neg (by simp), show ArgumentList.depthAfter 0 '[' = 1 from rfl,
      hs.items_append (by decide), ArgumentList.items, if_neg (by simp),
      show ArgumentList.depthAfter 1 ']' = 0 from rfl, ih]
    simp

/-- A comma behind the text stands outside of every list. -/
theorem Unseparated.hasComma_append (rest : Text) :
    ArgumentList.hasComma 0 (t ++ ',' :: rest) = true := by
  rw [ArgumentList.hasComma_append_foldl, h.listed.foldl_depthAfter]
  simp [ArgumentList.hasComma]

end

end Text

/-! ## Lists of items -/

namespace ArgumentList

open Text

variable {first : Text} {rest : List Text}

/-- The commas between the items become semicolons. -/
theorem semicolons_separated (h : ∀ t ∈ rest, Unseparated t) :
    semicolons 0 (separated ',' rest) = separated ';' rest := by
  induction rest with
  | nil => rfl
  | cons t rest ih =>
    obtain ⟨ht, hrest⟩ := List.forall_mem_cons.1 h
    have hcomma : ∀ rest, semicolons 0 (',' :: rest) = ';' :: semicolons 0 rest := by
      intro rest
      rw [semicolons, if_pos (by simp), depthAfter_of_ne 0 (by decide) (by decide)]
    simp only [separated, List.flatMap_cons, List.cons_append] at ih ⊢
    rw [hcomma, ht.semicolons_append, ih hrest]

theorem listed_separated (h : ∀ t ∈ rest, Unseparated t) : Listed (separated ';' rest) := by
  induction rest with
  | nil => exact .nil
  | cons t rest ih =>
    obtain ⟨ht, hrest⟩ := List.forall_mem_cons.1 h
    simp only [separated, List.flatMap_cons, List.cons_append] at ih ⊢
    exact .cons (by decide) (ht.listed.append (ih hrest))

section

variable (h : ∀ t ∈ first :: rest, Unseparated t)
include h

/-- Items with semicolons between them close their lists. -/
theorem listed_items : Listed (first ++ separated ';' rest) := by
  obtain ⟨hfirst, hrest⟩ := List.forall_mem_cons.1 h
  exact hfirst.listed.append (listed_separated hrest)

/-- Cutting at the semicolons gives the items. -/
theorem items_separated : items 0 [] (first ++ separated ';' rest) = first :: rest := by
  induction rest generalizing first with
  | nil =>
    rw [(h first (by simp)).items_append]
    simp [separated, items]
  | cons t rest ih =>
    have hrest := ih fun s hs => h s (List.mem_cons_of_mem _ hs)
    rw [(h first (by simp)).items_append]
    simp only [separated, List.flatMap_cons, List.cons_append] at hrest ⊢
    rw [items, if_pos (by simp), hrest]
    simp

/-- The list that is made of items is read as the items. -/
theorem read?_separated :
    read? ('[' :: (first ++ separated ';' rest ++ [']'])) = some (first :: rest) := by
  have hclosing : closing? 0 0 ('[' :: (first ++ separated ';' rest ++ [']'])) =
      some (first ++ separated ';' rest ++ [']']).length := by
    rw [closing?_eq (listed_items h)]
    simp only [List.length_append, List.length_singleton]
  rw [read?, if_pos hclosing, List.dropLast_concat, items_separated h]

end

/-- The characters between the items belong to no power of ten. -/
theorem hasUnfinishedExponent_items (h : ∀ t ∈ first :: rest, hasUnfinishedExponent t = false) :
    hasUnfinishedExponent ('[' :: (first ++ separated ';' rest ++ [']'])) = false := by
  have hmark : ∀ c, Numeral.isMantissa c = false → ∀ t,
      hasUnfinishedExponent (c :: t) = hasUnfinishedExponent t := by
    intro c hc t
    exact hasUnfinishedExponent_of_not_mantissa (s := [c]) (by simpa using hc) t
  have hitems : hasUnfinishedExponent (first ++ separated ';' rest ++ [']']) = false := by
    induction rest generalizing first with
    | nil =>
      rw [separated, List.flatMap_nil, List.append_nil,
        hasUnfinishedExponent_append_cons (by decide) (by decide), h first (by simp)]
      rfl
    | cons t rest ih =>
      have hrest := ih fun s hs => h s (List.mem_cons_of_mem _ hs)
      simp only [separated, List.flatMap_cons, List.cons_append, List.append_assoc] at hrest ⊢
      rw [hasUnfinishedExponent_append_cons (by decide) (by decide), h first (by simp),
        Bool.false_or]
      exact (hmark ';' rfl _).trans hrest
  exact (hmark '[' rfl _).trans hitems

/-- A list that is read has no separator outside of it, if its items have none. -/
theorem unseparated_of_read? {t : Text} {args : List Text} (h : read? t = some args)
    (hitems : ∀ item ∈ args, Unseparated item) : Unseparated t := by
  obtain ⟨first, rest, rfl, rfl⟩ := exists_of_read? h
  rw [List.append_assoc]
  simpa using Unseparated.list (listed_items hitems) .nil

end ArgumentList

/-- There are no separators and no brackets before what stands behind a name. -/
theorem Naming.exists_isItem {t : Text} {n : Naming} (h : read? t = some n) :
    ∃ start, t = start ++ n.rest ∧ ArgumentList.IsItem start := by
  obtain ⟨name, htext, hlower, -, hscan⟩ := exists_of_read? h
  have hfactor : ArgumentList.IsItem (n.factor.elim [] Literal.text) := by
    cases hl : n.factor with
    | none => exact List.forall_mem_nil _
    | some l => exact ArgumentList.isItem_literal (Literal.wellFormed_of_scan? (hscan l hl)).1
  have hname : ArgumentList.IsItem name := by
    intro c hc
    obtain ⟨a, ha, hca⟩ := exists_of_mem_forall₂ hlower hc
    refine ⟨?_, ?_, ?_, ?_⟩ <;>
    · rintro rfl
      exact absurd (Symbol.mem_alphabet ha) (by rw [← Option.some.inj hca]; decide)
  refine ⟨n.factor.elim [] Literal.text ++ name, ?_, List.forall_mem_append.2 ⟨hfactor, hname⟩⟩
  rw [List.append_assoc]
  exact htext

theorem Naming.unseparated {t : Text} {n : Naming} (h : read? t = some n)
    (hrest : n.rest.Unseparated) : t.Unseparated := by
  obtain ⟨start, htext, hstart⟩ := exists_isItem h
  rw [htext]
  exact (Text.unseparated_of_isItem hstart).append hrest

namespace Term

variable [Stack] {room : Nat}

/-- A function of a list of items. -/
theorem read_function_items (f : MathFunction) {first : Text} {rest : List Text}
    (h : ∀ t ∈ first :: rest, t.Unseparated ∧ t ≠ []) {list : Text}
    (hlist : list = '[' :: (first ++ ArgumentList.separated ';' rest ++ [']'])) :
    read (room + 1) 0 ((Symbol.function f).letters ++ list) =
      call ((Symbol.function f).letters ++ list) none f list
        ((first :: rest).map fun item => read room Stack.itemCharge item) := by
  have hitem : ∀ t ∈ first :: rest, t.Unseparated := fun t ht => (h t ht).1
  have hread : ArgumentList.read? list = some (first :: rest) := by
    rw [hlist, ArgumentList.read?_separated hitem]
  have hpass : ∀ tier before, Split.Passes tier before list := by
    intro tier before
    rw [hlist]
    exact Split.passes_brackets (ArgumentList.listed_items hitem) tier before
  have hlast : list.getLast? ≠ some '!' := by
    rw [hlist, ← List.cons_append, List.getLast?_concat]
    decide
  have hfull : (first :: rest).any List.isEmpty = false := by
    rw [List.any_eq_false]
    intro t ht
    simpa using (h t ht).2
  obtain ⟨hsplit, hbang⟩ := loosest?_function f hpass hlast
  rw [read.eq_4 _ _ (by simp [Symbol.letters_ne_nil]), hsplit, if_neg hbang,
    Naming.read?_function]
  simp only [hread]
  obtain ⟨c, t, hcons⟩ : ∃ c t, list = c :: t := ⟨_, _, hlist⟩
  rw [hcons]
  simp only
  rw [if_neg (Bool.eq_false_iff.1 hfull)]

/-- A function of a list of literals. -/
theorem read_function_list (f : MathFunction) {first : Literal} {rest : List Literal}
    (h : ∀ l ∈ first :: rest, l.WellFormed) {list : Text}
    (hlist : list = '[' :: (first.text ++ ArgumentList.separated ';' (rest.map Literal.text) ++
      [']'])) :
    read (room + 5) 0 ((Symbol.function f).letters ++ list) =
      call ((Symbol.function f).letters ++ list) none f list ((first :: rest).map literal) := by
  have hitem : ∀ t ∈ first.text :: rest.map Literal.text, t.Unseparated ∧ t ≠ [] := by
    intro t ht
    rw [← List.map_cons, List.mem_map] at ht
    obtain ⟨l, hl, rfl⟩ := ht
    exact ⟨Text.unseparated_literal (h l hl), literal_ne_nil (h l hl)⟩
  obtain ⟨k, hk⟩ : ∃ k, room + 4 = k + 1 + Stack.itemCharge :=
    ⟨room + 3 - Stack.itemCharge, by have := Stack.itemCharge_le; omega⟩
  have hargs : ((first :: rest).map Literal.text).map
      (fun item => read (room + 4) Stack.itemCharge item) = (first :: rest).map literal := by
    rw [List.map_map]
    refine List.map_congr_left ?_
    intro l hl
    rw [Function.comp_apply, hk, read_add_charge, read_literal (h l hl)]
  rw [read_function_items f hitem hlist, ← List.map_cons, hargs]

end Term

end Reckoner
