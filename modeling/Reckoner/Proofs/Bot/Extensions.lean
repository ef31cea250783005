import Mathlib
import Reckoner.Bot.Extensions
import Reckoner.Proofs.Bot.Discovery

/-!
# What is loaded after a reload

A reload walks over sets of names, which have no order of their own, and any of its requests may
fail.  Whatever was loaded and reloaded before, in whatever order the sets are walked, and whichever
extensions fail, every extension that is loaded or found gets one request, and what is loaded
afterwards depends on these three sets only (`ExtensionState.reload_after_history`).
-/

namespace Reckoner

/-! ## The registry -/

@[simp] theorem mem_insertName {name x : String} {names : List String} :
    x ∈ insertName name names ↔ x = name ∨ x ∈ names := by
  induction names with
  | nil => simp [insertName]
  | cons other names ih =>
    rw [insertName]
    split
    · simp
    · split
      · rename_i heq
        simp [heq]
      · rw [List.mem_cons, ih, List.mem_cons]
        tauto

theorem pairwise_insertName {names : List String} (h : names.Pairwise (· < ·)) (name : String) :
    (insertName name names).Pairwise (· < ·) := by
  induction names with
  | nil => exact List.pairwise_singleton _ name
  | cons other names ih =>
    obtain ⟨hother, hnames⟩ := List.pairwise_cons.1 h
    rw [insertName]
    split
    · rename_i hlt
      refine List.pairwise_cons.2 ⟨?_, h⟩
      exact List.forall_mem_cons.2 ⟨hlt, fun x hx => hlt.trans (hother x hx)⟩
    · rename_i hge
      split
      · exact h
      · rename_i hne
        have hlt : other < name := lt_of_le_of_ne (not_lt.1 hge) (Ne.symm hne)
        refine List.pairwise_cons.2 ⟨fun x hx => ?_, ih hnames⟩
        rcases mem_insertName.1 hx with rfl | hx
        · exact hlt
        · exact hother x hx

/-! ## Requests -/

/-- Extensions of which some fail, whatever is asked of them. -/
def ExtensionHost.failingOn (failing : Finset String) (loading : String → List LogRecord) :
    ExtensionHost where
  fails _ _ name := decide (name ∈ failing)
  loading := loading

/-- The extensions that a reload makes a request of, when some are loaded and some are found. -/
def ExtensionRequest.concerns (loaded found : Finset String) : ExtensionRequest → Finset String
  | unload => loaded \ found
  | load => found \ loaded
  | reload => loaded ∩ found

namespace ExtensionState

variable {failing : Finset String} {loading : String → List LogRecord}
  {request : ExtensionRequest} {success failure : String} {s : ExtensionState}

theorem pairwise_registryAfter {registry : List String} (h : registry.Pairwise (· < ·))
    (request : ExtensionRequest) (name : String) :
    (registryAfter registry request name).Pairwise (· < ·) := by
  cases request with
  | load => exact pairwise_insertName h name
  | unload => exact h.sublist List.erase_sublist
  | reload => exact pairwise_insertName h name

/-- After a request that succeeded, its extension is loaded unless it was unloaded; nothing else
changes. -/
theorem mem_registryAfter {registry : List String} (h : registry.Pairwise (· < ·))
    {name x : String} :
    x ∈ registryAfter registry request name ↔
      if x = name then request ≠ .unload else x ∈ registry := by
  have hnodup : registry.Nodup := h.imp ne_of_lt
  cases request with
  | unload =>
    rw [registryAfter, hnodup.mem_erase_iff]
    split_ifs with hx <;> simp [hx]
  | load | reload =>
    simp only [registryAfter, mem_insertName, ne_eq, reduceCtorEq, not_false_eq_true]
    split_ifs with hx <;> simp [hx]

theorem pairwise_ask {host : ExtensionHost} (h : s.registry.Pairwise (· < ·)) (name : String) :
    (ask host request success failure s name).registry.Pairwise (· < ·) := by
  unfold ask
  split
  · exact h
  · exact pairwise_registryAfter h request name

theorem mem_registry_ask (h : s.registry.Pairwise (· < ·)) {name x : String} :
    x ∈ (ask (.failingOn failing loading) request success failure s name).registry ↔
      if x = name ∧ x ∉ failing then request ≠ .unload else x ∈ s.registry := by
  unfold ask
  by_cases hfails : name ∈ failing
  · rw [if_pos (by simpa [ExtensionHost.failingOn] using hfails), if_neg]
    rintro ⟨rfl, hx⟩
    exact hx hfails
  · rw [if_neg (by simpa [ExtensionHost.failingOn] using hfails)]
    simp only [mem_registryAfter h]
    by_cases hx : x = name
    · rw [if_pos hx, if_pos ⟨hx, hx ▸ hfails⟩]
    · rw [if_neg hx, if_neg fun h => hx h.1]

theorem calls_ask (name : String) :
    (ask (.failingOn failing loading) request success failure s name).calls =
      s.calls ++ [⟨request, name, decide (name ∉ failing)⟩] := by
  unfold ask
  by_cases hfails : name ∈ failing <;> simp [ExtensionHost.failingOn, hfails]

/-- The same request of several extensions. -/
structure AsksEach (failing : Finset String) (request : ExtensionRequest) (names : List String)
    (s t : ExtensionState) : Prop where
  /-- The registry stays sorted. -/
  pairwise : t.registry.Pairwise (· < ·)
  /-- Only the extensions that are asked for and do not fail are loaded or unloaded. -/
  mem_registry : ∀ x, x ∈ t.registry ↔
    if x ∈ names ∧ x ∉ failing then request ≠ .unload else x ∈ s.registry
  /-- Every extension gets the request, whether others fail or not. -/
  calls : t.calls = s.calls ++ names.map fun name => ⟨request, name, decide (name ∉ failing)⟩

theorem asksEach_foldl (h : s.registry.Pairwise (· < ·)) (names : List String) :
    AsksEach failing request names s
      (names.foldl (ask (.failingOn failing loading) request success failure) s) := by
  induction names generalizing s with
  | nil => exact ⟨h, by simp, by simp⟩
  | cons name names ih =>
    have hask : (ask (.failingOn failing loading) request success failure s
        name).registry.Pairwise (· < ·) := pairwise_ask h name
    have hrest := ih hask
    refine ⟨hrest.pairwise, fun x => ?_, ?_⟩
    · rw [List.foldl_cons, hrest.mem_registry, mem_registry_ask h]
      simp only [List.mem_cons]
      split_ifs <;> tauto
    · rw [List.foldl_cons, hrest.calls, calls_ask, List.append_assoc]
      rfl

/-! ## Reloads -/

/-- Brings the registry in line with the extensions that were found, walking every set in an
order. -/
def reloadInOrder (host : ExtensionHost) (order : SetOrder) (found : List String)
    (s : ExtensionState) : ExtensionState :=
  let loaded := s.registry.toFinset
  let found := found.toFinset
  let s := s.logging [
    ⟨.info, "Starting cog reload process...", rootLogger⟩,
    ⟨.info, s!"Currently loaded cogs: {listing (order.walk loaded)}", rootLogger⟩,
    ⟨.info, s!"Discovered cogs in filesystem: {listing (order.walk found)}", rootLogger⟩]
  (reloadEach host (order.walk (loaded \ found)) (order.walk (found \ loaded))
    (order.walk (loaded ∩ found)) s).logging [⟨.info, "Finished reloading cogs.", rootLogger⟩]

/-- A reload walks the sets in the order of the code points. -/
theorem reloadInOrder_sorted (host : ExtensionHost) {found : List String}
    (hfound : found.Pairwise (· < ·)) (h : s.registry.Pairwise (· < ·)) :
    s.reloadInOrder host .sorted found = s.reloadAll host found := by
  have hremoved : SetOrder.sorted.walk (s.registry.toFinset \ found.toFinset) =
      s.registry.filter fun name => !found.contains name :=
    SetOrder.walk_sorted (h.filter _) (by simp)
  have hadded : SetOrder.sorted.walk (found.toFinset \ s.registry.toFinset) =
      found.filter fun name => !s.registry.contains name :=
    SetOrder.walk_sorted (hfound.filter _) (by simp)
  have hkept : SetOrder.sorted.walk (s.registry.toFinset ∩ found.toFinset) =
      s.registry.filter found.contains :=
    SetOrder.walk_sorted (h.filter _) (by simp)
  rw [reloadInOrder, reloadAll, hremoved, hadded, hkept,
    SetOrder.walk_sorted h (by simp), SetOrder.walk_sorted hfound (by simp)]

/-- The requests of a reload, phase by phase. -/
def reloadCalls (failing : Finset String) (order : SetOrder) (loaded found : Finset String) :
    List ExtensionCall :=
  [.unload, .load, .reload].flatMap fun (request : ExtensionRequest) =>
    (order.walk (request.concerns loaded found)).map fun name =>
      ⟨request, name, decide (name ∉ failing)⟩

section

variable {order : SetOrder} {loaded found : Finset String}

theorem mem_reloadCalls {call : ExtensionCall} :
    call ∈ reloadCalls failing order loaded found ↔
      call.extension ∈ call.request.concerns loaded found ∧
        call.succeeded = decide (call.extension ∉ failing) := by
  obtain ⟨request, name, succeeded⟩ := call
  cases request <;> simp [reloadCalls, SetOrder.mem_walk, eq_comm]

theorem extension_reloadCalls :
    (reloadCalls failing order loaded found).map ExtensionCall.extension =
      order.walk (loaded \ found) ++
        (order.walk (found \ loaded) ++ order.walk (loaded ∩ found)) := by
  simp [reloadCalls, ExtensionRequest.concerns, Function.comp_def]

/-- No extension is in two phases. -/
theorem nodup_extension_reloadCalls :
    ((reloadCalls failing order loaded found).map ExtensionCall.extension).Nodup := by
  rw [extension_reloadCalls]
  refine (order.nodup _).append ((order.nodup _).append (order.nodup _) ?_) ?_
  · intro name hload hreload
    rw [SetOrder.mem_walk, Finset.mem_sdiff] at hload
    rw [SetOrder.mem_walk, Finset.mem_inter] at hreload
    exact hload.2 hreload.1
  · intro name hunload hlater
    rw [SetOrder.mem_walk, Finset.mem_sdiff] at hunload
    rw [List.mem_append, SetOrder.mem_walk, SetOrder.mem_walk, Finset.mem_sdiff,
      Finset.mem_inter] at hlater
    exact hunload.2 (hlater.elim And.left And.right)

/-- Every extension is in a phase. -/
theorem toFinset_extension_reloadCalls :
    ((reloadCalls failing order loaded found).map ExtensionCall.extension).toFinset =
      loaded ∪ found := by
  ext name
  rw [extension_reloadCalls]
  simp only [List.mem_toFinset, List.mem_append, SetOrder.mem_walk, Finset.mem_union,
    Finset.mem_inter, Finset.mem_sdiff]
  tauto

end

/-- What a reload does to the extensions that are loaded. -/
structure Reloads (failing : Finset String) (order : SetOrder) (found : Finset String)
    (s t : ExtensionState) : Prop where
  /-- The registry stays sorted. -/
  pairwise : t.registry.Pairwise (· < ·)
  /-- An extension is loaded that was found before and after, that could not be unloaded, or that
  could be loaded. -/
  registry : t.registry.toFinset =
    s.registry.toFinset ∩ found ∪ s.registry.toFinset ∩ failing ∪ found \ failing
  /-- All requests are made, whatever fails. -/
  calls : t.calls = s.calls ++ reloadCalls failing order s.registry.toFinset found

/-- The phases of a reload do not disturb each other. -/
theorem reloads_reloadEach (order : SetOrder) (found : Finset String)
    (h : s.registry.Pairwise (· < ·)) :
    Reloads failing order found s
      (reloadEach (.failingOn failing loading) (order.walk (s.registry.toFinset \ found))
        (order.walk (found \ s.registry.toFinset)) (order.walk (s.registry.toFinset ∩ found))
        s) := by
  have hunload := @asksEach_foldl failing loading .unload "unloaded removed extension"
    "unload extension" s h (order.walk (s.registry.toFinset \ found))
  have hload := @asksEach_foldl failing loading .load "loaded new extension"
    "load new extension" _ hunload.pairwise (order.walk (found \ s.registry.toFinset))
  have hreload := @asksEach_foldl failing loading .reload "reloaded extension"
    "reload extension" _ hload.pairwise (order.walk (s.registry.toFinset ∩ found))
  refine ⟨hreload.pairwise, ?_, ?_⟩
  · -- the three sets are disjoint, so every name is decided by one phase
    ext x
    rw [List.mem_toFinset, reloadEach, hreload.mem_registry, hload.mem_registry,
      hunload.mem_registry]
    simp only [SetOrder.mem_walk, Finset.mem_union, Finset.mem_inter, Finset.mem_sdiff,
      List.mem_toFinset, ne_eq, reduceCtorEq, not_false_eq_true, not_true_eq_false]
    split_ifs <;> tauto
  · rw [reloadEach, hreload.calls, hload.calls, hunload.calls]
    simp [reloadCalls, ExtensionRequest.concerns]

theorem reloads_reloadInOrder (order : SetOrder) (found : List String)
    (h : s.registry.Pairwise (· < ·)) :
    Reloads failing order found.toFinset s
      (s.reloadInOrder (.failingOn failing loading) order found) := by
  have hphases := @reloads_reloadEach failing loading
    (s.logging [
      ⟨.info, "Starting cog reload process...", rootLogger⟩,
      ⟨.info, s!"Currently loaded cogs: {listing (order.walk s.registry.toFinset)}", rootLogger⟩,
      ⟨.info, s!"Discovered cogs in filesystem: {listing (order.walk found.toFinset)}",
        rootLogger⟩])
    order found.toFinset h
  exact ⟨hphases.pairwise, hphases.registry, hphases.calls⟩

/-! ## Histories -/

end ExtensionState

/-- Something that is done to the extensions, with the files that are in their directory then, if
there is one, and with the extensions that fail. -/
inductive ExtensionStep where
  /-- Loads every extension that is found. -/
  | load (files : Option (List String)) (failing : Finset String)
  /-- Reloads the extensions and walks the sets in an order. -/
  | reload (files : Option (List String)) (failing : Finset String) (order : SetOrder)

namespace ExtensionState

variable (package : String) (loading : String → List LogRecord)

/-- The extensions after a step. -/
def perform (s : ExtensionState) : ExtensionStep → ExtensionState
  | .load files failing => s.loadAll (.failingOn failing loading) (discoverIn package files)
  | .reload files failing order =>
    s.reloadInOrder (.failingOn failing loading) order (discoverIn package files)

/-- The extensions after a history of steps that begins with none. -/
def after (history : List ExtensionStep) : ExtensionState :=
  history.foldl (perform package loading) (start [])

theorem pairwise_perform {s : ExtensionState} (h : s.registry.Pairwise (· < ·))
    (step : ExtensionStep) : (perform package loading s step).registry.Pairwise (· < ·) := by
  cases step with
  | load files failing =>
    exact (asksEach_foldl (s := s.logging _) h (discoverIn package files)).pairwise
  | reload files failing order => exact (reloads_reloadInOrder order _ h).pairwise

/-- After every history, the registry is sorted and holds no name twice. -/
theorem pairwise_after (history : List ExtensionStep) :
    (after package loading history).registry.Pairwise (· < ·) := by
  have hsteps : ∀ s : ExtensionState, s.registry.Pairwise (· < ·) →
      (history.foldl (perform package loading) s).registry.Pairwise (· < ·) := by
    induction history with
    | nil => exact fun _ h => h
    | cons step history ih => exact fun s h => ih _ (pairwise_perform package loading h step)
  exact hsteps (start []) List.Pairwise.nil

/-- A reload after any history, in whatever order it walks the sets and whichever extensions fail.
Of the extensions that are loaded and those that are found, the ones in both sets stay loaded, those
that fail stay as they were, and the others are as they are found.  Each of them gets exactly one
request: it is unloaded if it is not found, loaded if it was not loaded, and else reloaded.  If
nothing fails, exactly the extensions that were found are loaded.  In the order of the code points,
this is the reload of the bot. -/
theorem reload_after_history (history : List ExtensionStep) (listing : Option DirectoryListing)
    (failing : Finset String) (order : SetOrder) :
    let s := after package loading history
    let found := discoverIn package (listing.map DirectoryListing.files)
    let t := s.reloadInOrder (.failingOn failing loading) order found
    t.registry.toFinset =
        s.registry.toFinset ∩ found.toFinset ∪ s.registry.toFinset ∩ failing ∪
          found.toFinset \ failing ∧
      (∃ calls, t.calls = s.calls ++ calls ∧
        (calls.map ExtensionCall.extension).Nodup ∧
        (calls.map ExtensionCall.extension).toFinset = s.registry.toFinset ∪ found.toFinset ∧
        (∀ call ∈ calls,
          call.extension ∈ call.request.concerns s.registry.toFinset found.toFinset ∧
            call.succeeded = decide (call.extension ∉ failing)) ∧
        ((∀ call ∈ calls, call.succeeded = true) → t.registry = found)) ∧
      s.reloadInOrder (.failingOn failing loading) .sorted found =
        s.reloadAll (.failingOn failing loading) found := by
  intro s found t
  have hs : s.registry.Pairwise (· < ·) := pairwise_after package loading history
  have hfound : found.Pairwise (· < ·) := pairwise_discoverIn package listing
  have hreload : Reloads failing order found.toFinset s t := reloads_reloadInOrder order found hs
  refine ⟨hreload.registry, ⟨_, hreload.calls, nodup_extension_reloadCalls,
    toFinset_extension_reloadCalls, fun call => mem_reloadCalls.1, fun hsucceeded => ?_⟩,
    reloadInOrder_sorted _ hfound hs⟩
  have hnone : ∀ name ∈ s.registry.toFinset ∪ found.toFinset, name ∉ failing := by
    intro name hname
    rw [← @toFinset_extension_reloadCalls failing order, List.mem_toFinset, List.mem_map] at hname
    obtain ⟨call, hcall, rfl⟩ := hname
    exact of_decide_eq_true ((mem_reloadCalls.1 hcall).2.symm.trans (hsucceeded call hcall))
  -- both lists are sorted, so they are equal if they have the same members
  refine hreload.pairwise.eq_of_mem_iff hfound fun name => ?_
  rw [← List.mem_toFinset, hreload.registry]
  have hname := hnone name
  simp only [Finset.mem_union, Finset.mem_inter, Finset.mem_sdiff, List.mem_toFinset] at hname ⊢
  tauto

end ExtensionState

end Reckoner
