import Mathlib
import Reckoner.Bot.Console
import Reckoner.Proofs.Settings.Prefix

/-!
# What the listener does

The listener takes one line after the other from a stream (`hear`).  It stops where nothing is left
to read, and behind a line that says `exit`.  A blank line is not the end of the stream: what is
read then is its line feed.  Of the lines that are typed, the listener handles those up to the first
that says `exit` (`handledLines`), and does nothing but what they say (`hear_typed`).
-/

namespace Reckoner

/-! ## Commands on a line -/

/-- The word that gives a command. -/
def ConsoleCommand.word : ConsoleCommand → Text
  | reload => "reload".toList
  | exit => "exit".toList

/-- Whether a line gives a command: nothing but its word is left when the blanks around it are
stripped and the letters are lowered. -/
def Text.gives (command : ConsoleCommand) (line : Text) : Bool :=
  line.trim.lowercase == command.word

namespace ConsoleCommand

variable {command : ConsoleCommand} {line : Text}

theorem word_injective : Function.Injective word := by
  intro a b
  cases a <;> cases b <;> decide

theorem request_injective : Function.Injective request := by
  intro a b
  cases a <;> cases b <;> decide

/-- No line gives two commands. -/
theorem eq_of_gives {other : ConsoleCommand} (h : line.gives command = true)
    (h' : line.gives other = true) : command = other := by
  rw [Text.gives, beq_iff_eq] at h h'
  exact word_injective (h.symm.trans h')

theorem ofLine?_eq_ite (line : Text) :
    ofLine? line =
      if line.gives .exit then some .exit else if line.gives .reload then some .reload else none :=
  rfl

theorem ofLine?_eq_some_iff : ofLine? line = some command ↔ line.gives command = true := by
  rw [ofLine?_eq_ite]
  constructor
  · intro h
    split at h
    · rename_i hexit
      rwa [← Option.some.inj h]
    · split at h
      · rename_i hreload
        rwa [← Option.some.inj h]
      · cases h
  · intro h
    by_cases hexit : line.gives .exit = true
    · rw [if_pos hexit, eq_of_gives h hexit]
    · cases command with
      | exit => contradiction
      | reload => rw [if_neg hexit, if_pos h]

theorem ofLine?_eq_none (h : ∀ command, line.gives command = false) : ofLine? line = none := by
  cases hline : ofLine? line with
  | none => rfl
  | some command =>
    rw [ofLine?_eq_some_iff, h command] at hline
    contradiction

end ConsoleCommand

/-- The line feed at the end of a line is stripped. -/
theorem Text.trim_append_feed (line : Text) : (line ++ ['\n']).trim = line.trim := by
  have hfeed : isBlank '\n' = true := by decide
  cases hblank : line.isBlankText with
  | true =>
    have hblank' : isBlankText (line ++ ['\n']) = true := by
      simp only [isBlankText, List.all_append] at hblank ⊢
      simp [hblank, hfeed]
    rw [List.isEmpty_iff.1 ((isEmpty_trim line).trans hblank),
      List.isEmpty_iff.1 ((isEmpty_trim _).trans hblank')]
  | false =>
    obtain ⟨left, right, hline, hleft, hright, hfirst, hlast⟩ := stripsTo_trim hblank
    refine StripsTo.trim_eq ⟨left, right ++ ['\n'], ?_, hleft, ?_, hfirst, hlast⟩
    · conv_lhs => rw [hline]
      simp
    · intro c hc
      rcases List.mem_append.1 hc with hc | hc
      · exact hright c hc
      · rw [List.mem_singleton.1 hc]
        exact hfeed

theorem Text.gives_append_feed (command : ConsoleCommand) (line : Text) :
    (line ++ ['\n']).gives command = line.gives command := by
  rw [gives, trim_append_feed, gives]

namespace ConsoleReaction

variable {system : SystemChannel} {line : Text}

/-- The listener sees a line with its line feed, which does not matter. -/
theorem ofLine_append_feed (system : SystemChannel) (line : Text) :
    ofLine system (line ++ ['\n']) = ofLine system line := by
  simp only [ofLine, ConsoleCommand.ofLine?, Text.trim_append_feed]

theorem stops_ofLine : (ofLine system line).stops = line.gives .exit := by
  cases hexit : line.gives .exit with
  | true =>
    have hline := ConsoleCommand.ofLine?_eq_some_iff.2 hexit
    simp [ofLine, hline]
  | false =>
    have hline : ConsoleCommand.ofLine? line ≠ some .exit := by
      simp [ConsoleCommand.ofLine?_eq_some_iff, hexit]
    unfold ofLine
    split
    · rfl
    · rfl
    · contradiction

/-- What is asked for is what the command on the line asks for. -/
theorem requests_ofLine :
    (ofLine system line).requests =
      (ConsoleCommand.ofLine? line).toList.map ConsoleCommand.request := by
  unfold ofLine
  split <;> simp_all

end ConsoleReaction

/-- Everything that the listener asks for, in its order. -/
def requestsOf (reactions : List ConsoleReaction) : List String :=
  reactions.flatMap ConsoleReaction.requests

/-! ## The stream -/

/-- The next line of a stream, with its line feed if it has one, and what is left of the stream. -/
def readLine : Text → Text × Text
  | [] => ([], [])
  | c :: stream =>
    if c = '\n' then ([c], stream) else (c :: (readLine stream).1, (readLine stream).2)

/-- Nothing of the stream is lost. -/
theorem readLine_append (stream : Text) : (readLine stream).1 ++ (readLine stream).2 = stream := by
  induction stream with
  | nil => rfl
  | cons c stream ih =>
    rw [readLine]
    split
    · rfl
    · simp [ih]

/-- What is left is shorter, unless nothing was read. -/
theorem length_readLine_lt {stream : Text} (h : (readLine stream).1 ≠ []) :
    (readLine stream).2.length < stream.length := by
  have hlength := congrArg List.length (readLine_append stream)
  have hline := List.length_pos_iff.2 h
  rw [List.length_append] at hlength
  omega

/-- A listener that reads the lines of a stream one by one and reacts to each.  It stops where
nothing is read, and where its reaction says so. -/
def hear (system : SystemChannel) (stream : Text) : List ConsoleReaction :=
  if h : (readLine stream).1 = [] then []
  else
    have := length_readLine_lt h
    let reaction := ConsoleReaction.ofLine system (readLine stream).1
    if reaction.stops then [reaction] else reaction :: hear system (readLine stream).2
termination_by stream.length

/-- What is typed on the console: lines that end with a line feed, and the beginning of another
line, which may be empty. -/
def typed (lines : List Text) (last : Text) : Text := lines.flatMap (· ++ ['\n']) ++ last

/-- The lines of what is typed.  The last one counts unless it is empty. -/
def linesOf (lines : List Text) (last : Text) : List Text :=
  lines ++ if last = [] then [] else [last]

/-- The lines up to the first that says `exit`, which is one of them; all lines if none does. -/
def handledLines (lines : List Text) : List Text :=
  lines.take (lines.findIdx (Text.gives .exit) + 1)

section

variable {line last rest : Text} {lines : List Text}

/-! ### Lines -/

theorem readLine_feed (h : '\n' ∉ line) :
    readLine (line ++ '\n' :: rest) = (line ++ ['\n'], rest) := by
  induction line with
  | nil => simp [readLine]
  | cons c line ih =>
    rw [List.mem_cons, not_or] at h
    simp [readLine, Ne.symm h.1, ih h.2]

theorem readLine_end (h : '\n' ∉ line) : readLine line = (line, []) := by
  induction line with
  | nil => rfl
  | cons c line ih =>
    rw [List.mem_cons, not_or] at h
    simp [readLine, Ne.symm h.1, ih h.2]

theorem typed_cons (line : Text) (lines : List Text) (last : Text) :
    typed (line :: lines) last = line ++ '\n' :: typed lines last := by
  simp [typed]

theorem consoleLines_append (h : '\n' ∉ line) (start : Text) :
    consoleLines true start (line ++ rest) = consoleLines true (line.reverse ++ start) rest := by
  induction line generalizing start with
  | nil => rfl
  | cons c line ih =>
    rw [List.mem_cons, not_or] at h
    rw [List.cons_append, consoleLines, if_neg (Ne.symm h.1), ih h.2]
    simp

/-- What is typed is cut into its lines. -/
theorem consoleLines_typed (hlines : ∀ line ∈ lines, '\n' ∉ line) (hlast : '\n' ∉ last) :
    consoleLines true [] (typed lines last) = linesOf lines last := by
  induction lines with
  | nil =>
    have hend := @consoleLines_append last [] hlast []
    rw [List.append_nil, List.append_nil] at hend
    rw [typed, List.flatMap_nil, List.nil_append, hend]
    by_cases hnil : last = []
    · simp [consoleLines, linesOf, hnil]
    · simp [consoleLines, linesOf, hnil]
  | cons line lines ih =>
    obtain ⟨hline, hrest⟩ := List.forall_mem_cons.1 hlines
    rw [typed_cons, consoleLines_append hline, consoleLines, if_pos rfl, ih hrest]
    simp [linesOf]

/-! ### Handled lines -/

theorem handledLines_cons (line : Text) (lines : List Text) :
    handledLines (line :: lines) =
      if line.gives .exit then [line] else line :: handledLines lines := by
  unfold handledLines
  rw [List.findIdx_cons]
  cases line.gives .exit <;> simp

/-- There is one `exit` among the handled lines, if there is one at all. -/
theorem countP_exit_handledLines (lines : List Text) :
    (handledLines lines).countP (Text.gives .exit) =
      if lines.any (Text.gives .exit) then 1 else 0 := by
  induction lines with
  | nil => rfl
  | cons line lines ih =>
    rw [handledLines_cons]
    cases hexit : line.gives .exit with
    | true => simp [hexit]
    | false => simp [hexit, ih]

/-- The commands are those of the handled lines. -/
theorem consoleCommands_eq (lines : List Text) :
    consoleCommands lines = (handledLines lines).filterMap ConsoleCommand.ofLine? := by
  induction lines with
  | nil => rfl
  | cons line lines ih =>
    rw [handledLines_cons, consoleCommands]
    cases hline : ConsoleCommand.ofLine? line with
    | none =>
      have hexit : line.gives .exit = false := by
        rw [← Bool.not_eq_true, ← ConsoleCommand.ofLine?_eq_some_iff, hline]
        simp
      simp [hexit, hline, ih]
    | some command =>
      have hgives := ConsoleCommand.ofLine?_eq_some_iff.1 hline
      cases command with
      | exit => simp [hgives, hline]
      | reload =>
        have hexit : line.gives .exit = false := by
          rw [← Bool.not_eq_true, ← ConsoleCommand.ofLine?_eq_some_iff, hline]
          simp
        simp [hexit, hline, ih]

/-- A command is given as often as handled lines say it. -/
theorem count_filterMap_ofLine? (command : ConsoleCommand) (lines : List Text) :
    (lines.filterMap ConsoleCommand.ofLine?).count command = lines.countP (Text.gives command) := by
  rw [List.count, List.countP_filterMap]
  refine List.countP_congr fun line _ => ?_
  rw [← ConsoleCommand.ofLine?_eq_some_iff]
  cases ConsoleCommand.ofLine? line <;> simp

/-! ### The listener -/

variable (system : SystemChannel)

theorem hear_nil : hear system [] = [] := by
  rw [hear]
  rfl

/-- The listener reads a line, reacts, and goes on behind the line unless it says `exit`. -/
theorem hear_of_ne {stream : Text} (h : (readLine stream).1 ≠ []) :
    hear system stream =
      if (readLine stream).1.gives .exit then
        [ConsoleReaction.ofLine system (readLine stream).1]
      else
        ConsoleReaction.ofLine system (readLine stream).1 :: hear system (readLine stream).2 := by
  rw [hear, dif_neg h, ← @ConsoleReaction.stops_ofLine system]

theorem hear_feed (h : '\n' ∉ line) :
    hear system (line ++ '\n' :: rest) =
      if line.gives .exit then [ConsoleReaction.ofLine system line]
      else ConsoleReaction.ofLine system line :: hear system rest := by
  have hread : (readLine (line ++ '\n' :: rest)).1 ≠ [] := by simp [readLine_feed h]
  rw [hear_of_ne system hread, readLine_feed h, Text.gives_append_feed,
    ConsoleReaction.ofLine_append_feed]

/-- A line without a line feed is the last one. -/
theorem hear_end (h : '\n' ∉ line) (hne : line ≠ []) :
    hear system line = [ConsoleReaction.ofLine system line] := by
  have hread : (readLine line).1 ≠ [] := by rwa [readLine_end h]
  rw [hear_of_ne system hread, readLine_end h, hear_nil, ite_self]

/-- The listener reacts to the handled lines, in their order. -/
theorem hear_eq_map (hlines : ∀ line ∈ lines, '\n' ∉ line) (hlast : '\n' ∉ last) :
    hear system (typed lines last) =
      (handledLines (linesOf lines last)).map (ConsoleReaction.ofLine system) := by
  induction lines with
  | nil =>
    by_cases hnil : last = []
    · simp [hnil, typed, linesOf, handledLines, hear_nil]
    · simp [hnil, typed, linesOf, hear_end system hlast hnil, handledLines]
  | cons line lines ih =>
    obtain ⟨hline, hrest⟩ := List.forall_mem_cons.1 hlines
    have hlinesOf : linesOf (line :: lines) last = line :: linesOf lines last := rfl
    rw [typed_cons, hear_feed system hline, hlinesOf, handledLines_cons, ih hrest]
    split <;> rfl

/-- The requests of the listener are those of the commands on the lines. -/
theorem requestsOf_hear (hlines : ∀ line ∈ lines, '\n' ∉ line) (hlast : '\n' ∉ last) :
    requestsOf (hear system (typed lines last)) =
      (consoleCommands (consoleLines true [] (typed lines last))).map ConsoleCommand.request := by
  rw [hear_eq_map system hlines hlast, consoleLines_typed hlines hlast, consoleCommands_eq]
  induction handledLines (linesOf lines last) with
  | nil => rfl
  | cons line handled ih =>
    rw [requestsOf] at ih
    rw [requestsOf, List.map_cons, List.flatMap_cons, ih, ConsoleReaction.requests_ofLine]
    cases hline : ConsoleCommand.ofLine? line <;> simp [hline]

/-- A command is carried out as often as handled lines give it. -/
theorem count_requestsOf_hear (hlines : ∀ line ∈ lines, '\n' ∉ line) (hlast : '\n' ∉ last)
    (command : ConsoleCommand) :
    (requestsOf (hear system (typed lines last))).count command.request =
      (handledLines (linesOf lines last)).countP (Text.gives command) := by
  rw [requestsOf_hear system hlines hlast,
    List.count_map_of_injective _ _ ConsoleCommand.request_injective,
    consoleLines_typed hlines hlast, consoleCommands_eq, count_filterMap_ofLine?]

/-! ## Main result -/

/-- Of the lines that are typed, the listener handles those up to the first that says `exit`, in
their order, or all of them.  If a line says `exit`, it asks once for the bot to be closed, and
otherwise never; for each handled line that says `reload`, it asks once for the extensions to be
reloaded; on every other line, blank or not, it does nothing. -/
theorem hear_typed (hlines : ∀ line ∈ lines, '\n' ∉ line) (hlast : '\n' ∉ last) :
    hear system (typed lines last) =
        (handledLines (linesOf lines last)).map (ConsoleReaction.ofLine system) ∧
      requestsOf (hear system (typed lines last)) =
        (consoleCommands (consoleLines true [] (typed lines last))).map ConsoleCommand.request ∧
      (requestsOf (hear system (typed lines last))).count ConsoleCommand.exit.request =
        (if (linesOf lines last).any (Text.gives .exit) then 1 else 0) ∧
      (requestsOf (hear system (typed lines last))).count ConsoleCommand.reload.request =
        (handledLines (linesOf lines last)).countP (Text.gives .reload) ∧
      ∀ line : Text, (∀ command, line.gives command = false) →
        ConsoleReaction.ofLine system line = ⟨false, [], []⟩ := by
  refine ⟨hear_eq_map system hlines hlast, requestsOf_hear system hlines hlast, ?_,
    count_requestsOf_hear system hlines hlast .reload, ?_⟩
  · rw [count_requestsOf_hear system hlines hlast, countP_exit_handledLines]
  · intro line hline
    rw [ConsoleReaction.ofLine, ConsoleCommand.ofLine?_eq_none hline]

end

/-- A blank line does not end the listening, and nothing that is typed behind `exit` matters. -/
theorem hear_typed_blank :
    (∀ line ∈ [['\t', 'R', 'e', 'l', 'o', 'a', 'd', '\r'], [], ['E', 'X', 'I', 'T'],
      ['r', 'e', 'l', 'o', 'a', 'd']], '\n' ∉ line) ∧ '\n' ∉ ['e', 'x', 'i', 't'] ∧
      requestsOf (hear ⟨none, none, none⟩ (typed [['\t', 'R', 'e', 'l', 'o', 'a', 'd', '\r'], [],
        ['E', 'X', 'I', 'T'], ['r', 'e', 'l', 'o', 'a', 'd']] ['e', 'x', 'i', 't'])) =
        ["reload", "close"] := by
  have hlines : ∀ line ∈ [['\t', 'R', 'e', 'l', 'o', 'a', 'd', '\r'], [], ['E', 'X', 'I', 'T'],
      ['r', 'e', 'l', 'o', 'a', 'd']], '\n' ∉ line := by decide
  have hlast : '\n' ∉ ['e', 'x', 'i', 't'] := by decide
  exact ⟨hlines, hlast,
    (hear_typed ⟨none, none, none⟩ hlines hlast).2.1.trans (by decide +kernel)⟩

end Reckoner
