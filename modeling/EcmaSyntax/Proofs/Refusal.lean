import EcmaSyntax.Proofs.Place.Program
import EcmaSyntax.Proofs.Yield.Forms

namespace EcmaSyntax

section Message

/-- Without a blank there is no blank before a parenthesis. -/
theorem beforeLastParenthesis_eq_none {text : List Char} (absent : ' ' ∉ text) :
    beforeLastParenthesis text = none := by
  induction text with
  | nil => rfl
  | cons character rest inductionHypothesis =>
      rw [List.mem_cons, not_or] at absent
      rw [beforeLastParenthesis, inductionHypothesis absent.2]
      exact if_neg (by simp [Ne.symm absent.1])

/-- What stands before the last parenthesis of a text does so if more stands before the text. -/
theorem beforeLastParenthesis_append {text before : List Char}
    (found : beforeLastParenthesis text = some before) (front : List Char) :
    beforeLastParenthesis (front ++ text) = some (front ++ before) := by
  induction front with
  | nil => exact found
  | cons character rest inductionHypothesis =>
      rw [List.cons_append, beforeLastParenthesis, inductionHypothesis]
      rfl

/-- A position is written without blanks. -/
theorem Position.blank_notMem_text (position : Position) : ' ' ∉ position.text.toList := by
  have digits (number : Nat) : ' ' ∉ (toString number).toList := by
    rw [Nat.toString_eq_repr, Nat.toList_repr]
    exact fun inside => absurd (Nat.isDigit_of_mem_toDigits (by decide) (by decide) inside) (by decide)
  simp only [Position.text, String.toList_append, List.mem_append, not_or]
  exact ⟨⟨digits _, by decide⟩, digits _⟩

/-- The message of an error without its place is that of its problem, whatever this one holds. -/
theorem SyntaxError.bareMessage_eq (error : SyntaxError) :
    error.bareMessage = error.problem.message := by
  have last : beforeLastParenthesis (" (" ++ error.loc.text ++ ")").toList = some [] := by
    have none : beforeLastParenthesis ('(' :: (error.loc.text ++ ")").toList) = none := by
      refine beforeLastParenthesis_eq_none ?_
      simp [String.toList_append, Position.blank_notMem_text]
    have same : (" (" ++ error.loc.text ++ ")").toList =
        ' ' :: '(' :: (error.loc.text ++ ")").toList := by
      simp [String.toList_append]
    rw [same, beforeLastParenthesis, none]
    rfl
  have whole := beforeLastParenthesis_append last error.problem.message.toList
  rw [← String.toList_append, ← String.append_assoc, ← String.append_assoc, List.append_nil] at whole
  rw [bareMessage, message, whole]
  exact String.ofList_toList

end Message

/-- A text that is refused for a syntax error is so for a problem at an offset of the text, between
two of its characters or at its end. The place of the error is the one that the line map of the text
has for this offset, and its message is that of the problem with this place after it. -/
theorem parse_refuses {text : String} {options : Options} {error : SyntaxError}
    (refused : parse text options = .error (.syntaxError error)) :
    (options.setting text).source.text = (LineEnding.normalize text).toList ∧
      error.pos ≤ (options.setting text).source.size ∧
      (options.setting text).source.isBoundary error.pos = true ∧
      error.loc = (LineMap.ofText (LineEnding.normalize text).toList).positionOf error.pos ∧
      error.message = error.bareMessage ++ " (" ++ error.loc.text ++ ")" ∧
      error.bareMessage = error.problem.message := by
  obtain ⟨seam, located⟩ := parse_fails refused
  refine ⟨rfl, seam.le_size, seam.isBoundary, located.trans seam.locate_eq, ?_, error.bareMessage_eq⟩
  rw [error.bareMessage_eq]
  rfl

/-- A value that only a pattern may have is a problem at its sign, once its object has been read. -/
theorem parse_refuses_pending_value :
    ∃ error : SyntaxError, parse "f(a);\r\n\"é\"; ({b = 1 });" {} = .error (.syntaxError error) ∧
      error.pos = 16 ∧ error.loc = ⟨2, 10⟩ ∧ error.bareMessage = "Unexpected token" ∧
      error.loc = (LineMap.ofText
        (LineEnding.normalize "f(a);\r\n\"é\"; ({b = 1 });").toList).positionOf 16 := by
  have told : (match parse "f(a);\r\n\"é\"; ({b = 1 });" {} with
      | .ok _ => none
      | .error failure => some failure) = some (.syntaxError ⟨.unexpectedToken, 16, ⟨2, 10⟩⟩) := by
    decide +kernel
  split at told
  · cases told
  · next failure same =>
      cases told
      obtain ⟨-, -, -, located, -, bare⟩ := parse_refuses same
      exact ⟨_, same, rfl, rfl, bare, located⟩

namespace Grammar

variable {α : Type} {action : Parse α}

/-- A trial of an action that succeeds has its result. One that ends in a syntax error has none,
and the state is what it was but for the identities that are used up. Every other failure stays
what it is. -/
def RollsBack (action : Parse α) : Prop :=
  ∀ (setting : Setting) (state : State), attempt action setting state =
    match action setting state with
    | .ok value after => .ok (some value) after
    | .error (.syntaxError _) after => .ok none { state with identities := after.identities }
    | .error failure after => .error failure after

/-- Every step of a parse can be rolled back. -/
theorem Steps.rollsBack (steps : Steps action) : RollsBack action := by
  intro setting state
  unfold Grammar.attempt
  cases ends : action setting state with
  | ok value after => rfl
  | error failure after =>
      cases failure with
      | syntaxError error => exact congrArg (EStateM.Result.ok none) (steps.rolledBack ends)
      | nestingTooDeep pos loc => rfl
      | fault reason => rfl

/-- From any state, a trial of any rule of the grammar can be taken back, and so can the trial of
an arrow function whose parameters have been read as one expression. -/
theorem attempt_rollsBack (count : Nat) :
    (∀ goal, RollsBack (rulesWithin count goal)) ∧
      ∀ node start, RollsBack (annotatedArrow (rulesWithin count) node start) := by
  have lawful := rulesWithin_jumping count
  exact ⟨fun goal => (lawful.steps goal).rollsBack,
    fun node start => (annotatedArrow_steps lawful).rollsBack⟩

/-- The mode of a parse is in one state what it was in another: the rules that hold for the code,
the functions around it, how deep its constructs are nested and the names of the labels around
it. -/
structure State.KeepsMode (first last : State) : Prop where
  strict : last.lexer.strict = first.lexer.strict
  inFunction : last.inFunction = first.inFunction
  inGenerator : last.inGenerator = first.inGenerator
  inAsync : last.inAsync = first.inAsync
  inMethod : last.inMethod = first.inMethod
  inType : last.lexer.inType = first.lexer.inType
  depth : last.depth = first.depth
  labels : last.labels.map Label.name = first.labels.map Label.name

/-- The mode is part of what is known of the code around. -/
theorem State.KeepsMode.ofFlags {first last : State} (same : last.flags = first.flags) :
    first.KeepsMode last := by
  obtain ⟨strict, inType, inMethod, inFunction, inGenerator, inAsync, depth, labels⟩ :=
    State.flags_eq_iff.mp same
  exact ⟨strict, inFunction, inGenerator, inAsync, inMethod, inType, depth, labels⟩

/-- Each step of a parse keeps the mode. -/
theorem Steps.keepsMode {α : Type} {action : Parse α} (steps : Steps action) (setting : Setting)
    (state : State) : Gives action setting state fun _ after => state.KeepsMode after :=
  (steps.flags setting state).mono fun _ _ same => .ofFlags same

/-- From any state and with any options, a statement, an expression or a type that is read leaves
the mode as it was, and so does every other rule that they refer to. -/
theorem rules_keep_mode (count : Nat) (setting : Setting) (state : State) :
    (∀ declaration topLevel, Gives ((rulesWithin count).statement declaration topLevel) setting state
      fun _ after => state.KeepsMode after) ∧
    (∀ noIn, Gives ((rulesWithin count).assignment noIn) setting state
      fun _ after => state.KeepsMode after) ∧
    Gives (rulesWithin count).type setting state (fun _ after => state.KeepsMode after) ∧
    ∀ goal, Gives (rulesWithin count goal) setting state fun _ after => state.KeepsMode after := by
  have lawful := rulesWithin_jumping count
  have each (goal : Goal) := (lawful.steps goal).keepsMode setting state
  have settled (noIn : Bool) : Steps ((rulesWithin count).assignment noIn) :=
    (lawful.steps (.assignment noIn false)).bind fun cover => by
      unfold Cover.settle
      split <;> exact .plain
  exact ⟨fun _ _ => each _, fun noIn => (settled noIn).keepsMode setting state, each _, each⟩

/-- A labeled loop within an asynchronous function is read, and in it a generator with strict
code. -/
theorem rules_keep_mode_generator :
    let setting : Setting := .ofText "a:while(b)\x7bfunction*c()\x7b'use strict'\x7dbreak a\x7d".toList {}
    let state : State := {
      lexer := lastState (Lexer.nextToken setting.toSetting (.initial false))
      inFunction := true
      inAsync := true
      labels := [⟨some "d", none, none⟩]
      depth := 7 }
    ∃ node after, (rulesWithin 20).statement true true setting state = .ok node after ∧
      state.KeepsMode after := by
  intro setting state
  have read : (okState? ((rulesWithin 20).statement true true setting state)).isSome = true := by
    decide +kernel
  obtain ⟨last, known⟩ := Option.isSome_iff_exists.mp read
  obtain ⟨node, ends⟩ := exists_ok_of_okState? known
  exact ⟨node, last, ends, (rules_keep_mode 20 setting state).1 true true node last ends⟩

end Grammar

end EcmaSyntax
