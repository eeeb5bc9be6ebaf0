/-
This file closes the circle of the rules, each of which keeps its promises, and says what the parse
of a whole program does: it ends in no fault, and its tokens and comments are those that a reading of
the text has come by.
-/

import EcmaSyntax.Grammar.Program
import EcmaSyntax.Proofs.Grammar.Primary
import EcmaSyntax.Proofs.Grammar.Statement

namespace EcmaSyntax

/-- The tokens of a file. -/
def File.tokens (file : File) : List Token := file.entries.filterMap Entry.token?

/-- A file holds what has been recorded when a parse has reached the end of the text. -/
def File.Records (setting : Lexer.Setting) (strictly : Bool) (file : File) : Prop :=
  ∃ last, Lexer.Reached setting strictly last ∧ last.kind = .eof ∧
    file.entries = last.recordToken.entries.reverse ∧
    file.comments = last.recordToken.comments.reverse

/-- An outcome of which something is known is a success. -/
theorem exists_ok_of_map {ε α β : Type} {outcome : Except ε α} {view : α → β} {seen : β}
    (known : outcome.toOption.map view = some seen) :
    ∃ result, outcome = .ok result ∧ view result = seen := by
  cases outcome with
  | error failure => cases known
  | ok result => exact ⟨result, rfl, Option.some.inj known⟩

namespace Grammar

open Lexer (Frame)

variable {setting : Setting} {state : State} {rules : Rules}

/-- Each rule is sound if those are that it refers to. -/
theorem rule_sound (sound : rules.Sound setting) (echoing : rules.Echoing)
    (expressing : rules.Expressing) : (rule rules).Sound setting := by
  refine ⟨fun goal frame => ?_, rule_loose Law.jumping_loose sound.lawful echoing expressing⟩
  cases goal with
  | statement declaration topLevel => exact .assume fun calm => statementRule_directs sound calm
  | assignment noIn inParens => exact .assume fun calm => assignmentRule_spelled sound calm
  | operators left mark level noIn =>
      refine .assume fun ⟨calm, spelled⟩ => ?_
      exact (operators_spelled sound calm).weaken fun _ _ passing => ⟨spelled, passing⟩
  | unary => exact .assume fun calm => unaryRule_spelled sound calm
  | atom => exact primaryRule_spelled sound
  | binding => exact .assume fun calm => bindingRule_leads sound calm
  | element mark => exact (elementRule_quiet sound).spelled
  | type => exact .assume fun calm => typeExpression_leads sound calm
  | prefixType => exact .assume fun calm => prefixTypeRule_leads sound calm
  | primaryType => exact .assume fun calm => primaryTypeRule_leads sound calm
  | declared mark => exact .assume fun calm => declared_leads sound calm

/-- Rules that may refer to each other only so often keep their promises: where they may not
refer to each other any more, they fail. -/
theorem rulesWithin_sound (count : Nat) : (rulesWithin count).Sound setting := by
  induction count with
  | zero => exact ⟨fun _ _ _ _ => meets_tooDeep, rulesWithin_jumping 0⟩
  | succ count inductionHypothesis =>
      exact rule_sound inductionHypothesis (rulesWithin_echoing count)
        (rulesWithin_expressing count)

/-- The end of the text has been passed. -/
def Ended (setting : Setting) (state : State) : Prop :=
  ∃ last, Lexer.Reached setting.toSetting setting.options.startsStrict last ∧ last.kind = .eof ∧
    state.lexer.kind = .eof ∧ state.lexer.entries = last.recordToken.entries ∧
    state.lexer.comments = last.recordToken.comments ∧ state.attachments.Filled ∧
    state.lexer.Tracked setting.toSetting ∧ Ascending state.lexer.tokens

/-- The first token stands at the top of the program. -/
theorem nextToken_held {middle : Lexer.State}
    (skips : Lexer.Skips setting.source (.initial setting.options.startsStrict) middle)
    (passed : Lexer.skipShebang setting.toSetting (.initial setting.options.startsStrict) =
      .ok () middle) :
    Meets (lex Lexer.nextToken) setting
      { State.initial setting.options.startsStrict with lexer := middle }
      fun _ state => Held setting (setting.over .top) state := by
  have ready := (Lexer.ready_initial setting.options.startsStrict).skips skips
  rw [meets_lex]
  refine (Lexer.nextToken_meets ready).and_ok.mono ?_
  rintro _ lexer ⟨⟨fetches, -⟩, read⟩
  refine ⟨.start (Lexer.begins passed read), .inr (.inr ?_), Attachments.filled_empty⟩
  have kind : middle.kind = .eof := skips.kind
  have contexts : middle.contexts = [.braceStatement] := skips.contexts
  refine fetches.nests ?_ ?_ ?_ ?_
  · rw [contexts]
    exact Frame.covers_top
  · rw [kind]
    decide
  · rw [kind]
    decide
  · rw [kind]
    exact fun slash => absurd slash (by decide)

/-- Once the end of the text has been reached, passing it changes nothing that matters. -/
theorem next_ended :
    ∀ state, Held setting (Here .eof (setting.over .top)) state →
      Meets next setting state fun _ state => Ended setting state := by
  intro state held
  have sound := held.sound
  rw [next, meets_lex]
  refine (Lexer.next_meets sound).and_ok.mono ?_
  rintro _ lexer ⟨⟨advances, -⟩, passed⟩
  obtain ⟨kind, entries, comments⟩ := advances.atEnd sound held.here.1
  have tracked := held.reached.tracked
  have ascending := Lexer.next_ascending tracked held.reached.ascending passed
  exact ⟨state.lexer, held.reached, held.here.1, kind, entries, comments, held.filled,
    (Lexer.next_tokens tracked passed).2, ascending⟩

theorem Ended.filled (ended : Ended setting state) : state.attachments.Filled := by
  obtain ⟨last, reached, ending, kind, entries, comments, filled, -⟩ := ended
  exact filled

/-- At the end of the text nothing is read again where strict code ends. -/
theorem Ended.loosened (ended : Ended setting state) :
    Meets (lex (Lexer.setStrict false)) setting state fun _ state => Ended setting state := by
  obtain ⟨last, reached, ending, kind, entries, comments, filled, tracked, ascending⟩ := ended
  rw [meets_lex]
  simp only [Lexer.setStrict, Meets.bind_iff, meets_modify, meets_get]
  rw [if_neg (by simp [kind])]
  exact ⟨last, reached, ending, kind, entries, comments, filled,
    tracked.noted .., ascending⟩

/-- The text stays at its end when comments are moved. -/
theorem Ended.moved {after : State} (ended : Ended setting state) (moved : state.Moved after) :
    Ended setting after := by
  obtain ⟨last, reached, ending, kind, entries, comments, -, tracked, ascending⟩ := ended
  obtain ⟨leading, trailing, same⟩ := moved.lexer
  rw [Ended, same]
  exact ⟨last, reached, ending, kind, entries, comments, moved.filled, tracked.noted .., ascending⟩

/-- The parse of a text ends in no fault, and if it succeeds, it has read the text to its end. -/
theorem parse_meets :
    Meets (do lex Lexer.skipShebang; program : Parse File) setting
      (.initial setting.options.startsStrict)
      fun file _ => file.Records setting.toSetting setting.options.startsStrict := by
  rw [Meets.bind_iff, meets_lex]
  refine (Lexer.skipShebang_meets (.initial _)).and_ok.mono ?_
  rintro _ middle ⟨skips, passed⟩
  simp only [program, programNode, closeFile, Meets.bind_iff, meets_mark, meets_read]
  refine (nextToken_held skips passed).mono ?_
  intro _ state held
  refine (blockParts_meets (rulesWithin_sound _) Frame.calm_top next_ended
    (fun _ _ => Ended.loosened) held).mono ?_
  rintro ⟨directives, body⟩ state ended
  refine (finish_moved ended.filled).mono ?_
  intro node state moved
  obtain ⟨last, reached, ending, -, entries, comments, filled, -⟩ := ended.moved moved
  rw [meets_lex]
  simp only [Lexer.takeRecord, freshId, Meets.bind_iff, meets_get, meets_set, meets_modify,
    meets_pure]
  refine (attach_meets ?_).mono ?_
  · exact filled
  intro _ _ _
  exact ⟨last, reached, ending, congrArg List.reverse entries, congrArg List.reverse comments⟩

/-- An outcome is a file that holds its record, or an answer about the text. -/
inductive Answers (setting : Lexer.Setting) (strictly : Bool) : Except Failure File → Prop
  | file {file : File} (records : file.Records setting strictly) :
    Answers setting strictly (.ok file)
  | failure {failure : Failure} (answer : failure.isFault = false) :
    Answers setting strictly (.error failure)

/-- A text of any characters is answered. -/
theorem parseText_meets (text : List Char) (options : Options) :
    Answers (Setting.ofText text options).toSetting options.startsStrict
      (parseText text options) := by
  have met : Meets (do lex Lexer.skipShebang; program : Parse File)
      (Setting.ofText text options) (State.initial options.startsStrict) _ := parse_meets
  unfold Meets at met
  unfold parseText
  split at met
  · next file after same =>
      rw [same]
      exact .file met
  · next failure after same =>
      rw [same]
      exact .failure met

variable {overflow : Overflow} {result : EStateM.Result Failure State File} {file : File}
  {failure : Failure}

/-- A counter that has run over goes on. -/
@[simp] theorem Identities.judge_wraps (identities : Identities) (answer : Except Failure File) :
    identities.judge .wraps answer = answer := rfl

/-- There is a file unless the counter of the identities has run over and this is a fault. -/
theorem Identities.judge_eq_ok {identities : Identities} {answer : Except Failure File} :
    identities.judge overflow answer = .ok file ↔
      answer = .ok file ∧ (overflow = .faults → identities.spent = false) := by
  cases overflow with
  | wraps => simp
  | faults => cases spent : identities.spent <;> simp [judge, spent]

/-- A parse has a file as its answer if it has ended with it, and with identities left where this
matters. -/
theorem conclude_eq_ok : conclude overflow result = .ok file ↔
    ∃ last, result = .ok file last ∧ (overflow = .faults → last.identities.spent = false) := by
  cases result <;> simp [conclude, Identities.judge_eq_ok]

/-- A parse whose counter may run over fails just as it has ended. -/
theorem conclude_eq_error : conclude .wraps result = .error failure ↔
    ∃ last, result = .error failure last := by
  cases result <;> simp [conclude]

end Grammar

/-- A text is parsed into a file if its program is read to the end. -/
theorem parse_eq_ok {text : String} {options : Options} {overflow : Grammar.Overflow} {file : File} :
    parse text options overflow = .ok file ↔ ∃ last,
      (do Grammar.lex Lexer.skipShebang; Grammar.program : Grammar.Parse File)
          (.ofText (LineEnding.normalize text).toList options) (.initial options.startsStrict) =
        .ok file last ∧ (overflow = .faults → last.identities.spent = false) :=
  Grammar.conclude_eq_ok

/-- A text is refused where its program is. -/
theorem parse_eq_error {text : String} {options : Options} {failure : Failure} :
    parse text options = .error failure ↔ ∃ last,
      (do Grammar.lex Lexer.skipShebang; Grammar.program : Grammar.Parse File)
          (.ofText (LineEnding.normalize text).toList options) (.initial options.startsStrict) =
        .error failure last :=
  Grammar.conclude_eq_error

/-- The setting in which a text is parsed. -/
def Options.setting (options : Options) (text : String) : Lexer.Setting :=
  (Grammar.Setting.ofText (LineEnding.normalize text).toList options).toSetting

/-- A file that is parsed holds the record of a reading of the whole text. -/
theorem parse_records {text : String} {options : Options} {file : File}
    (parsed : parse text options = .ok file) :
    file.Records (options.setting text) options.startsStrict := by
  have answers := Grammar.parseText_meets (LineEnding.normalize text).toList options
  rw [parse] at parsed
  rw [parsed] at answers
  cases answers with
  | file records => exact records

end EcmaSyntax
