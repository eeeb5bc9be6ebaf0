import EcmaSyntax.Proofs.Grammar.Program
import EcmaSyntax.Proofs.Lexer.Again
import EcmaSyntax.Proofs.Lexer.Trace
import Mathlib.Logic.Relation

namespace EcmaSyntax

namespace Lexer

open Relation (ReflTransGen)

variable {setting : Setting} {strictly : Bool} {first state after last : State}

/-- A token is passed that is not the end of the text. -/
def Passed (setting : Setting) (first last : State) : Prop :=
  first.kind ≠ .eof ∧ next setting first = .ok () last

/-- A reading of tokens alone comes to a state. -/
def Scanned (setting : Setting) (strictly : Bool) (state : State) : Prop :=
  ∃ first, (do skipShebang; nextToken : Scan Unit) setting (.initial strictly) = .ok () first ∧
    ReflTransGen (Passed setting) first state

/-- Passing tokens leads from a state that is reached to one that is reached. -/
theorem Reached.passed (reached : Reached setting strictly first)
    (passed : ReflTransGen (Passed setting) first last) : Reached setting strictly last := by
  induction passed with
  | refl => exact reached
  | tail _ step inductionHypothesis => exact .next inductionHypothesis step.1 step.2

/-- A state that a scan reads is reached. -/
theorem Scanned.reached (scanned : Scanned setting strictly state) :
    Reached setting strictly state := by
  obtain ⟨first, begins, passed⟩ := scanned
  exact (Reached.start begins).passed passed

/-- A scan reads on until the text ends. -/
theorem Scanned.next (scanned : Scanned setting strictly state) (goesOn : state.kind ≠ .eof)
    (step : next setting state = .ok () after) : Scanned setting strictly after := by
  obtain ⟨first, begins, passed⟩ := scanned
  exact ⟨first, begins, passed.tail ⟨goesOn, step⟩⟩

/-- A reading of tokens alone leaves the code strict or not, as it began. -/
theorem Scanned.strict (scanned : Scanned setting strictly state) : state.strict = strictly := by
  obtain ⟨first, begins, passed⟩ := scanned
  induction passed with
  | refl =>
      obtain ⟨⟨middle, skips, fetches⟩, -⟩ := (begin_meets setting strictly).of_ok begins
      exact fetches.strict.trans skips.strict
  | tail before step inductionHypothesis =>
      have reached := (Reached.start begins).passed before
      obtain ⟨advances, -⟩ := (next_meets reached.sound).of_ok step.2
      exact advances.strict.trans inductionHypothesis

/-- A reading of tokens alone is never in a type. -/
theorem Scanned.inType (scanned : Scanned setting strictly state) : state.inType = false := by
  have closed : ∀ first last, State.Grows first last → first.inType = false →
      last.inType = false := fun _ _ grows same => grows.inType.trans same
  obtain ⟨first, begins, passed⟩ := scanned
  induction passed with
  | refl =>
      have maintained := (skipShebang_heedless.bind fun _ => nextToken_heedless).maintains closed
        setting (.initial strictly) rfl
      rwa [begins] at maintained
  | tail _ step inductionHypothesis =>
      have maintained := next_maintains closed
        (fun state same => state.passed_inType.trans same) setting _ inductionHypothesis
      rwa [step.2] at maintained

/-- A state that a parse reaches is alike to a scanned one if the two differ in nothing else. -/
theorem Reached.alike (reached : Reached setting strictly state)
    (scanned : Scanned setting strictly last) (same : state.bare = last.bare) :
    Alike state last :=
  ⟨fun strict => reached.strict (scanned.strict.symm.trans strict), same⟩

/-- The first token is the same when it is read again. -/
theorem begin_again (noMarkup : setting.jsx = false)
    (begins : (do skipShebang; nextToken : Scan Unit) setting (.initial strictly) =
      .ok () state) : Again setting state := by
  have met : Meets (do skipShebang; nextToken : Scan Unit) setting (.initial strictly)
      fun _ state => Again setting state :=
    (skipShebang_meets (.initial _)).bind fun _ _ skips =>
      nextToken_again noMarkup ((ready_initial strictly).skips skips)
  exact met.of_ok begins

/-- Where types may be written, no token that has been read is the mark of one. -/
def Unmarked (setting : Setting) (tokens : List Token) : Prop :=
  setting.flow = true → ∀ token ∈ tokens, token.isTypeMark = false

theorem Unmarked.subset {tokens others : List Token} (unmarked : Unmarked setting tokens)
    (subset : others ⊆ tokens) : Unmarked setting others :=
  fun flow token member => unmarked flow token (subset member)

/-- A token that is not the mark of a type is read alike where no type is. -/
theorem next_scanned (noMarkup : setting.jsx = false) (scanned : Scanned setting strictly last)
    (alike : Alike state last) (goesOn : state.kind ≠ .eof)
    (step : next setting state = .ok () after) (unmarked : Unmarked setting [after.token]) :
    ∃ read, Scanned setting strictly read ∧ Alike after read := by
  have outside : last.inType = true → state.inType = true := fun inType =>
    absurd (scanned.inType.symm.trans inType) (by decide)
  have kept : ¬TypeMarked setting after := by
    rintro ⟨flow, marked⟩
    have other := unmarked flow after.token (List.mem_singleton_self _)
    exact absurd (marked.symm.trans other) (by decide)
  have follows := next_alike noMarkup state last ⟨alike, outside⟩ () after step kept
  have met := next_meets scanned.reached.sound
  obtain ⟨_, read, passed, -, typed⟩ := follows.of_ok step (met.mono fun _ _ _ => trivial)
  exact ⟨read, scanned.next (alike.kind ▸ goesOn) passed, typed.related⟩

/-- What is read before strict code begins or ends is unmarked if what is read then is so. -/
theorem unmarked_restrict {strict : Bool} (reached : Reached setting strictly state)
    (step : setStrict strict setting state = .ok () after)
    (unmarked : Unmarked setting after.tokens) : Unmarked setting state.tokens := by
  have recorded : after.recorded = state.recorded :=
    congrArg List.reverse (setStrict_retains step).tokens
  intro flow token member
  rcases List.mem_append.mp member with member | member
  · rw [← State.recorded, ← recorded] at member
    exact unmarked flow token (List.mem_append_left _ member)
  · obtain rfl := List.mem_singleton.mp member
    rcases (setStrict_gives reached.sound _ _ step).1 with ⟨-, rfl⟩ | ⟨literal, -⟩
    · exact unmarked flow _ (List.mem_append_right _ (List.mem_singleton_self _))
    · rcases literal with same | same <;> simp [Token.isTypeMark, State.token, same]

/-- Whatever a parse reaches, a reading of tokens alone comes to a state alike, unless the mark
of a type has been read: no other step of a parse has changed how a token is read. -/
theorem Reached.scanned (noMarkup : setting.jsx = false)
    (reached : Reached setting strictly state) (unmarked : Unmarked setting state.tokens) :
    Again setting state ∧ ∃ read, Scanned setting strictly read ∧ Alike state read := by
  induction reached with
  | @start state begins =>
      exact ⟨begin_again noMarkup begins, state, ⟨state, begins, .refl⟩, .refl _⟩
  | @next state after reached goesOn step inductionHypothesis =>
      have tokens := (next_tokens reached.tracked step).1
      rw [tokens] at unmarked
      obtain ⟨-, read, scanned, alike⟩ :=
        inductionHypothesis (unmarked.subset (List.subset_append_left _ _))
      refine ⟨(nextToken_again noMarkup reached.sound.ready).of_ok step, ?_⟩
      exact next_scanned noMarkup scanned alike goesOn step
        (unmarked.subset (List.subset_append_right _ _))
  | @restrict state after strict reached allowed calm step inductionHypothesis =>
      obtain ⟨again, read, scanned, alike⟩ :=
        inductionHypothesis (unmarked_restrict reached step unmarked)
      have same := setStrict_again noMarkup reached.sound again _ _ step
      exact ⟨again.congr same, read, scanned,
        (Reached.restrict reached allowed calm step).alike scanned (same.trans alike.bare)⟩
  | @mark state after reached marked inductionHypothesis =>
      have same : after.bare = state.bare ∧ after.tokens = state.tokens := by
        obtain ⟨strict, inType, leading, trailing, rfl⟩ := marked.same
        exact ⟨rfl, rfl⟩
      obtain ⟨again, read, scanned, alike⟩ := inductionHypothesis (same.2 ▸ unmarked)
      exact ⟨again.congr same.1, read, scanned,
        (Reached.mark reached marked).alike scanned (same.1.trans alike.bare)⟩

/-- How much may be read after a token: two tokens for each byte, one of them an empty chunk of a
template, and such a chunk at the end. -/
def State.ahead (setting : Setting) (state : State) : Nat :=
  2 * (setting.source.size - state.pos) + if state.kind = .template then 0 else 1

/-- With each token that is not the end of the text there is less to read. -/
theorem ahead_lt (sound : first.Sound setting) (step : next setting first = .ok () last)
    (goesOn : last.kind ≠ .eof) : last.ahead setting < first.ahead setting := by
  obtain ⟨advances, after⟩ := (next_meets sound).of_ok step
  have bound := Source.le_size_of_isBoundary after.cursor.boundary
  change last.pos ≤ _ at bound
  cases advances with
  | ending _ _ ends => exact absurd ends.kind_eq goesOn
  | @token middle skips inside reads =>
      obtain ⟨text, hidden, ends, fits⟩ := reads
      have kind : middle.kind = first.kind := skips.kind.trans (State.record_kind first)
      have pos : last.pos = middle.pos + byteLength text := by
        obtain ⟨ended, value, block, allowed, moved, same⟩ := ends
        rw [same]
        exact moved.pos_eq
      have le : first.pos ≤ middle.pos := (State.record_pos first) ▸ skips.le
      unfold State.ahead
      rcases text with _ | ⟨character, rest⟩
      · obtain ⟨chunk, other⟩ := fits.filled rfl
        change middle.kind ≠ _ at other
        rw [if_pos chunk, if_neg (kind ▸ other)]
        omega
      · have positive := character.utf8Size_pos
        rw [byteLength_cons] at pos
        split <;> omega

/-- A scan that is allowed enough tokens reads to the end of the text, and adds its tokens to
those that have been recorded before. -/
structure Completes (reading : Reading) (first last : State) : Prop where
  failure : reading.failure = none
  ends : reading.last = last
  tokens : last.tokens = (first.entries.filterMap Entry.token?).reverse ++ reading.tokens

/-- A scan comes to the end of the text if tokens can be passed up to it. -/
theorem scanFrom_completes (passed : ReflTransGen (Passed setting) first last)
    (ending : last.kind = .eof) (count : Nat) (reached : Reached setting strictly first)
    (tracked : first.Tracked setting) (enough : first.kind ≠ .eof → first.ahead setting < count) :
    Completes (scanFrom setting count first) first last := by
  induction passed using ReflTransGen.head_induction_on generalizing count with
  | refl =>
      have stops : scanFrom setting count last = { states := [last], last := last } := by
        cases count with
        | zero => rfl
        | succ count => rw [scanFrom, if_pos (by simp [ending])]
      rw [stops]
      exact ⟨rfl, rfl, rfl⟩
  | @head first middle step rest inductionHypothesis =>
      obtain ⟨goesOn, passes⟩ := step
      have more := enough goesOn
      cases count with
      | zero => omega
      | succ count =>
          obtain ⟨tokens, tracked'⟩ := next_tokens tracked passes
          have completes := inductionHypothesis count (.next reached goesOn passes) tracked'
            fun further => by
              have less := ahead_lt reached.sound passes further
              omega
          have reads : scanFrom setting (count + 1) first =
              { scanFrom setting count middle with
                states := first :: (scanFrom setting count middle).states } := by
            rw [scanFrom, if_neg (by simpa using goesOn), passes]
          have recorded : (middle.entries.filterMap Entry.token?).reverse = first.tokens :=
            List.append_inj_left' tokens rfl
          rw [reads]
          refine ⟨completes.failure, completes.ends, completes.tokens.trans ?_⟩
          rw [recorded, State.tokens, List.append_assoc]
          rfl

/-- If a reading of tokens alone comes to the end of the text, a scan does. -/
theorem Scanned.completes (strictMode : Bool)
    (scanned : Scanned setting (strictMode && setting.isModule) last) (ending : last.kind = .eof) :
    (scan setting strictMode).failure = none ∧ (scan setting strictMode).last = last ∧
      (scan setting strictMode).tokens = last.tokens := by
  obtain ⟨first, begins, passed⟩ := scanned
  obtain ⟨alone, tracked⟩ := begin_tokens _ _ _ begins
  have recorded : (first.entries.filterMap Entry.token?).reverse = [] :=
    List.append_left_eq_self.mp alone
  have completes := scanFrom_completes passed ending (2 * setting.source.size + 2) (.start begins)
    tracked fun _ => by
      unfold State.ahead
      split <;> omega
  have reads : scan setting strictMode =
      scanFrom setting (2 * setting.source.size + 2) first := by
    rw [scan, begins]
  rw [reads]
  exact ⟨completes.failure, completes.ends, by rw [completes.tokens, recorded, List.nil_append]⟩

end Lexer

/-- The tokens without their lines are the tokens among the entries without their lines. -/
theorem map_bare_filterMap (entries : List Entry) :
    (entries.filterMap Entry.token?).map Token.bare =
      (entries.map Entry.bare).filterMap Entry.token? := by
  rw [List.map_filterMap, List.filterMap_map]
  congr 1
  funext entry
  cases entry <;> rfl

/-- Without dialects there are neither types nor markup. -/
theorem Options.setting_noDialect {options : Options} (text : String)
    (plain : options.dialects = []) : (options.setting text).NoDialect := by
  constructor <;> simp [Options.setting, Grammar.Setting.ofText, Options.hasDialect, plain]

/-- A reading comes by the tokens and comments of a file in the same order, with their kinds,
values and offsets. -/
structure File.ReadBy (file : File) (reading : Lexer.Reading) : Prop where
  failure : reading.failure = none
  entries : reading.entries.map Entry.bare = file.entries.map Entry.bare
  tokens : reading.tokens.map Token.bare = file.tokens.map Token.bare
  comments : reading.comments.map Comment.bare = file.comments.map Comment.bare

/-- What a parse has recorded is what a scan reads, if none of the tokens is the mark of a type. -/
theorem File.Records.readBy {setting : Lexer.Setting} {strictMode : Bool} {file : File}
    (records : file.Records setting (strictMode && setting.isModule))
    (noMarkup : setting.jsx = false) (unmarked : Lexer.Unmarked setting file.tokens) :
    file.ReadBy (Lexer.scan setting strictMode) := by
  obtain ⟨last, reached, ending, entries, comments⟩ := records
  have tokens : file.tokens = last.tokens := by
    rw [File.tokens, entries, Lexer.State.recordToken, if_pos reached.recording]
    simp [Lexer.State.tokens, Entry.token?]
  obtain ⟨-, read, scanned, alike⟩ := reached.scanned noMarkup (tokens ▸ unmarked)
  obtain ⟨failure, ends, read'⟩ := Lexer.Scanned.completes strictMode scanned
    (alike.kind ▸ ending)
  have same : (Lexer.scan setting strictMode).entries.map Entry.bare =
      file.entries.map Entry.bare := by
    rw [Lexer.Reading.entries, ends, entries, List.map_reverse, List.map_reverse]
    exact congrArg List.reverse (congrArg Lexer.State.entries alike.passed.bare.symm :)
  have recorded : (Lexer.scan setting strictMode).tokens =
      (Lexer.scan setting strictMode).entries.filterMap Entry.token? := by
    rw [read', Lexer.Reading.entries, ends, Lexer.State.recordToken,
      if_pos scanned.reached.recording]
    simp [Lexer.State.tokens, Entry.token?]
  refine ⟨failure, same, ?_, ?_⟩
  · rw [recorded, File.tokens, map_bare_filterMap, map_bare_filterMap, same]
  · have kept : last.recordToken.comments = last.comments := by
      rw [Lexer.State.recordToken, if_pos reached.recording]
    rw [Lexer.Reading.comments, ends, comments, kept, List.map_reverse, List.map_reverse]
    exact congrArg List.reverse (congrArg Lexer.State.comments alike.bare.symm :)

/-- Without dialects, a scan of the text reads what a parse that succeeds has read: the same
tokens and comments in the same order, with their kinds, values and offsets. Nothing that a
parse does on its way has an influence on how the text falls into tokens. -/
theorem parse_scans {text : String} {options : Options} {file : File}
    (plain : options.dialects = []) (parsed : parse text options = .ok file) :
    (Lexer.scan (options.setting text) options.strictMode).failure = none ∧
      (Lexer.scan (options.setting text) options.strictMode).entries.map Entry.bare =
        file.entries.map Entry.bare ∧
      (Lexer.scan (options.setting text) options.strictMode).tokens.map Token.bare =
        file.tokens.map Token.bare ∧
      (Lexer.scan (options.setting text) options.strictMode).comments.map Comment.bare =
        file.comments.map Comment.bare := by
  have noDialect := Options.setting_noDialect text plain
  have readBy := (parse_records parsed).readBy noDialect.jsx fun flow =>
    absurd (noDialect.flow.symm.trans flow) (by decide)
  exact ⟨readBy.failure, readBy.entries, readBy.tokens, readBy.comments⟩

/-- A directive makes the code strict, and the number after it is read again. -/
theorem parse_scans_directive :
    ∃ file, parse "'use strict' \n 7" {} = .ok file ∧ file.tokens.length = 3 ∧
      (Lexer.scan (Options.setting {} "'use strict' \n 7") true).tokens.map Token.bare =
        file.tokens.map Token.bare := by
  have counted : (parse "'use strict' \n 7" {}).toOption.map (fun file => file.tokens.length) =
      some 3 := by
    decide +kernel
  obtain ⟨file, parsed, three⟩ := exists_ok_of_map counted
  exact ⟨file, parsed, three, (parse_scans rfl parsed).2.2.1⟩

/-- Where types may be written but no markup, a scan, which knows of no types, reads what a parse
has read, if no token is an angle bracket or the word for no value as a name. A type ends without
a trace in how the text behind it falls into tokens. -/
theorem parse_scans_unmarked {text : String} {options : Options} {file : File}
    (noMarkup : options.hasDialect .jsx = false) (parsed : parse text options = .ok file)
    (unmarked : ∀ token ∈ file.tokens, token.isTypeMark = false) :
    file.ReadBy (Lexer.scan (options.setting text) options.strictMode) :=
  (parse_records parsed).readBy noMarkup fun _ => unmarked

/-- A keyword that stands behind a type is read while the type lasts. -/
theorem parse_scans_unmarked_alias :
    ∃ file, parse "type X = T\nvar y" { dialects := [.flow] } = .ok file ∧
      file.tokens.length = 7 ∧
      (Lexer.scan (Options.setting { dialects := [.flow] } "type X = T\nvar y") true).tokens.map
        Token.bare = file.tokens.map Token.bare := by
  have counted : (parse "type X = T\nvar y" { dialects := [.flow] }).toOption.map (fun file =>
      (file.tokens.length, file.tokens.all (! ·.isTypeMark))) = some (7, true) := by
    decide +kernel
  obtain ⟨file, parsed, seen⟩ := exists_ok_of_map counted
  obtain ⟨seven, unmarked⟩ := Prod.mk.inj seen
  refine ⟨file, parsed, seven, (parse_scans_unmarked (by decide) parsed ?_).tokens⟩
  simpa using unmarked

/-- The word for no value behind a type is read as a name: what parses as a file of its own
does not parse behind a type. -/
theorem parse_misreads_void :
    (parse "type X = T" { dialects := [.flow] }).toOption.isSome = true ∧
      (parse "void 0" { dialects := [.flow] }).toOption.isSome = true ∧
      (parse "type X = T\nvoid 0" { dialects := [.flow] }).toOption.isSome = false := by
  decide +kernel

end EcmaSyntax
