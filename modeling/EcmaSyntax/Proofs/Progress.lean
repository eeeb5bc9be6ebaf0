import EcmaSyntax.Proofs.Scan
import EcmaSyntax.Proofs.Text.LineEnding
import Mathlib.Data.List.Chain

namespace EcmaSyntax

/-- How a reading of a text of so many bytes gets on with a token: it comes to the end of the
text, it passes some of the text, or it comes to the mark that ends an empty chunk of a
template. -/
inductive Token.Gains (size : Nat) (token : Token) : Prop
  | ending (kind : token.kind = .eof) (start : token.start = size) (stop : token.stop = size)
  | filled (goesOn : token.kind ≠ .eof) (ahead : token.start < token.stop)
      (within : token.stop ≤ size)
  | empty (kind : token.kind = .template) (equal : token.start = token.stop)
      (inside : token.stop < size)

/-- One token leads to another one. The end of the text leads to none, and what is empty leads
only to what is not. -/
structure Token.Leads (first last : Token) : Prop where
  goesOn : first.kind ≠ .eof
  ordered : first.stop ≤ last.start
  filled : first.start = first.stop → last.start < last.stop

/-- Each token gets the reading on, and leads to the one after it. -/
structure Progressing (size : Nat) (tokens : List Token) : Prop where
  gains : ∀ token ∈ tokens, token.Gains size
  leads : tokens.IsChain Token.Leads

section Tokens

variable {size : Nat} {tokens : List Token} {first last : Token}

/-- One token that gains on the text is progress. -/
theorem Progressing.single (gains : last.Gains size) : Progressing size [last] :=
  ⟨fun _ member => List.mem_singleton.mp member ▸ gains, .singleton _⟩

/-- A token that gains on the text makes progress after the one before it. -/
theorem Progressing.push (progressing : Progressing size (tokens ++ [first]))
    (gains : last.Gains size) (leads : first.Leads last) :
    Progressing size (tokens ++ [first] ++ [last]) := by
  refine ⟨fun token member => ?_, progressing.leads.append (.singleton _) ?_⟩
  · rcases List.mem_append.mp member with member | member
    · exact progressing.gains token member
    · exact List.mem_singleton.mp member ▸ gains
  · intro before same after there
    rw [List.getLast?_concat, Option.mem_some_iff] at same
    rw [List.head?_singleton, Option.mem_some_iff] at there
    exact same ▸ there ▸ leads

/-- The last token may be another one that leads nowhere else and is led to alike. -/
theorem Progressing.replace (progressing : Progressing size (tokens ++ [first]))
    (gains : last.Gains size) (same : last.start = first.start) (filled : last.start < last.stop) :
    Progressing size (tokens ++ [last]) := by
  obtain ⟨before, -, leads⟩ := List.isChain_append.mp progressing.leads
  refine ⟨fun token member => ?_, before.append (.singleton _) ?_⟩
  · rcases List.mem_append.mp member with member | member
    · exact progressing.gains token (List.mem_append_left _ member)
    · exact List.mem_singleton.mp member ▸ gains
  · intro other passed after there
    rw [List.head?_singleton, Option.mem_some_iff] at there
    have led := leads other passed first rfl
    exact ⟨led.goesOn, there ▸ same ▸ led.ordered, fun _ => there ▸ filled⟩

/-- Each byte of the rest of the text makes room for two tokens at most: one that passes it and
an empty chunk before or after that. -/
theorem Progressing.length_le_rest {rest : List Token}
    (progressing : Progressing size (first :: rest)) :
    (first :: rest).length ≤
      2 * (size - first.start) + if first.start < first.stop then 0 else 1 := by
  induction rest generalizing first with
  | nil =>
      have gains := progressing.gains first List.mem_cons_self
      rw [List.length_singleton]
      cases gains with
      | ending kind start stop => simp [start, stop]
      | filled goesOn ahead within => simp only [ahead, if_true]; omega
      | empty kind equal inside => omega
  | cons second rest inductionHypothesis =>
      obtain ⟨leads, chain⟩ := List.isChain_cons_cons.mp progressing.leads
      have bound := inductionHypothesis
        ⟨fun token member => progressing.gains token (List.mem_cons_of_mem _ member), chain⟩
      have ordered := leads.ordered
      rw [List.length_cons]
      cases progressing.gains first List.mem_cons_self with
      | ending kind start stop => exact absurd kind leads.goesOn
      | filled goesOn ahead within =>
          rw [if_pos ahead]
          split at bound <;> omega
      | empty kind equal inside =>
          rw [if_pos (leads.filled equal)] at bound
          rw [if_neg (Nat.not_lt.mpr (Nat.le_of_eq equal.symm))]
          omega

/-- There are at most two tokens for each byte of the text, and one for its end. -/
theorem Progressing.length_le (progressing : Progressing size tokens) :
    tokens.length ≤ 2 * size + 1 := by
  cases tokens with
  | nil => exact Nat.zero_le _
  | cons first rest =>
      have bound := progressing.length_le_rest
      split at bound <;> omega

end Tokens

namespace Lexer

variable {setting : Setting} {strictly : Bool} {first state last after : State}

section Chunk

theorem Ends.pos_eq {kind : Kind} {text : List Char} {hidden : Nat}
    (ends : Ends setting kind text hidden first last) :
    last.pos = first.pos + byteLength text := by
  obtain ⟨middle, value, block, allowed, moved, rfl⟩ := ends
  exact moved.pos_eq

theorem sliceFrom_gives {start : Nat} :
    Gives (sliceFrom start) setting state fun _ after => after = state := by
  rw [sliceFrom, Gives.bind_iff, gives_get, slice, Gives.bind_iff, gives_source]
  split
  · exact gives_pure.mpr rfl
  · exact fun _ _ absent => by cases absent

theorem gives_atSubstitution {post : Bool → State → Prop} :
    Gives atSubstitution setting state post ↔
      post (setting.source.charAt? state.pos == some '$' &&
        setting.source.charAt? (state.pos + 1) == some '\x7b') state := by
  simp only [atSubstitution, Gives.bind_iff, gives_peekIs, gives_pure, Nat.add_zero]

/-- A chunk of a template ends before a character, which is its mark. -/
theorem gatherChunk_ends (count chunk : Nat) (gathered : List Char) :
    Gives (gatherChunk count chunk gathered) setting state fun _ after =>
      after.pos < setting.source.size := by
  induction count generalizing chunk gathered state with
  | zero => exact .last fun _ _ => .last fun _ _ _ _ absent => by cases absent
  | succ count inductionHypothesis =>
      have goesOn (chunk : Nat) (gathered : List Char) (state : State) :
          Gives (gatherChunk count chunk gathered) setting state fun _ after =>
            after.pos < setting.source.size := inductionHypothesis chunk gathered
      rw [gatherChunk, Gives.bind_iff, gives_peek]
      split
      · exact .last fun _ _ => .last fun _ _ _ _ absent => by cases absent
      · next character found =>
          have inside := Source.lt_size_of_charAt? found
          rw [Gives.bind_iff, gives_atSubstitution]
          refine gives_ite (fun _ => ?_) fun _ => gives_ite (fun _ => ?_) fun _ =>
            gives_ite (fun _ => ?_) fun _ => ?_
          · rw [Gives.bind_iff]
            exact sliceFrom_gives.mono fun _ _ same => gives_pure.mpr (same ▸ inside)
          · exact .last fun _ _ => .last fun _ _ => .last fun _ _ => goesOn _ _ _
          · exact .last fun _ _ => .last fun _ _ => .last fun _ _ => goesOn _ _ _
          · exact .last fun _ _ => goesOn _ _ _

/-- A chunk of a template ends before the text does. -/
theorem readTemplate_ends (begun : Begun setting.source state) :
    Gives readTemplate setting state fun _ after =>
      after.kind = .template → after.pos < setting.source.size := by
  have mark {kind : Kind} {length : Nat} (state : State) (other : kind ≠ .template) :
      Gives (finishMark kind length) setting state fun _ after =>
        after.kind = .template → after.pos < setting.source.size :=
    .last fun _ _ => finishToken_gives.mono fun _ _ names chunk =>
      absurd (names.1.symm.trans chunk) other
  have chunk : Gives (do
        let gathered ← gatherChunk (← remaining) (← get).pos []
        finishToken .template (.text (String.ofList gathered.reverse))) setting state
      fun _ after => after.kind = .template → after.pos < setting.source.size := by
    rw [Gives.bind_iff]
    rintro _ _ ⟨⟩
    rw [Gives.bind_iff, gives_get, Gives.bind_iff]
    intro gathered middle passed _ last finished _
    have inside := gatherChunk_ends _ _ _ _ _ passed
    obtain ⟨text, moved, -⟩ :=
      (gatherChunk_meets _ (Source.slice?_self begun.here)).of_ok passed
    have ends := (finish_meets begun moved).of_ok finished
    rw [ends.pos_eq, ← moved.pos_eq]
    exact inside
  rw [readTemplate, Gives.bind_iff, gives_get, Gives.bind_iff, gives_atSubstitution]
  refine gives_ite (fun _ => mark _ (by decide)) fun _ => ?_
  rw [Gives.bind_iff, gives_peekIs]
  exact gives_ite (fun _ => mark _ (by decide)) fun _ => chunk

/-- After a chunk of a template the template is still open, and its text goes on. -/
def State.Chunked (setting : Setting) (state : State) : Prop :=
  state.kind = .template → state.context = .quoteTemplate ∧ state.pos < setting.source.size

/-- Within a template a token is read at the cursor, and a chunk ends before its mark. -/
theorem nextToken_quoted (ready : Ready setting state) (inside : state.context = .quoteTemplate) :
    Meets nextToken setting state fun _ last =>
      (state.pos < setting.source.size → Reads setting state.begun last) ∧
        (last.kind = .template → last.pos < setting.source.size) := by
  rw [nextToken, Meets.bind_iff, meets_remaining, nextTokenWithin, Meets.bind_iff, meets_get,
    if_neg (by simp [inside, Context.keepsBlanks])]
  refine (beginToken_meets ready).bind ?_
  rintro _ _ rfl
  rw [Meets.bind_iff, meets_peek, Nat.add_zero]
  split
  · next absent =>
      have atEnd := Source.eq_size_of_charAt?_eq_none ready.cursor.boundary absent
      refine (finish_meets ready.begun (.stay _ _)).mono ?_
      refine fun _ last ends => ⟨fun goesOn => ?_, ?_⟩
      · exact absurd atEnd (Nat.ne_of_lt goesOn)
      · rw [ends.kind_eq]
        exact fun chunk => absurd chunk (by decide)
  · next character found =>
      rw [if_pos (by simpa using inside)]
      refine (readTemplate_meets ready.begun inside found).and_ok.mono ?_
      rintro _ last ⟨reads, passed⟩
      exact ⟨fun _ => reads, readTemplate_ends ready.begun _ _ passed⟩

/-- So does a chunk that is the next token. -/
theorem nextToken_chunked (ready : Ready setting state) :
    Gives nextToken setting state fun _ last => last.Chunked setting := by
  intro _ last passed chunk
  obtain ⟨fetches, -⟩ := (nextToken_meets ready).of_ok passed
  have inside : state.context = .quoteTemplate := by
    by_contra outside
    exact (fetches.unquoted outside).1 chunk
  refine ⟨?_, ((nextToken_quoted ready inside).of_ok passed).2 chunk⟩
  obtain ⟨block, contexts⟩ := fetches.contexts
  have same : last.contexts = state.contexts := by
    rw [contexts, chunk]
    cases setting.jsx <;> rfl
  rw [State.context, same]
  exact inside

end Chunk

section Reached

/-- The token of a sound state gains on the text. -/
theorem State.Sound.gains (sound : state.Sound setting) (chunked : state.Chunked setting) :
    state.token.Gains setting.source.size := by
  have closing := Source.le_size_of_isBoundary sound.closing
  have within := sound.within
  by_cases ending : state.kind = .eof
  · have start := sound.atEnd ending
    exact .ending ending start (Nat.le_antisymm closing (start ▸ within))
  · rcases Nat.lt_or_eq_of_le within with ahead | equal
    · exact .filled ending ahead closing
    · have chunk : state.kind = .template := by
        by_contra other
        exact absurd equal (Nat.ne_of_lt (sound.filled ending other))
      have inside : state.stop < setting.source.size := sound.stops ▸ (chunked chunk).2
      exact .empty chunk equal inside

/-- A token that is read again is no chunk. -/
theorem Restricts.chunked {strict : Bool} (restricts : Restricts setting strict state last)
    (chunked : state.Chunked setting) : last.Chunked setting := by
  rcases restricts with ⟨-, rfl⟩ | ⟨-, lineStart, line, -, again⟩
  · exact chunked
  · intro chunk
    rw [chunk] at again
    exact absurd again (by decide)

/-- What a parse reads of a template has its mark after it. -/
theorem Reached.chunked (reached : Reached setting strictly state) : state.Chunked setting := by
  induction reached with
  | start begins =>
      obtain ⟨⟨middle, skips, fetches⟩, -⟩ := (begin_meets setting strictly).of_ok begins
      have outside : middle.context ≠ .quoteTemplate := by
        rw [skips.context]
        exact (by decide : Context.braceStatement ≠ .quoteTemplate)
      exact fun chunk => absurd chunk (fetches.unquoted outside).1
  | @next state after reached goesOn step inductionHypothesis =>
      rw [next_eq] at step
      exact nextToken_chunked reached.sound.ready _ _ step
  | @restrict state after strict reached allowed calm step inductionHypothesis =>
      exact ((setStrict_meets reached.sound calm).of_ok step).1.chunked inductionHypothesis
  | mark reached marked inductionHypothesis =>
      obtain ⟨⟨strict, inType, leading, trailing, rfl⟩, -⟩ := marked
      exact inductionHypothesis

/-- A token leads to the token that is read after it. -/
theorem next_leads (sound : state.Sound setting) (chunked : state.Chunked setting)
    (goesOn : state.kind ≠ .eof) (step : next setting state = .ok () after) :
    state.token.Leads after.token := by
  obtain ⟨advances, read⟩ := (next_meets sound).of_ok step
  have ordered : state.stop ≤ after.start := advances.lastStop ▸ read.ordered
  refine ⟨goesOn, ordered, fun equal => ?_⟩
  -- Only a chunk is empty, and no empty chunk follows a chunk.
  have chunk : state.kind = .template := by
    by_contra other
    exact absurd equal (Nat.ne_of_lt (sound.filled goesOn other))
  obtain ⟨inside, more⟩ := chunked chunk
  rw [next_eq] at step
  have passed := (nextToken_quoted sound.ready (by
    rw [State.context, State.record_contexts]
    exact inside)).of_ok step
  obtain ⟨text, hidden, ends, fits⟩ := passed.1 (by rwa [State.record_pos])
  have filled : text ≠ [] := fun empty => (fits.filled empty).2 (by
    change state.recordToken.passToken.kind = _
    rw [State.record_kind, chunk])
  have pos := ends.pos_eq
  have start := ends.start
  have positive := Source.byteLength_pos filled
  show after.start < after.stop
  rw [read.stops, pos, start]
  exact Nat.lt_add_of_pos_right positive

/-- The tokens of every state that is reached make progress. -/
theorem Reached.progressing (reached : Reached setting strictly state) :
    Progressing setting.source.size state.tokens := by
  induction reached with
  | @start state begins =>
      rw [(begin_tokens strictly () _ begins).1]
      exact .single ((Reached.start begins).sound.gains (Reached.start begins).chunked)
  | @next state after reached goesOn step inductionHypothesis =>
      rw [(next_tokens reached.tracked step).1]
      have last := Reached.next reached goesOn step
      exact inductionHypothesis.push (last.sound.gains last.chunked)
        (next_leads reached.sound reached.chunked goesOn step)
  | @restrict state after strict reached allowed calm step inductionHypothesis =>
      have last := Reached.restrict reached allowed calm step
      have before : after.recorded = state.recorded :=
        congrArg List.reverse (setStrict_retains step).tokens
      have tokens : after.tokens = state.recorded ++ [after.token] := before ▸ rfl
      rcases ((setStrict_meets reached.sound calm).of_ok step).1 with
        ⟨-, rfl⟩ | ⟨literal, lineStart, line, reads, again⟩
      · exact inductionHypothesis
      · -- What is read again is a number or a string, and neither is empty.
        rw [tokens]
        refine inductionHypothesis.replace (last.sound.gains last.chunked) ?_ ?_
        · exact ((setStrict_meets reached.sound calm).of_ok step).1.start
        · refine last.sound.filled ?_ ?_
          all_goals
            intro other
            rw [other] at again
            exact absurd again (by decide)
  | mark reached marked inductionHypothesis =>
      obtain ⟨⟨strict, inType, leading, trailing, rfl⟩, -⟩ := marked
      exact inductionHypothesis

end Reached

section Scan

/-- What a reading by so many tokens at most comes by from a state on: it passes one token after
the other, and stops at a failure, at the end of the text, or after that many tokens. -/
structure Scans (setting : Setting) (strictly : Bool) (count : Nat) (first : State)
    (reading : Reading) : Prop where
  head : ∃ rest, reading.states = first :: rest
  reached : ∀ state ∈ reading.states, Reached setting strictly state
  passed : reading.states.IsChain (Passed setting)
  stops : reading.failure = none → reading.states.getLast? = some reading.last ∧
    (reading.last.kind = .eof ∨ reading.states.length = count + 1)

/-- A scan stops at the end of the text, or where it may go on no longer. -/
theorem Scans.alone (count : Nat) (reached : Reached setting strictly state)
    (stops : state.kind = .eof ∨ count = 0) :
    Scans setting strictly count state { states := [state], last := state } := by
  refine ⟨⟨[], rfl⟩, fun other member => ?_, .singleton _, fun _ => ⟨rfl, ?_⟩⟩
  · exact List.mem_singleton.mp member ▸ reached
  · exact stops.imp id fun zero => by rw [zero]; rfl

/-- A scan reads token after token. -/
theorem scanFrom_scans (count : Nat) (reached : Reached setting strictly state) :
    Scans setting strictly count state (scanFrom setting count state) := by
  induction count generalizing state with
  | zero => exact .alone 0 reached (.inr rfl)
  | succ count inductionHypothesis =>
      rw [scanFrom]
      split
      · next ending => exact .alone _ reached (.inl (by simpa using ending))
      · next goesOn =>
          have goesOn : state.kind ≠ .eof := by simpa using goesOn
          split
          · next after step =>
              obtain ⟨⟨rest, head⟩, others, passed, stops⟩ :=
                inductionHypothesis (.next reached goesOn step)
              refine ⟨⟨_, rfl⟩, fun other member => ?_, ?_, fun complete => ?_⟩
              · rcases List.mem_cons.mp member with rfl | member
                · exact reached
                · exact others other member
              · show (state :: (scanFrom setting count after).states).IsChain _
                rw [head] at passed ⊢
                exact List.isChain_cons_cons.mpr ⟨⟨goesOn, step⟩, passed⟩
              · obtain ⟨last, ends⟩ := stops complete
                refine ⟨?_, ends.imp id fun length => ?_⟩
                · rw [List.getLast?_cons, last]
                  rfl
                · rw [List.length_cons, length]
          · next failure after step =>
              refine ⟨⟨[], rfl⟩, fun other member => ?_, .singleton _, fun complete => ?_⟩
              · exact List.mem_singleton.mp member ▸ reached
              · cases complete

/-- The tokens of a scan make progress. -/
theorem Scans.progressing {count : Nat} {reading : Reading}
    (scans : Scans setting strictly count state reading) :
    Progressing setting.source.size reading.tokens := by
  constructor
  · intro token member
    obtain ⟨read, listed, rfl⟩ := List.mem_map.mp member
    have reached := scans.reached read listed
    exact reached.sound.gains reached.chunked
  · rw [Reading.tokens, List.isChain_map]
    refine scans.passed.imp_of_mem_imp fun first last listed _ step => ?_
    have reached := scans.reached first listed
    exact next_leads reached.sound reached.chunked step.1 step.2

/-- A reading of a whole text reads all of it, or fails, with two tokens for each byte and one
for the end at most. -/
structure Reading.Finishes (size : Nat) (reading : Reading) : Prop where
  progressing : Progressing size reading.tokens
  cursor : ∀ state ∈ reading.states, state.pos = state.stop
  length_le : reading.tokens.length ≤ 2 * size + 1
  ends : reading.failure = none → ∃ token ∈ reading.tokens.getLast?, token.kind = .eof

/-- A scan finishes, with no more tokens than the size of the text allows. -/
theorem scan_finishes (setting : Setting) (strictMode : Bool) :
    (scan setting strictMode).Finishes setting.source.size := by
  rw [scan]
  split
  · next first begins =>
      have scans := scanFrom_scans (2 * setting.source.size + 2) (.start begins)
      have length := scans.progressing.length_le
      refine ⟨scans.progressing, fun state member => ?_, length, fun complete => ?_⟩
      · exact (scans.reached state member).sound.stops.symm
      · obtain ⟨last, ends⟩ := scans.stops complete
        refine ⟨_, by rw [Reading.tokens, List.getLast?_map, last]; rfl, ends.resolve_right ?_⟩
        rw [Reading.tokens, List.length_map] at length
        omega
  · exact ⟨⟨List.forall_mem_nil _, .nil⟩, List.forall_mem_nil _, Nat.zero_le _,
      fun absent => by cases absent⟩

end Scan

end Lexer

/-- The text of a setting is no larger than the one that is given. -/
theorem Options.setting_size_le (options : Options) (text : String) :
    (options.setting text).source.size ≤ byteLength text.toList := by
  have size : (options.setting text).source.size =
      byteLength (LineEnding.normalize text).toList := Source.size_eq _
  rw [size, LineEnding.normalize, String.toList_ofList]
  exact LineEnding.byteLength_unify_le

/-- The tokens of a file are those that had been read when the parse came to the end. -/
theorem File.Records.progressing {file : File} {setting : Lexer.Setting} {strictly : Bool}
    (records : file.Records setting strictly) : Progressing setting.source.size file.tokens := by
  obtain ⟨last, reached, -, entries, -⟩ := records
  have tokens : file.tokens = last.tokens := by
    rw [File.tokens, entries, Lexer.State.recordToken, if_pos reached.recording]
    simp [Lexer.State.tokens, Entry.token?]
  exact tokens ▸ reached.progressing

/-- Reading tokens always gets on. In whichever state a parse is, each token that has been read,
that is read next, that is seen ahead or that is read again comes to the end of the text, passes
some of it, or is an empty chunk of a template that no empty token follows. So a reading of a
text that fails nowhere comes to its end, and each reading and each parse takes two tokens for
each byte and one for the end at most. -/
theorem reading_progresses :
    (∀ setting strictly state, Lexer.Reached setting strictly state →
      (Progressing setting.source.size state.tokens ∧ state.pos = state.stop) ∧
      (∀ after, Lexer.next setting state = .ok () after →
        after.token.Gains setting.source.size ∧ after.pos = after.stop ∧
          (state.kind ≠ .eof → state.token.Leads after.token)) ∧
      (∀ ahead after, Lexer.lookahead setting state = .ok ahead after →
        ∃ found, Lexer.next setting state = .ok () found ∧
          ahead = ⟨found.kind, found.value, found.start, found.stop⟩) ∧
      ∀ strict after, Lexer.setStrict strict setting state = .ok () after →
        after.token.Gains setting.source.size ∧ after.pos = after.stop) ∧
    (∀ setting strictMode, (Lexer.scan setting strictMode).Finishes setting.source.size) ∧
    ∀ text options file, parse text options = .ok file →
      Progressing (options.setting text).source.size file.tokens ∧
        file.tokens.length ≤ 2 * byteLength text.toList + 1 := by
  refine ⟨fun setting strictly state reached => ⟨⟨reached.progressing, ?_⟩, ?_, ?_, ?_⟩,
    Lexer.scan_finishes, fun text options file parsed => ?_⟩
  · exact reached.sound.stops.symm
  · intro after step
    have read := ((Lexer.next_meets reached.sound).of_ok step).2
    have chunked := Lexer.nextToken_chunked reached.sound.ready _ _ step
    exact ⟨read.gains chunked, read.stops.symm, fun goesOn =>
      Lexer.next_leads reached.sound reached.chunked goesOn step⟩
  · intro ahead after looked
    rw [Lexer.lookahead_eq setting reached.recording] at looked
    split at looked
    · next found step =>
        cases looked
        exact ⟨found, step, rfl⟩
    · cases looked
  · intro strict after step
    obtain ⟨restricts, sound⟩ := Lexer.setStrict_gives reached.sound _ _ step
    exact ⟨sound.gains (restricts.chunked reached.chunked), sound.stops.symm⟩
  · have progressing := (parse_records parsed).progressing
    have length := progressing.length_le
    have size := options.setting_size_le text
    exact ⟨progressing, by omega⟩

/-- Both chunks beside a substitution are empty: eight tokens are read from six bytes. -/
theorem reading_progresses_substitution :
    ∃ file, parse "\x60$\x7ba\x7d\x60" {} = .ok file ∧ file.tokens.length = 8 ∧
      Progressing 6 file.tokens ∧
      ∃ last, Lexer.Reached (Options.setting {} "\x60$\x7ba\x7d\x60") false last ∧
        last.kind = .eof ∧ last.pos = last.stop := by
  have counted : (parse "\x60$\x7ba\x7d\x60" {}).toOption.map (fun file => file.tokens.length) =
      some 8 := by
    decide +kernel
  obtain ⟨file, parsed, eight⟩ := exists_ok_of_map counted
  obtain ⟨last, reached, ending, -⟩ := parse_records parsed
  exact ⟨file, parsed, eight, (reading_progresses.2.2 _ _ file parsed).1, last, reached, ending,
    (reading_progresses.1 _ _ last reached).1.2⟩

end EcmaSyntax
