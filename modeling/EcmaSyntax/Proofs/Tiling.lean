import EcmaSyntax.Proofs.Grammar.Program

namespace EcmaSyntax

/-- Nothing but blanks lies between two offsets. -/
def Source.Blanks (source : Source) (start stop : Nat) : Prop :=
  ∃ text, source.slice? start stop = some text ∧
    ∀ character ∈ text, Blank.isBlank character = true

/-- Entries lie one after another between two offsets, and nothing but blanks before, between
and after them. -/
def Tiles (source : Source) : Nat → List Entry → Nat → Prop
  | start, [], stop => source.Blanks start stop
  | start, entry :: rest, stop =>
    source.Blanks start entry.start ∧ entry.start ≤ entry.stop ∧
      Tiles source entry.stop rest stop

variable {source : Source} {start middle stop : Nat}

theorem Source.Blanks.none (boundary : source.isBoundary start = true) :
    source.Blanks start start := by
  obtain ⟨before, after, parted⟩ := isBoundary_iff.mp boundary
  exact ⟨[], slice?_eq_some.mpr ⟨before, after, parted, rfl⟩, by simp⟩

theorem Source.Blanks.trans (begins : source.Blanks start middle)
    (ends : source.Blanks middle stop) : source.Blanks start stop := by
  obtain ⟨first, sliced, blank⟩ := begins
  obtain ⟨second, later, others⟩ := ends
  refine ⟨first ++ second, slice?_append sliced later, ?_⟩
  intro character member
  rcases List.mem_append.mp member with member | member
  · exact blank character member
  · exact others character member

theorem Tiles.extend {entries : List Entry} (tiles : Tiles source start entries middle)
    (blanks : source.Blanks middle stop) : Tiles source start entries stop := by
  induction entries generalizing start with
  | nil => exact tiles.trans blanks
  | cons entry rest inductionHypothesis =>
      obtain ⟨before, ordered, rest⟩ := tiles
      exact ⟨before, ordered, inductionHypothesis rest⟩

/-- One more entry follows the others. -/
theorem Tiles.push {entries : List Entry} {entry : Entry}
    (tiles : Tiles source start entries entry.start) (ordered : entry.start ≤ entry.stop)
    (boundary : source.isBoundary entry.stop = true) :
    Tiles source start (entries ++ [entry]) entry.stop := by
  induction entries generalizing start with
  | nil => exact ⟨tiles, ordered, .none boundary⟩
  | cons first rest inductionHypothesis =>
      obtain ⟨before, within, rest⟩ := tiles
      exact ⟨before, within, inductionHypothesis rest⟩

namespace Lexer

/-- What has been recorded covers the text up to an offset; the end of the text is not among
it. -/
structure State.Covers (setting : Setting) (state : State) (offset : Nat) : Prop where
  recording : state.recording = true
  tiles : Tiles setting.source 0 state.entries.reverse offset
  comments : state.comments = state.entries.filterMap Entry.comment?
  goesOn : ∀ token, .token token ∈ state.entries → token.kind ≠ .eof

variable {setting : Setting} {strictly : Bool} {first state last : State}

theorem State.Covers.initial (strict : Bool) : State.Covers setting (.initial strict) 0 :=
  ⟨rfl, .none setting.source.isBoundary_zero, rfl, by simp [State.initial]⟩

theorem Skip.covers (skip : Skip setting.source first last)
    (covers : first.Covers setting first.pos) (sound : first.cursor.Sound setting.source) :
    last.Covers setting last.pos := by
  have begins : setting.source.isBoundary first.pos = true := sound.boundary
  cases skip with
  | blanks passes blank =>
      exact ⟨covers.recording, covers.tiles.extend ⟨_, passes.slice? begins, blank⟩,
        covers.comments, covers.goesOn⟩
  | comment isBlock value passes ahead =>
      rw [State.recordComment, if_pos (by exact covers.recording)]
      refine ⟨covers.recording, ?_, ?_, ?_⟩
      · rw [List.reverse_cons]
        exact covers.tiles.push (Nat.le_of_lt ahead) (passes.boundary begins)
      · rw [List.filterMap_cons]
        exact congrArg _ covers.comments
      · intro token member
        rcases List.mem_cons.mp member with same | member
        · exact absurd same (by simp)
        · exact covers.goesOn token member
  | begins startLoc => exact ⟨covers.recording, covers.tiles, covers.comments, covers.goesOn⟩

/-- The blanks and comments that are passed cover their text. -/
theorem Skips.covers (skips : Skips setting.source first last)
    (covers : first.Covers setting first.pos) (sound : first.cursor.Sound setting.source) :
    last.Covers setting last.pos := by
  induction skips with
  | stay state => exact covers
  | step skip rest inductionHypothesis =>
      exact inductionHypothesis (skip.covers covers sound) (skip.sound sound)

/-- A token ends without changing what has been covered before it. -/
theorem Ends.covers {kind : Kind} {text : List Char} {hidden : Nat}
    (ends : Ends setting kind text hidden state.begun last)
    (covers : state.Covers setting state.pos) : last.Covers setting last.start := by
  have entries := ends.entries
  obtain ⟨middle, value, block, allowed, moved, rfl⟩ := ends
  have recording : middle.outline.recording = state.begun.outline.recording := by
    rw [moved.outline]
  have start : middle.start = state.pos := moved.start
  refine ⟨recording.trans covers.recording, ?_, ?_, ?_⟩
  · show Tiles setting.source 0 _ middle.start
    rw [entries.1, start]
    exact covers.tiles
  · rw [entries.1, entries.2]
    exact covers.comments
  · rw [entries.1]
    exact covers.goesOn

/-- What comes before a token is covered when it has been fetched. -/
theorem Fetches.covers (fetches : Fetches setting first last)
    (covers : first.Covers setting first.pos) (sound : first.cursor.Sound setting.source) :
    last.Covers setting last.start := by
  cases fetches with
  | token skips inside reads =>
      obtain ⟨text, hidden, ends, -⟩ := reads
      exact ends.covers (skips.covers covers sound)
  | ending skips atEnd ends => exact ends.covers (skips.covers covers sound)

/-- The current token is recorded. -/
theorem State.Covers.token (covers : state.Covers setting state.start)
    (sound : state.Sound setting) (goesOn : state.kind ≠ .eof) :
    state.recordToken.passToken.Covers setting state.recordToken.passToken.pos := by
  rw [State.recordToken, if_pos covers.recording]
  refine ⟨covers.recording, ?_, ?_, ?_⟩
  · show Tiles setting.source 0 (.token state.token :: state.entries).reverse state.pos
    rw [List.reverse_cons, ← sound.stops]
    exact covers.tiles.push sound.within sound.closing
  · exact covers.comments
  · intro token member
    rcases List.mem_cons.mp member with same | member
    · rw [Entry.token.inj same]
      exact goesOn
    · exact covers.goesOn token member

/-- What comes before a token stays covered when it is read again. -/
theorem Restricts.covers {strict : Bool} (restricts : Restricts setting strict first last)
    (covers : first.Covers setting first.start) : last.Covers setting last.start := by
  rcases restricts with ⟨-, rfl⟩ | ⟨-, lineStart, line, ⟨text, hidden, ends, -⟩, -⟩
  · exact ⟨covers.recording, covers.tiles, covers.comments, covers.goesOn⟩
  · refine ends.covers ?_
    exact ⟨covers.recording, covers.tiles, covers.comments, covers.goesOn⟩

/-- What comes before the token of a state is covered. -/
theorem Reached.covers (reached : Reached setting strictly state) :
    state.Covers setting state.start := by
  induction reached with
  | start begins =>
      obtain ⟨⟨middle, skips, fetches⟩, -⟩ := (begin_meets setting strictly).of_ok begins
      have sound : (State.initial strictly).cursor.Sound setting.source := .initial _
      exact fetches.covers (skips.covers (.initial strictly) sound) (skips.sound sound)
  | next reached goesOn step inductionHypothesis =>
      obtain ⟨advances, -⟩ := (next_meets reached.sound).of_ok step
      exact Fetches.covers advances (inductionHypothesis.token reached.sound goesOn)
        reached.sound.ready.cursor
  | restrict reached allowed calm step inductionHypothesis =>
      obtain ⟨restricts, -⟩ := (setStrict_meets reached.sound calm).of_ok step
      exact restricts.covers inductionHypothesis
  | mark reached marked inductionHypothesis =>
      obtain ⟨⟨strict, inType, leading, trailing, rfl⟩, -⟩ := marked
      exact ⟨inductionHypothesis.recording, inductionHypothesis.tiles,
        inductionHypothesis.comments, inductionHypothesis.goesOn⟩

end Lexer

/-- The tokens and comments of a file cover the text in their order, and nothing but blanks lies
before and between them. The last of them, and no other, is the end of the text. The comments
of the file are those among them. -/
theorem parse_tiles {text : String} {options : Options} {file : File}
    (parsed : parse text options = .ok file) :
    Tiles (options.setting text).source 0 file.entries (options.setting text).source.size ∧
      (∃ before last, file.entries = before ++ [.token last] ∧ last.kind = .eof ∧
        last.start = (options.setting text).source.size ∧
        last.stop = (options.setting text).source.size ∧
        ∀ token, .token token ∈ before → token.kind ≠ .eof) ∧
      file.comments = file.entries.filterMap Entry.comment? := by
  obtain ⟨last, reached, ending, entries, comments⟩ := parse_records parsed
  have sound := reached.sound
  have covers := reached.covers
  have start := sound.atEnd ending
  have stop : last.stop = (options.setting text).source.size := by
    refine Nat.le_antisymm ?_ (start ▸ sound.within)
    exact Source.le_size_of_isBoundary sound.closing
  have recorded : last.recordToken.entries = .token last.token :: last.entries := by
    rw [Lexer.State.recordToken, if_pos covers.recording]
  have kept : last.recordToken.comments = last.comments := by
    rw [Lexer.State.recordToken, if_pos covers.recording]
  rw [recorded, List.reverse_cons] at entries
  refine ⟨?_, ⟨last.entries.reverse, last.token, entries, ending, start, stop, ?_⟩, ?_⟩
  · rw [entries, ← stop]
    exact covers.tiles.push sound.within sound.closing
  · intro token member
    exact covers.goesOn token (List.mem_reverse.mp member)
  · rw [comments, kept, covers.comments, entries, List.filterMap_append, List.filterMap_reverse]
    exact (List.append_nil _).symm

/-- A name with a comment after it is covered by three entries. -/
theorem parse_tiles_name_comment :
    ∃ file, parse "a // b" {} = .ok file ∧ file.entries.length = 3 ∧
      Tiles (Options.setting {} "a // b").source 0 file.entries 6 := by
  have counted : (parse "a // b" {}).toOption.map (fun file => file.entries.length) = some 3 := by
    decide +kernel
  obtain ⟨file, parsed, three⟩ := exists_ok_of_map counted
  exact ⟨file, parsed, three, (parse_tiles parsed).1⟩

end EcmaSyntax
