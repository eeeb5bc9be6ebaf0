/-
This file says which positions of tokens and comments agree with the line map of the text: those
before which no escaped separator of lines has been passed in a string or a template.
-/

import EcmaSyntax.Proofs.Scan
import Mathlib.Algebra.GroupWithZero.Nat

namespace EcmaSyntax

/-- A slice is the text between its ends. -/
theorem Source.charsBetween_of_slice? {source : Source} {start stop : Nat} {text : List Char}
    (sliced : source.slice? start stop = some text) : source.charsBetween start stop = text := by
  unfold slice? at sliced
  split at sliced
  · exact Option.some.inj sliced
  · cases sliced

namespace Lexer

/-- A cursor has its line and the start of it as the line map of the text has them, but for a
number of terminators that it has not counted. -/
def Cursor.Placed (source : Source) (hidden : Nat) (cursor : Cursor) : Prop :=
  ∃ before after, source.At cursor.pos before after ∧ Unsplit before after ∧
    cursor.line + hidden = (LineMap.ofText before).lineCount ∧
    (hidden = 0 → cursor.lineStart = (LineMap.ofText before).lastStart)

namespace Cursor.Placed

variable {source : Source} {hidden : Nat} {cursor : Cursor}

/-- The position of a cursor agrees with the line map if all terminators have been counted. -/
theorem position_eq (placed : cursor.Placed source hidden) :
    cursor.position = (LineMap.ofText source.text).positionOf cursor.pos ↔ hidden = 0 := by
  obtain ⟨before, after, parted, unsplit, line, lineStart⟩ := placed
  rw [parted.text, ← parted.offset, LineMap.positionOf_append unsplit, Cursor.position,
    Position.mk.injEq, ← parted.offset]
  constructor
  · rintro ⟨same, -⟩
    omega
  · intro none
    rw [lineStart none]
    exact ⟨by omega, rfl⟩

/-- A cursor that passes a part of the text stays in its place if it counts the lines that start
in the part, but for those that it does not count, and if the part ends in no half terminator. -/
theorem append {part before rest : List Char} {last : Cursor} (later : Nat)
    (placed : cursor.Placed source hidden) (parted : source.At cursor.pos before (part ++ rest))
    (whole : Unsplit (before ++ part) rest)
    (pos : last.pos = cursor.pos + byteLength part)
    (line : last.line + later = cursor.line + (LineMap.startsAfter cursor.pos part).length)
    (lineStart : later = 0 → last.lineStart =
      (LineMap.startsAfter cursor.pos part).getLastD cursor.lineStart) :
    last.Placed source (hidden + later) := by
  obtain ⟨_, _, same, unsplit, counted, starts⟩ := placed
  obtain ⟨rfl, rfl⟩ := parted.unique same
  have within : Unsplit before part := by
    rintro ⟨closing, opening⟩
    refine unsplit ⟨closing, ?_⟩
    rw [List.head?_append, opening]
    rfl
  refine ⟨before ++ part, rest, pos ▸ parted.append, whole, ?_, fun none => ?_⟩
  · rw [LineMap.lineCount_ofText_append within, ← counted, parted.offset]
    omega
  · have both : hidden = 0 ∧ later = 0 := by omega
    rw [lineStart both.2, LineMap.lastStart_ofText_append within, parted.offset, starts both.1]

/-- A cursor that passes a character stays in its place if it starts a line where one ends, unless
it does not count that line. -/
theorem one {character : Char} {last : Cursor} (later : Nat)
    (placed : cursor.Placed source hidden) (found : source.charAt? cursor.pos = some character)
    (alone : ¬(character = '\r' ∧ source.charAt? (cursor.pos + 1) = some '\n'))
    (pos : last.pos = cursor.pos + character.utf8Size)
    (line : last.line + later =
      cursor.line + if Blank.isLineBreak character then 1 else 0)
    (lineStart : later = 0 → last.lineStart =
      if Blank.isLineBreak character then last.pos else cursor.lineStart) :
    last.Placed source (hidden + later) := by
  have starts : LineMap.startsAfter cursor.pos [character] =
      if Blank.isLineBreak character then [cursor.pos + character.utf8Size] else [] := by
    rw [LineMap.startsAfter_cons _ (fun _ _ absent => by cases absent)]
    simp
  obtain ⟨before, rest, parted⟩ := Source.at_of_charAt? found
  refine placed.append later (show source.At _ _ ([character] ++ rest) from parted) ?_
    (by simpa using pos) ?_ fun none => ?_
  · rintro ⟨closing, opening⟩
    rw [List.getLast?_concat, Option.some.injEq] at closing
    refine alone ⟨closing, ?_⟩
    have next := parted.next.charAt?
    rwa [closing, Source.utf8Size_return, opening] at next
  · rw [starts, line]
    split <;> rfl
  · rw [starts, lineStart none, pos]
    split <;> rfl

end Cursor.Placed

/-- A cursor that passes over text stays in its place; what it hides is not counted. -/
theorem Passes.placed {source : Source} {text : List Char} {count hidden : Nat}
    {first last : Cursor} (passes : Passes source text hidden first last)
    (placed : first.Placed source count) : last.Placed source (count + hidden) := by
  induction passes generalizing count with
  | stay cursor => exact placed
  | @character character text hidden cursor last found inside rest inductionHypothesis =>
      refine inductionHypothesis (placed.one 0 found ?_ rfl ?_ fun _ => ?_)
      · rintro ⟨rfl, -⟩
        exact absurd inside (by decide)
      · rw [inside]
        rfl
      · rw [inside]
        rfl
  | @terminator terminator text hidden cursor last found rest inductionHypothesis =>
      refine inductionHypothesis ?_
      rcases Source.terminatorAt?_cases found with
        ⟨rfl, carriage, feed⟩ | ⟨character, rfl, here, ends, alone⟩
      · obtain ⟨before, after, parted⟩ := Source.at_of_charAt? carriage
        obtain ⟨rest, same, -⟩ := parted.passTerminator found
        have starts : LineMap.startsAfter cursor.pos ['\r', '\n'] = [cursor.pos + 2] := by
          rw [LineMap.startsAfter_return_feed, LineMap.startsAfter_nil]
        refine placed.append 0 (same ▸ parted) ?_ rfl ?_ fun _ => ?_
        · rw [show before ++ ['\r', '\n'] = (before ++ ['\r']) ++ ['\n'] by simp]
          exact .concat (by decide)
        · rw [starts]
          rfl
        · rw [starts]
          rfl
      · refine placed.one 0 here alone (by simp) ?_ fun _ => ?_
        · rw [ends]
          rfl
        · rw [ends]
          rfl
  | @hidden character text hidden cursor last found separates rest inductionHypothesis =>
      rw [← Nat.add_assoc, Nat.add_right_comm]
      have ends : Blank.isLineBreak character = true := by
        rw [Blank.isLineBreak_eq, separates, Bool.or_true]
      refine inductionHypothesis (placed.one 1 found ?_ rfl ?_ (by simp))
      · rintro ⟨rfl, -⟩
        exact absurd separates (by decide)
      · rw [ends]
        rfl

end Lexer

/-- The location of an entry. -/
def Entry.loc : Entry → Location
  | .token read => read.loc
  | .comment passed => passed.loc

/-- An entry lies where a line map has its offsets. -/
def Entry.Located (map : LineMap) (entry : Entry) : Prop :=
  entry.loc = ⟨map.positionOf entry.start, map.positionOf entry.stop⟩

instance (map : LineMap) (entry : Entry) : Decidable (entry.Located map) :=
  inferInstanceAs (Decidable (_ = _))

namespace Lexer

/-- The number of separators of lines that strings and templates among entries hide. -/
def hiddenAmong (source : Source) (entries : List Entry) : Nat :=
  ((entries.filterMap Entry.token?).map fun token =>
    hiddenIn token.kind (source.charsBetween token.start token.stop)).sum

/-- In a record, the newest entry first, each entry lies where the line map has it if and only if
it hides no separator and none is hidden before it. -/
def Told (source : Source) : List Entry → Prop
  | [] => True
  | entry :: older =>
    (entry.Located (LineMap.ofText source.text) ↔ hiddenAmong source (entry :: older) = 0) ∧
      Told source older

/-- An entry agrees with the line map if nothing before it or in it hides a line. -/
theorem Told.entry {source : Source} {entry : Entry} {newer older : List Entry}
    (told : Told source (newer ++ entry :: older)) :
    entry.Located (LineMap.ofText source.text) ↔ hiddenAmong source (entry :: older) = 0 := by
  induction newer with
  | nil => exact told.1
  | cons first rest inductionHypothesis => exact inductionHypothesis told.2

/-- Between tokens the record is told, and the cursor has not counted what is hidden in it. -/
structure State.Told (setting : Setting) (state : State) : Prop where
  recording : state.recording = true
  entries : Lexer.Told setting.source state.entries
  placed : state.cursor.Placed setting.source (hiddenAmong setting.source state.entries)

variable {setting : Setting} {strictly : Bool} {first state last : State}

/-- Nothing is told at the start. -/
theorem State.Told.initial (strict : Bool) : State.Told setting (.initial strict) :=
  ⟨rfl, trivial, [], setting.source.text, .start _, .nil_left _, rfl, fun _ => rfl⟩

/-- An entry between two cursors lies where the line map has it if and only if the second cursor
has counted all. -/
theorem located_iff {source : Source} {entry : Entry} {begins ends : Cursor} {before within : Nat}
    (first : begins.Placed source before) (last : ends.Placed source (before + within))
    (start : entry.start = begins.pos) (stop : entry.stop = ends.pos)
    (loc : entry.loc = ⟨begins.position, ends.position⟩) :
    entry.Located (LineMap.ofText source.text) ↔ before + within = 0 := by
  rw [Entry.Located, loc, start, stop, Location.mk.injEq, first.position_eq, last.position_eq]
  omega

/-- A comment that is passed is told where it stands. -/
theorem Skip.told (skip : Skip setting.source first last) (told : first.Told setting) :
    last.Told setting := by
  cases skip with
  | blanks passes blank => exact ⟨told.recording, told.entries, passes.placed told.placed⟩
  | comment isBlock value passes ahead =>
      have placed := passes.placed told.placed
      rw [State.recordComment, if_pos (by exact told.recording)]
      refine ⟨told.recording, ⟨?_, told.entries⟩, placed⟩
      exact located_iff told.placed placed rfl rfl rfl
  | begins startLoc => exact ⟨told.recording, told.entries, told.placed⟩

/-- The comments that are passed are told where they stand. -/
theorem Skips.told (skips : Skips setting.source first last) (told : first.Told setting) :
    last.Told setting := by
  induction skips with
  | stay state => exact told
  | step skip rest inductionHypothesis => exact inductionHypothesis (skip.told told)

/-- A token adds the separators that it hides to those that have been hidden before it. -/
theorem Ends.told {text : List Char}
    (ends : Ends setting last.kind text (hiddenIn last.kind text) state.begun last)
    (told : state.Told setting) (boundary : setting.source.isBoundary state.pos = true) :
    last.passed.Told setting := by
  obtain ⟨entries, comments⟩ := ends.entries
  change last.entries = state.entries at entries
  obtain ⟨middle, value, block, allowed, moved, ended⟩ := ends
  have recording : last.recording = true := by
    rw [ended]
    exact (congrArg State.recording moved.outline :).trans told.recording
  have start : last.start = state.pos := by
    rw [ended]
    exact moved.start
  have stop : last.stop = last.pos := by rw [ended]; rfl
  have loc : last.token.loc = ⟨state.position, last.position⟩ := by
    rw [ended]
    exact congrArg (Location.mk · _) (congrArg State.startLoc moved.outline :)
  have passes : Passes setting.source text (hiddenIn last.kind text) state.cursor last.cursor := by
    rw [show last.cursor = middle.cursor by rw [ended]; rfl]
    exact moved.passes
  have spelled : setting.source.charsBetween last.start last.stop = text := by
    rw [start, stop]
    exact Source.charsBetween_of_slice? (passes.slice? boundary)
  have sum : hiddenAmong setting.source (.token last.token :: last.entries) =
      hiddenAmong setting.source state.entries + hiddenIn last.kind text := by
    rw [entries, Nat.add_comm, ← spelled]
    rfl
  have placed := passes.placed told.placed
  rw [State.passed, State.recordToken, if_pos recording]
  refine ⟨recording, ⟨?_, ?_⟩, ?_⟩
  · rw [sum]
    exact located_iff told.placed placed start stop loc
  · exact entries ▸ told.entries
  · exact sum ▸ placed

/-- A token that is fetched is told once it has been passed. -/
theorem Fetches.told (plain : setting.jsx = false) (fetches : Fetches setting first last)
    (told : first.Told setting) (sound : first.cursor.Sound setting.source) :
    last.passed.Told setting := by
  cases fetches with
  | token skips inside reads =>
      obtain ⟨text, hidden, ends, fits⟩ := reads
      rw [fits.counted plain] at ends
      exact ends.told (skips.told told) (skips.sound sound).boundary
  | @ending middle skips atEnd ends =>
      have closed : Ends setting last.kind [] (hiddenIn last.kind []) middle.begun last := by
        rw [ends.kind_eq]
        exact ends
      exact closed.told (skips.told told) (skips.sound sound).boundary

/-- Everything that a scan has read is told where it stands. -/
theorem Scanned.told (plain : setting.jsx = false) (scanned : Scanned setting strictly state) :
    state.passed.Told setting := by
  obtain ⟨first, begins, passed⟩ := scanned
  induction passed with
  | refl =>
      obtain ⟨⟨middle, skips, fetches⟩, -⟩ := (begin_meets setting strictly).of_ok begins
      have sound : (State.initial strictly).cursor.Sound setting.source := .initial _
      exact fetches.told plain (skips.told (.initial strictly)) (skips.sound sound)
  | tail before step inductionHypothesis =>
      have sound := ((Reached.start begins).passed before).sound
      obtain ⟨advances, -⟩ := (next_meets sound).of_ok step.2
      exact Fetches.told plain advances inductionHypothesis sound.ready.cursor

/-- The states of a scan are those that it reaches token by token. -/
theorem scanned_of_mem_scanFrom {count : Nat} (scanned : Scanned setting strictly first)
    (read : state ∈ (scanFrom setting count first).states) : Scanned setting strictly state := by
  induction count generalizing first with
  | zero => exact List.mem_singleton.mp read ▸ scanned
  | succ count inductionHypothesis =>
      unfold scanFrom at read
      split at read
      · exact List.mem_singleton.mp read ▸ scanned
      · next goesOn =>
          split at read
          · next step =>
              rcases List.mem_cons.mp read with rfl | read
              · exact scanned
              · exact inductionHypothesis (scanned.next (by simpa using goesOn) step) read
          · exact List.mem_singleton.mp read ▸ scanned

/-- Each state of a scan is one that a reading of tokens alone comes by. -/
theorem scanned_of_mem_scan {strictMode : Bool} (read : state ∈ (scan setting strictMode).states) :
    Scanned setting (strictMode && setting.isModule) state := by
  unfold scan at read
  split at read
  · next begins => exact scanned_of_mem_scanFrom ⟨_, begins, .refl⟩ read
  · cases read

end Lexer

/-- Where nothing is known of tags, the positions of a token or comment of a scan are those that
the line map of the text has, if and only if neither it nor a token before it is a string or a
template in which a separator of lines is escaped. -/
theorem scan_located_iff {setting : Lexer.Setting} (plain : setting.jsx = false) {strictMode : Bool}
    {state : Lexer.State} (read : state ∈ (Lexer.scan setting strictMode).states)
    {newer older : List Entry} {entry : Entry}
    (recorded : state.recordToken.entries = newer ++ entry :: older) :
    entry.Located (LineMap.ofText setting.source.text) ↔
      Lexer.hiddenAmong setting.source (entry :: older) = 0 := by
  have told := ((Lexer.scanned_of_mem_scan read).told plain).entries
  change Lexer.Told _ state.recordToken.entries at told
  rw [recorded] at told
  exact told.entry

/-- A comment that spans three lines is where the line map has it, and the name after it is not,
since the string between them hides a separator. -/
theorem scan_located_iff_hidden :
    ∃ state ∈ (Lexer.scan { source := .ofString "/*\r\n\u2028*/'\\\u2029'\rb" } true).states,
      ∃ name string comment, state.recordToken.entries = [name, string, comment] ∧
        comment.Located (LineMap.ofText "/*\r\n\u2028*/'\\\u2029'\rb".toList) ∧
        ¬name.Located (LineMap.ofText "/*\r\n\u2028*/'\\\u2029'\rb".toList) := by
  have counted : ∃ state ∈
      (Lexer.scan { source := .ofString "/*\r\n\u2028*/'\\\u2029'\rb" } true).states,
      state.recordToken.entries.length = 3 ∧
        Lexer.hiddenAmong (.ofString "/*\r\n\u2028*/'\\\u2029'\rb")
          (state.recordToken.entries.drop 2) = 0 ∧
        Lexer.hiddenAmong (.ofString "/*\r\n\u2028*/'\\\u2029'\rb")
          state.recordToken.entries = 1 := by
    decide +kernel
  obtain ⟨state, read, three, none, one⟩ := counted
  obtain ⟨name, string, comment, recorded⟩ := List.length_eq_three.mp three
  rw [recorded] at none one
  refine ⟨state, read, name, string, comment, recorded, ?_, fun located => ?_⟩
  · exact (scan_located_iff rfl read (show _ = [name, string] ++ comment :: [] from recorded)).mpr
      none
  · have whole :=
      (scan_located_iff rfl read (show _ = [] ++ name :: [string, comment] from recorded)).mp
        located
    exact absurd (one.symm.trans whole) (by decide)

/-- After a string in which a separator of lines is escaped, tokens are not where the line map of
the text has them. -/
theorem scan_misplaced_escaped_separator :
    ¬∀ token ∈ (Lexer.scan { source := .ofString "'\\\u2028' x" } true).tokens,
      (Entry.token token).Located (LineMap.ofText "'\\\u2028' x".toList) := by
  decide +kernel

end EcmaSyntax
