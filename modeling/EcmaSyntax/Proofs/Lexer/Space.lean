import EcmaSyntax.Lexer.Space
import EcmaSyntax.Proofs.Lexer.Passage

namespace EcmaSyntax

theorem LineMap.startsAfter_add (base offset : Nat) (text : List Char) :
    startsAfter (base + offset) text = (startsAfter offset text).map (base + ·) := by
  fun_induction startsAfter offset text with
  | case1 offset => simp
  | case2 offset rest inductionHypothesis =>
      rw [startsAfter_return_feed, List.map_cons, ← inductionHypothesis, Nat.add_assoc]
  | case3 offset character rest alone next ends inductionHypothesis =>
      rw [startsAfter_cons _ alone, if_pos ends, List.map_cons, ← inductionHypothesis,
        Nat.add_assoc]
  | case4 offset character rest alone next stays inductionHypothesis =>
      rw [startsAfter_cons _ alone, if_neg stays, ← inductionHypothesis, Nat.add_assoc]

/-- A test is sought from a boundary on among the characters after it. -/
theorem Source.find_eq {source : Source} {offset : Nat} {before after : List Char}
    (parted : source.At offset before after) (test : Char → Bool) :
    source.find test offset =
      offset + byteLength (after.takeWhile fun character => !test character) := by
  suffices step : ∀ (count inner : Nat) (rest : List Char) (before : List Char),
      source.At inner before rest → inner + count = source.size →
      source.seek test count inner =
        inner + byteLength (rest.takeWhile fun character => !test character) by
    exact step _ offset after before parted (by have := parted.le_size; omega)
  clear parted
  -- The cells within a character are empty, so the search goes on to its end.
  have within : ∀ (skipped inner count : Nat),
      (∀ ahead < skipped, source.charAt? (inner + ahead) = none) →
      source.seek test (count + skipped) inner = source.seek test count (inner + skipped) := by
    intro skipped
    induction skipped with
    | zero => simp
    | succ skipped inductionHypothesis =>
        intro inner count empty
        have first := empty 0 (by omega)
        rw [Nat.add_zero] at first
        rw [← Nat.add_assoc, seek, first]
        simp only [Option.any_none, Bool.false_eq_true, if_false]
        rw [inductionHypothesis (inner + 1) count fun ahead low => by
          have := empty (ahead + 1) (by omega)
          rwa [Nat.add_comm ahead 1, ← Nat.add_assoc] at this]
        congr 1
        omega
  intro count inner rest
  induction rest generalizing count inner with
  | nil =>
      intro before parted enough
      have := parted.add_eq_size
      simp only [byteLength_nil] at this
      obtain rfl : count = 0 := by omega
      simp [seek]
  | cons character rest inductionHypothesis =>
      intro before parted enough
      have size := parted.add_eq_size
      have positive := character.utf8Size_pos
      simp only [byteLength_cons] at size
      obtain ⟨fewer, rfl⟩ : ∃ fewer, count = fewer + (character.utf8Size - 1) + 1 :=
        ⟨count - character.utf8Size, by omega⟩
      rw [seek, parted.charAt?, List.head?_cons, Option.any_some]
      by_cases passes : test character = true
      · rw [if_pos passes, List.takeWhile_cons_of_neg (by simp [passes]), byteLength_nil,
          Nat.add_zero]
      · rw [if_neg passes, within, List.takeWhile_cons_of_pos (by simpa using passes),
          byteLength_cons,
          show inner + 1 + (character.utf8Size - 1) = inner + character.utf8Size by omega,
          inductionHypothesis fewer _ _ parted.next (by omega), Nat.add_assoc]
        intro ahead low
        exact parted.charAt?_within (by omega) (by omega)

namespace Lexer

/-- A text is passed line by line as its line map lists them. -/
theorem Passes.ofLines {source : Source} {cursor : Cursor} {before text rest : List Char}
    (parted : source.At cursor.pos before (text ++ rest)) (unsplit : Unsplit text rest) :
    Passes source text 0 cursor
      ⟨cursor.pos + byteLength text,
        (LineMap.startsAfter cursor.pos text).getLastD cursor.lineStart,
        cursor.line + (LineMap.startsAfter cursor.pos text).length⟩ := by
  have last : ∀ (start : Nat) (starts : List Nat) (usual : Nat),
      (start :: starts).getLast?.getD usual = starts.getLast?.getD start := by
    intro start starts usual
    rw [List.getLast?_cons, Option.getD_some]
  generalize same : cursor.pos = offset at *
  fun_induction LineMap.startsAfter offset text generalizing cursor before with
  | case1 offset =>
      subst same
      exact .stay cursor
  | case2 offset others inductionHypothesis =>
      subst same
      have carriage := parted.charAt?
      have feed := parted.next.charAt?
      rw [Source.utf8Size_return] at feed
      have found : source.terminatorAt? cursor.pos = some ['\r', '\n'] := by
        rw [Source.terminatorAt?, carriage]
        simp [Source.hasAt, feed]
      have twice : byteLength ['\r', '\n'] = 2 := by decide
      have next := Source.At.append (show source.At _ _ (['\r', '\n'] ++ _) from parted)
      rw [twice] at next
      have tail := inductionHypothesis unsplit.of_tail.of_tail
        (show (cursor.newLine (byteLength ['\r', '\n'])).pos = _ by rw [Cursor.newLine_pos, twice])
        next
      have whole := Passes.terminator found tail
      simpa [Cursor.newLine, twice, Source.utf8Size_return, Source.utf8Size_feed, last,
        Nat.add_assoc, Nat.add_comm, Nat.add_left_comm] using whole
  | case3 =>
      rename_i character others alone next ends inductionHypothesis
      subst same
      have here := parted.charAt?
      have found : source.terminatorAt? cursor.pos = some [character] := by
        rw [Source.terminatorAt?, here]
        simp only [List.cons_append, List.head?_cons]
        rw [if_neg, if_pos ends]
        simp only [Bool.and_eq_true, beq_iff_eq, Source.hasAt_iff]
        rintro ⟨rfl, feed⟩
        have second := parted.next.charAt?
        rw [Source.utf8Size_return, feed] at second
        cases others with
        | nil => exact unsplit ⟨rfl, second.symm⟩
        | cons head tail =>
            change some '\n' = some head at second
            exact alone tail rfl (by rw [Option.some.inj second])
      have tail := inductionHypothesis unsplit.of_tail
        (show (cursor.newLine (byteLength [character])).pos = _ by simp [next]) parted.next
      have whole := Passes.terminator found tail
      simpa [Cursor.newLine, next, last, Nat.add_assoc, Nat.add_comm, Nat.add_left_comm] using whole
  | case4 =>
      rename_i character others alone next stays inductionHypothesis
      subst same
      have here := parted.charAt?
      have tail := inductionHypothesis unsplit.of_tail
        (show (cursor.forward character.utf8Size).pos = _ from rfl) parted.next
      have whole := Passes.character here (by simpa using stays) tail
      simpa [Cursor.forward, next, Nat.add_assoc] using whole

/-- The comment that lies between two cursors. -/
def commentBetween (isBlock : Bool) (value : String) (first last : Cursor) : Comment :=
  ⟨isBlock, value, first.pos, last.pos, ⟨first.position, last.position⟩⟩

/-- A step between two tokens passes blanks or a comment, or lets a token begin that turns out
to be a comment. -/
inductive Skip (source : Source) : State → State → Prop
  | blanks {state : State} {text : List Char} {last : Cursor}
      (passes : Passes source text 0 state.cursor last)
      (blank : ∀ character ∈ text, Blank.isBlank character = true) :
      Skip source state (state.at last)
  | comment {state : State} {text : List Char} {last : Cursor} (isBlock : Bool) (value : String)
      (passes : Passes source text 0 state.cursor last) (ahead : state.pos < last.pos) :
      Skip source state
        ((state.at last).recordComment (commentBetween isBlock value state.cursor last))
  | begins (state : State) (startLoc : Position) :
      Skip source state
        { state with
          start := state.pos, startLoc := startLoc, containsOctal := false, octalPosition := none }

/-- Steps between two tokens, one after another. -/
inductive Skips (source : Source) : State → State → Prop
  | stay (state : State) : Skips source state state
  | step {first middle last : State} (skip : Skip source first middle)
      (rest : Skips source middle last) : Skips source first last

namespace Skips

variable {source : Source} {first middle last : State}

theorem one (skip : Skip source first last) : Skips source first last := .step skip (.stay _)

theorem trans (begins : Skips source first middle) (ends : Skips source middle last) :
    Skips source first last := by
  induction begins with
  | stay state => exact ends
  | step skip rest inductionHypothesis => exact .step skip (inductionHypothesis ends)

end Skips

@[simp] theorem State.recordComment_cursor (comment : Comment) (state : State) :
    (state.recordComment comment).cursor = state.cursor := by
  unfold State.recordComment
  split <;> rfl

@[simp] theorem State.recordComment_pos (comment : Comment) (state : State) :
    (state.recordComment comment).pos = state.pos :=
  congrArg Cursor.pos (state.recordComment_cursor comment)

/-- The cursor stays sound when a blank or a comment is passed. -/
theorem Skip.sound {source : Source} {first last : State} (skip : Skip source first last)
    (begins : first.cursor.Sound source) : last.cursor.Sound source := by
  cases skip with
  | blanks passes blank => exact passes.sound begins
  | comment isBlock value passes ahead =>
      rw [State.recordComment_cursor]
      exact passes.sound begins
  | begins startLoc => exact begins

/-- The cursor stays sound when blanks and comments are passed. -/
theorem Skips.sound {source : Source} {first last : State} (skips : Skips source first last)
    (begins : first.cursor.Sound source) : last.cursor.Sound source := by
  induction skips with
  | stay state => exact begins
  | step skip rest inductionHypothesis => exact inductionHypothesis (skip.sound begins)

theorem Skip.le {source : Source} {first last : State} (skip : Skip source first last) :
    first.pos ≤ last.pos := by
  cases skip with
  | blanks passes blank => exact passes.le
  | comment isBlock value passes ahead =>
      rw [State.recordComment_pos]
      exact passes.le
  | begins startLoc => exact Nat.le_refl _

theorem Skips.le {source : Source} {first last : State} (skips : Skips source first last) :
    first.pos ≤ last.pos := by
  induction skips with
  | stay state => exact Nat.le_refl _
  | step skip rest inductionHypothesis => exact Nat.le_trans skip.le inductionHypothesis

/-- Where the cursor stays, no comment has been passed. -/
theorem Skips.stays {source : Source} {first last : State} (skips : Skips source first last)
    (stays : last.pos = first.pos) :
    last.entries = first.entries ∧ last.comments = first.comments := by
  induction skips with
  | stay state => exact ⟨rfl, rfl⟩
  | step skip rest inductionHypothesis =>
      have before := skip.le
      have after := rest.le
      obtain ⟨entries, comments⟩ := inductionHypothesis (by omega)
      rw [entries, comments]
      cases skip with
      | blanks passes blank => exact ⟨rfl, rfl⟩
      | comment isBlock value passes ahead =>
          rw [State.recordComment_pos] at after
          exact absurd (Nat.lt_of_lt_of_le ahead after) (Nat.not_lt.mpr (Nat.le_of_eq stays))
      | begins startLoc => exact ⟨rfl, rfl⟩

variable {setting : Setting} {state : State}

/-- A comment that has been passed is recorded. -/
theorem finishComment_meets (isBlock : Bool) (value : List Char) {text : List Char} {last : Cursor}
    (sound : state.cursor.Sound setting.source)
    (passes : Passes setting.source text 0 state.cursor last) (ahead : state.pos < last.pos) :
    Meets (finishComment isBlock value state.pos state.position) setting (state.at last)
      fun _ after => Skip setting.source state after ∧ after.pos = last.pos := by
  simp only [finishComment, Meets.bind_iff, meets_position, meets_modify]
  exact ⟨(passes.sound sound).ordered, .comment isBlock _ passes ahead,
    State.recordComment_pos _ _⟩

/-- The search for the end of a comment finds a star with a slash. -/
theorem findClosing_spec {source : Source} {count offset stop : Nat}
    (found : findClosing source count offset = some stop) :
    offset ≤ stop ∧ source.charAt? stop = some '*' ∧ source.charAt? (stop + 1) = some '/' := by
  induction count generalizing offset with
  | zero => simp [findClosing] at found
  | succ count inductionHypothesis =>
      unfold findClosing at found
      split at found
      · next closes =>
          rw [Bool.and_eq_true, Source.hasAt_iff, Source.hasAt_iff] at closes
          obtain rfl := Option.some.inj found
          exact ⟨Nat.le_refl _, closes⟩
      · have := inductionHypothesis found
        exact ⟨by omega, this.2⟩

theorem utf8Size_slash : ('/').utf8Size = 1 := by decide

theorem utf8Size_star : ('*').utf8Size = 1 := by decide

/-- The cursor after a text of several lines or of one, and after the mark that closes it. -/
theorem Passes.block {source : Source} {cursor : Cursor} {before text rest : List Char}
    (parted : source.At cursor.pos before (text ++ '*' :: '/' :: rest)) :
    Passes source (text ++ ['*', '/']) 0 cursor
      (if 1 < (LineMap.ofText text).lineCount then
        ⟨cursor.pos + byteLength text + 2, cursor.pos + (LineMap.ofText text).lastStart,
          cursor.line + ((LineMap.ofText text).lineCount - 1)⟩
      else cursor.forward (byteLength text + 2)) := by
  have lines := Passes.ofLines parted (by rintro ⟨-, feed⟩; simp at feed)
  have star := parted.append.charAt?
  have slash := parted.append.next.charAt?
  rw [utf8Size_star] at slash
  have mark := fun lineStart line => (Passes.one
    ⟨cursor.pos + byteLength text, lineStart, line⟩ star (by decide)).trans
      (.one _ (by simpa [utf8Size_star] using slash) (by decide))
  have whole := lines.trans (mark _ _)
  have shifted : LineMap.startsAfter cursor.pos text =
      (LineMap.startsAfter 0 text).map (cursor.pos + ·) := LineMap.startsAfter_add cursor.pos 0 text
  simp only [Cursor.forward, utf8Size_star, utf8Size_slash, shifted] at whole
  split
  · next several =>
      rw [LineMap.lineCount_ofText] at several
      rw [LineMap.lineCount_ofText, LineMap.lastStart, LineMap.starts_ofText]
      cases starts : LineMap.startsAfter 0 text with
      | nil => simp [starts] at several
      | cons first others =>
          rw [starts] at whole
          simpa [Nat.add_assoc, List.getLast?_cons] using whole
  · next single =>
      rw [LineMap.lineCount_ofText] at single
      cases starts : LineMap.startsAfter 0 text with
      | nil =>
          rw [starts] at whole
          simpa [Cursor.forward, Nat.add_assoc] using whole
      | cons first others => simp [starts] at single

/-- A comment between stars is passed, with the lines in it. -/
theorem passBlockComment_meets (sound : state.cursor.Sound setting.source)
    (stars : setting.source.charAt? (state.pos + 1) = some '*') :
    Meets passBlockComment setting state fun _ after => Skip setting.source state after := by
  have begins : setting.source.isBoundary state.pos = true := sound.boundary
  have inner := Source.isBoundary_next stars
  rw [utf8Size_star, Nat.add_assoc] at inner
  simp only [passBlockComment, Meets.bind_iff, meets_position, meets_get, meets_source]
  refine ⟨sound.ordered, ?_⟩
  apply meets_ite
  · intro short
    have := Source.le_size_of_isBoundary inner
    omega
  intro _
  split
  · simp
  · next stop found =>
      obtain ⟨ordered, star, slash⟩ := findClosing_spec found
      have closing := Source.isBoundary_of_charAt? star
      obtain ⟨before, after, parted⟩ := Source.isBoundary_iff.mp begins
      obtain ⟨lead, rest, later⟩ := Source.at_of_charAt? star
      obtain ⟨text, rfl, same⟩ := parted.between later (by omega)
      obtain ⟨value, inside⟩ := Source.slice?_isSome inner closing ordered
      have sliced := Source.slice?_eq parted
      rw [← same] at sliced
      obtain ⟨others, rfl⟩ : ∃ others, rest = '/' :: others := by
        have next := later.next.charAt?
        rw [utf8Size_star, slash, eq_comm, List.head?_eq_some_iff] at next
        exact next
      have parted : setting.source.At state.cursor.pos before (text ++ '*' :: '/' :: others) :=
        parted
      have passes := Passes.block parted
      have ahead : state.pos < state.pos + byteLength text + 2 := by omega
      simp only [Meets.bind_iff, meets_moveTo, meets_slice]
      refine ⟨text, sliced, ?_⟩
      split
      · next several =>
          rw [if_pos several] at passes
          simp only [Meets.bind_iff, meets_modify, meets_slice]
          refine ⟨value, inside, ?_⟩
          have met := finishComment_meets true value sound passes ahead
          rw [show state.cursor.pos = state.pos from rfl, ← same] at met
          exact met.mono fun _ _ skip => skip.1
      · next single =>
          rw [if_neg single] at passes
          simp only [Meets.bind_iff, meets_slice]
          refine ⟨value, inside, ?_⟩
          have met := finishComment_meets true value sound passes ahead
          rw [Cursor.forward, show state.cursor.pos = state.pos from rfl, ← Nat.add_assoc,
            ← same] at met
          exact met.mono fun _ _ skip => skip.1

/-- A comment to the end of its line begins with a mark of so many bytes. -/
theorem passLineComment_meets {opening : Nat} {mark : List Char}
    (sound : state.cursor.Sound setting.source) (positive : 0 < opening)
    (marked : Plain setting.source mark state.pos (state.pos + opening)) :
    Meets (passLineComment opening) setting state fun _ after =>
      Skip setting.source state after ∧ state.pos + opening ≤ after.pos := by
  have begins : setting.source.isBoundary state.pos = true := sound.boundary
  obtain ⟨before, after, parted⟩ := Source.isBoundary_iff.mp (marked.isBoundary begins)
  have stop := Source.find_eq parted Blank.isLineBreak
  rw [← List.takeWhile_append_dropWhile (p := fun character => !Blank.isLineBreak character)
    (l := after)] at parted
  have text := Plain.ofAt parted fun character member => by
    simpa using List.all_eq_true.mp List.all_takeWhile character member
  have sliced := text.slice? (marked.isBoundary begins)
  rw [← stop] at text sliced
  simp only [passLineComment, Meets.bind_iff, meets_position, meets_get, meets_source,
    meets_moveTo, meets_slice]
  refine ⟨sound.ordered, _, sliced, ?_⟩
  have passes := (marked.moved state rfl).passes.trans
    (text.moved { state with pos := state.pos + opening } rfl).passes
  have le := text.le
  refine (finishComment_meets _ _ sound passes (Nat.lt_of_lt_of_le (by omega) le)).mono ?_
  rintro _ last ⟨skip, here⟩
  refine ⟨skip, ?_⟩
  rw [here]
  exact le

/-- Blanks and comments are passed one after another. -/
theorem passBlanks_meets (count : Nat) (sound : state.cursor.Sound setting.source) :
    Meets (passBlanks count) setting state fun _ after => Skips setting.source state after := by
  induction count generalizing state with
  | zero => exact .stay state
  | succ count inductionHypothesis =>
      rw [passBlanks, Meets.bind_iff, meets_peek, Nat.add_zero]
      have further : ∀ {middle : State}, Skip setting.source state middle →
          Meets (passBlanks count) setting middle
            fun _ after => Skips setting.source state after := by
        intro middle skip
        refine (inductionHypothesis (skip.sound sound)).mono ?_
        intro _ last rest
        exact .step skip rest
      split
      · exact .stay state
      · next character found =>
          apply meets_ite
          · intro ends
            obtain ⟨terminator, same⟩ := terminatorAt?_of_isLineBreak found ends
            refine (passLineBreak_meets same).bind ?_
            rintro _ middle ⟨-, rfl⟩
            refine further (.blanks (Passes.terminatorOne _ same) ?_)
            intro other member
            exact Blank.isBlank_of_isLineBreak (isLineBreak_of_mem same other member)
          intro inside
          apply meets_ite
          · intro inline
            rw [Meets.bind_iff, meets_advance]
            have passes := Passes.one state.cursor found (by simpa using inside)
            refine further (.blanks passes ?_)
            intro other member
            rw [List.mem_singleton] at member
            rw [member]
            exact Blank.isBlank_of_isInline inline
          intro _
          apply meets_ite
          · intro slash
            rw [beq_iff_eq] at slash
            subst slash
            rw [Meets.bind_iff, meets_peek]
            split
            · next star =>
                exact (passBlockComment_meets sound star).bind fun _ _ skip => further skip
            · next second =>
                have marked : Plain setting.source ['/', '/'] state.pos (state.pos + 2) := by
                  refine .cons found (by decide) (.one ?_ (by decide))
                  rwa [utf8Size_slash]
                exact (passLineComment_meets sound (by decide) marked).bind fun _ _ skip =>
                  further skip.1
            · exact .stay state
          · intro _
            exact .stay state

/-- Blanks and comments are passed. -/
theorem skipSpace_meets (sound : state.cursor.Sound setting.source) :
    Meets skipSpace setting state fun _ after => Skips setting.source state after := by
  rw [skipSpace, Meets.bind_iff, meets_remaining]
  exact passBlanks_meets _ sound

/-- A line for the shell is passed like a comment. -/
theorem skipShebang_meets (sound : state.cursor.Sound setting.source) :
    Meets skipShebang setting state fun _ after => Skips setting.source state after := by
  simp only [skipShebang, Meets.bind_iff, meets_get, meets_source]
  apply meets_ite
  · intro marked
    rw [Bool.and_eq_true, beq_iff_eq] at marked
    have mark : Plain setting.source ['#', '!'] state.pos (state.pos + 2) := by
      rw [marked.1]
      refine ⟨marked.2, by decide, fun character member => ?_⟩
      simp only [List.mem_cons, List.not_mem_nil, or_false] at member
      rcases member with rfl | rfl <;> rfl
    exact (passLineComment_meets sound (by decide) mark).mono fun _ _ skip => .one skip.1
  · intro _
    exact .stay state

end Lexer

end EcmaSyntax
