import EcmaSyntax.Lexer.Next
import EcmaSyntax.Proofs.Lexer.Decoding
import EcmaSyntax.Proofs.Text.LineEnding

namespace EcmaSyntax

theorem byteLength_le (text : List Char) : byteLength text ≤ 4 * text.length := by
  induction text with
  | nil => exact Nat.le_refl _
  | cons character rest inductionHypothesis =>
      have := character.utf8Size_le_four
      rw [byteLength_cons, List.length_cons]
      omega

theorem length_le_byteLength (text : List Char) : text.length ≤ byteLength text := by
  induction text with
  | nil => exact Nat.le_refl _
  | cons character rest inductionHypothesis =>
      have := character.utf8Size_pos
      rw [byteLength_cons, List.length_cons]
      omega

/-- The characters that begin within a number of bytes start with those that the text starts with,
if these are no longer. -/
theorem Source.exists_charsBetween_eq {source : Source} {offset count : Nat}
    {before first second : List Char} (parted : source.At offset before (first ++ second))
    (enough : byteLength first ≤ count) :
    ∃ more, source.charsBetween offset (offset + count) = first ++ more := by
  obtain ⟨others, rfl⟩ := Nat.exists_eq_add_of_le enough
  refine ⟨((cellList second).take others).filterMap id, ?_⟩
  rw [charsBetween, Array.toList_extract, cells_toList, List.extract_eq_take_drop, parted.text,
    cellList_append, List.drop_left' (by simp [parted.offset]), Nat.add_sub_cancel_left,
    cellList_append, List.take_append, length_cellList, Nat.add_sub_cancel_left,
    List.take_of_length_le (by simp), List.filterMap_append, filterMap_cellList]

namespace Lexer

variable {setting : Setting} {state : State} {before following : List Char}

section References

variable {name : List Char} {character : Char}

/-- What stands between an ampersand and a semicolon refers to a character: it names it or gives its
number, and is short enough to be looked for. -/
structure Refers (name : List Char) (character : Char) : Prop where
  decoded : decodeEntity name = some character
  short : name.length < entityLimit
  unclosed : ∀ letter ∈ name, letter ≠ ';'

/-- How a reference is written. -/
def reference (name : List Char) : List Char := '&' :: (name ++ [';'])

/-- A reference to a character is read as this character. -/
theorem readEntity_eq (refers : Refers name character)
    (parted : setting.source.At state.pos before (reference name ++ following)) :
    readEntity setting state =
      .ok character { state with pos := state.pos + byteLength (reference name) } := by
  have marks : ('&').utf8Size = 1 ∧ (';').utf8Size = 1 := by decide
  have inner := parted.next
  rw [marks.1] at inner
  have size : byteLength (name ++ [';']) ≤ 4 * entityLimit := by
    have := byteLength_le name
    have := refers.short
    simp only [byteLength_append, byteLength_cons, byteLength_nil, marks]
    omega
  obtain ⟨more, ahead⟩ := Source.exists_charsBetween_eq inner size
  have within : (name ++ ([';'] ++ more)).take entityLimit =
      name ++ ';' :: more.take (entityLimit - name.length - 1) := by
    obtain ⟨others, rest⟩ := Nat.exists_eq_add_of_lt refers.short
    rw [List.take_append, List.take_of_length_le (Nat.le_of_lt refers.short), rest,
      show name.length + others + 1 - name.length = others + 1 by omega]
    rfl
  have parts : (name ++ ';' :: more.take (entityLimit - name.length - 1)).span (· != ';') =
      (name, ';' :: more.take (entityLimit - name.length - 1)) := by
    rw [List.span_eq_takeWhile_dropWhile, List.takeWhile_append_of_pos (by simpa using refers.unclosed),
      List.dropWhile_append_of_pos (by simpa using refers.unclosed)]
    simp
  rw [eq_ok_iff_succeeds]
  simp only [readEntity, Succeeds.bind_iff, succeeds_advance, succeeds_get, succeeds_source, ahead,
    List.append_assoc, within, parts, List.isEmpty_cons, Bool.false_eq_true, if_false,
    refers.decoded, succeeds_moveTo, succeeds_pure, true_and]
  simp [reference, marks, Nat.add_assoc, Nat.add_comm 1]

end References

section Gathering

/-- A text stands for a character: the character itself, unless it ends what is read or begins a
reference, or a reference to it. -/
inductive Writes (ends : Char → Bool) : List Char → Char → Prop where
  | itself {character : Char} (goesOn : ends character = false) (plain : character ≠ '&') :
      Writes ends [character] character
  | reference {name : List Char} {character : Char} (refers : Refers name character) :
      Writes ends (reference name) character

/-- The rest of a text up to a character that ends it, gathered backwards; what stands from an
offset up to the cursor has been passed but not gathered. -/
def gatherUntil (ends : Char → Bool) (unified : Bool) (missing : Problem) :
    Nat → Nat → List Char → Scan (List Char)
  | 0, _, _ => do raise (← get).start missing
  | count + 1, chunk, gathered => do
    match ← peek 0 with
    | none => raise (← get).start missing
    | some character =>
      if ends character then return (← sliceFrom chunk).reverse ++ gathered
      else if character == '&' then
        let plain ← sliceFrom chunk
        let decoded ← readEntity
        gatherUntil ends unified missing count (← get).pos (decoded :: (plain.reverse ++ gathered))
      else if Blank.isLineBreak character then
        let plain ← sliceFrom chunk
        let terminator ← passLineBreak unified
        gatherUntil ends unified missing count (← get).pos
          (terminator.reverse ++ (plain.reverse ++ gathered))
      else
        advance character.utf8Size
        gatherUntil ends unified missing count chunk gathered

/-- A text between tags ends before a tag and before a brace. -/
def endsMarkup (character : Char) : Bool := character == '<' || character == '\x7b'

/-- Text between tags is gathered up to a tag or a hole. -/
theorem gatherMarkup_eq (count chunk : Nat) (gathered : List Char) :
    gatherMarkup count chunk gathered =
      gatherUntil endsMarkup true .unterminatedMarkup count chunk gathered := by
  induction count generalizing chunk gathered with
  | zero => rfl
  | succ count inductionHypothesis =>
      conv_lhs => simp only [gatherMarkup, inductionHypothesis]
      rfl

/-- The text of an attribute is gathered up to its quote. -/
theorem gatherAttribute_eq (quote : Char) (count chunk : Nat) (gathered : List Char) :
    gatherAttribute quote count chunk gathered =
      gatherUntil (· == quote) false .unterminatedString count chunk gathered := by
  induction count generalizing chunk gathered with
  | zero => rfl
  | succ count inductionHypothesis =>
      conv_lhs => simp only [gatherAttribute, inductionHypothesis]
      rfl

/-- The cursor has moved on by so many bytes, perhaps into another line, and nothing else has
changed. -/
def State.Moves (state : State) (size : Nat) (after : State) : Prop :=
  ∃ line lineStart, lineStart ≤ state.pos + size ∧
    after = { state with pos := state.pos + size, line := line, lineStart := lineStart }

theorem State.Moves.trans {first middle last : State} {size more : Nat}
    (moves : first.Moves size middle) (goesOn : middle.Moves more last) :
    first.Moves (size + more) last := by
  obtain ⟨_, _, -, rfl⟩ := moves
  obtain ⟨line, lineStart, begun, rfl⟩ := goesOn
  exact ⟨line, lineStart, by simpa [Nat.add_assoc] using begun, by simp [Nat.add_assoc]⟩

/-- The cursor is moved on within its line. -/
theorem State.moves_advance (size : Nat) (begun : state.lineStart ≤ state.pos) :
    state.Moves size { state with pos := state.pos + size } :=
  ⟨_, _, Nat.le_add_right_of_le begun, rfl⟩

/-- The cursor is moved on to the start of a line. -/
theorem State.moves_startLine (state : State) (size : Nat) :
    state.Moves size
      { state with
        pos := state.pos + size, line := state.line + 1, lineStart := state.pos + size } :=
  ⟨_, _, Nat.le_refl _, rfl⟩

/-- A line terminator of one character is passed and stays what it is. -/
theorem passLineBreak_eq {character : Char} {rest : List Char} (unified : Bool)
    (parted : setting.source.At state.pos before (character :: rest))
    (ends : Blank.isLineBreak character = true)
    (single : ¬(character = '\r' ∧ rest.head? = some '\n')) :
    passLineBreak unified setting state = .ok [character]
      { state with
        pos := state.pos + character.utf8Size
        line := state.line + 1
        lineStart := state.pos + character.utf8Size } := by
  have first : setting.source.charAt? state.pos = some character := parted.charAt?
  have sliced : setting.source.slice? state.pos (state.pos + character.utf8Size) =
      some [character] := by
    have whole : setting.source.At state.pos before ([character] ++ rest) := parted
    exact Source.slice?_eq whole
  have length : (if some character == some '\r' &&
        setting.source.charAt? (state.pos + 1) == some '\n' then 2
      else if some character == some '\r' || some character == some '\n' then 1 else 3) =
      character.utf8Size := by
    simp only [Blank.isLineBreak, Bool.or_eq_true, beq_iff_eq] at ends
    rcases ends with ((rfl | rfl) | rfl) | rfl
    · rfl
    · have other : (setting.source.charAt? (state.pos + 1) == some '\n') = false := by
        simpa [parted.next.charAt?, show ('\r').utf8Size = 1 by decide] using
          parted.next.charAt? ▸ fun same => single ⟨rfl, same⟩
      rw [other]
      rfl
    · rfl
    · rfl
  have one : (character.utf8Size == 2) = false := by
    simp only [Blank.isLineBreak, Bool.or_eq_true, beq_iff_eq] at ends
    rcases ends with ((rfl | rfl) | rfl) | rfl <;> decide
  rw [eq_ok_iff_succeeds]
  simp only [passLineBreak, Succeeds.bind_iff, succeeds_get, succeeds_peek, Nat.add_zero, first,
    length, succeeds_startLine, one, Bool.false_and, Bool.false_eq_true, if_false]
  rw [succeeds_slice]
  exact ⟨_, sliced, rfl, rfl⟩

variable {ends : Char → Bool} {parts : List (List Char)} {value : List Char}

/-- No part is empty. -/
theorem length_le_flatten (writes : List.Forall₂ (Writes ends) parts value) :
    parts.length ≤ byteLength parts.flatten := by
  induction writes with
  | nil => exact Nat.zero_le _
  | @cons part character parts value first _ inductionHypothesis =>
      have filled : 0 < byteLength part := by
        cases first <;> exact Source.byteLength_pos (List.cons_ne_nil _ _)
      rw [List.length_cons, List.flatten_cons, byteLength_append]
      omega

/-- What is written does not begin with what would end it. -/
theorem exists_flatten_eq (writes : List.Forall₂ (Writes ends) parts value) (filled : value ≠ [])
    (other : ends '&' = false) : ∃ character rest, parts.flatten = character :: rest ∧
      ends character = false := by
  cases writes with
  | nil => exact absurd rfl filled
  | cons first rest =>
      cases first with
      | itself goesOn _ => exact ⟨_, _, rfl, goesOn⟩
      | reference _ => exact ⟨_, _, rfl, other⟩

/-- What has been passed but not gathered comes first, then what the parts stand for. -/
theorem gatherUntil_succeeds {unified : Bool} {missing : Problem} {count chunk : Nat}
    {pending : List Char} (state : State) (gathered : List Char)
    (writes : List.Forall₂ (Writes ends) parts value)
    (parted : setting.source.At state.pos before (parts.flatten ++ following))
    (stops : ∃ character ∈ following.head?, ends character = true)
    (single : ¬LineEnding.Paired (parts.flatten ++ following)) (enough : parts.length < count)
    (passed : setting.source.slice? chunk state.pos = some pending)
    (begun : state.lineStart ≤ state.pos) (other : ends '&' = false) :
    Succeeds (gatherUntil ends unified missing count chunk gathered) setting state
      fun found after => found = (pending ++ value).reverse ++ gathered ∧
        state.Moves (byteLength parts.flatten) after := by
  induction writes generalizing state before count chunk pending gathered with
  | nil =>
      obtain ⟨count, rfl⟩ := Nat.exists_eq_add_of_lt enough
      obtain ⟨character, heads, ended⟩ := stops
      have found : setting.source.charAt? state.pos = some character := by
        rw [parted.charAt?]
        exact heads
      simp only [gatherUntil, Succeeds.bind_iff, succeeds_peek, Nat.add_zero, found, ended, if_true,
        sliceFrom, succeeds_get, succeeds_slice, succeeds_pure]
      exact ⟨pending, passed, by simp, state.line, state.lineStart, begun, rfl⟩
  | @cons part character parts value first rest inductionHypothesis =>
      obtain ⟨count, rfl⟩ := Nat.exists_eq_add_one_of_ne_zero (Nat.ne_zero_of_lt enough)
      have fewer : parts.length < count := by simpa using enough
      rw [List.flatten_cons, List.append_assoc] at parted single
      have size : byteLength (part :: parts).flatten = byteLength part + byteLength parts.flatten := by
        simp
      rw [size]
      cases first with
      | itself goesOn plain =>
          have found : setting.source.charAt? state.pos = some character := parted.charAt?
          have alone : ¬(character = '\r' ∧ (parts.flatten ++ following).head? = some '\n') ∧
              ¬LineEnding.Paired (parts.flatten ++ following) := by
            simpa only [List.singleton_append, LineEnding.paired_cons, not_or] using single
          have sliced := Source.slice?_append passed (Source.slice?_eq parted)
          simp only [gatherUntil, Succeeds.bind_iff, succeeds_peek, Nat.add_zero, found, goesOn,
            Bool.false_eq_true, if_false, beq_iff_eq, plain]
          split
          · next terminates =>
              let later : State :=
                { state with
                  pos := state.pos + character.utf8Size
                  line := state.line + 1
                  lineStart := state.pos + character.utf8Size }
              have gathers := inductionHypothesis later
                ([character].reverse ++ (pending.reverse ++ gathered)) parted.next alone.2 fewer
                (slice?_self parted.next) (Nat.le_refl _)
              simp only [Succeeds.bind_iff, sliceFrom, succeeds_get, succeeds_slice,
                succeeds_of_eq_ok (passLineBreak_eq unified parted terminates alone.1)]
              refine ⟨pending, passed, gathers.mono fun found after met => ?_⟩
              obtain ⟨same, moves⟩ := met
              refine ⟨?_, ?_⟩
              · simp [same]
              · exact (state.moves_startLine _).trans moves
          · have gathers := inductionHypothesis { state with pos := state.pos + character.utf8Size }
              gathered parted.next alone.2 fewer sliced (Nat.le_add_right_of_le begun)
            rw [Succeeds.bind_iff, succeeds_advance]
            refine gathers.mono fun found after met => ?_
            obtain ⟨same, moves⟩ := met
            refine ⟨?_, ?_⟩
            · simp [same]
            · exact (state.moves_advance _ begun).trans moves
      | @reference name character refers =>
          have found : setting.source.charAt? state.pos = some '&' := parted.charAt?
          have alone : ¬LineEnding.Paired (parts.flatten ++ following) := fun paired =>
            single (paired.trans (List.suffix_append _ _).isInfix)
          have gathers := inductionHypothesis
            { state with pos := state.pos + byteLength (reference name) }
            (character :: (pending.reverse ++ gathered)) parted.append alone fewer
            (slice?_self parted.append) (Nat.le_add_right_of_le begun)
          simp only [gatherUntil, Succeeds.bind_iff, succeeds_peek, Nat.add_zero, found, other,
            Bool.false_eq_true, if_false, beq_self_eq_true, if_true, sliceFrom, succeeds_get,
            succeeds_slice, succeeds_of_eq_ok (readEntity_eq refers parted)]
          refine ⟨pending, passed, gathers.mono fun found after met => ?_⟩
          obtain ⟨same, moves⟩ := met
          refine ⟨?_, ?_⟩
          · simp [same]
          · exact (state.moves_advance _ begun).trans moves

end Gathering

section Tokens

/-- A stage of a reading: the current token, the open constructs and the rest of the text. -/
structure Stage where
  kind : Kind
  value : Value
  contexts : List Context
  exprAllowed : Bool
  rest : List Char

namespace Stage

/-- The innermost open construct. -/
def context (stage : Stage) : Context := stage.contexts.headD .braceStatement

end Stage

/-- A state is at a stage, outside of types, and no comment waits for a node. -/
structure State.Stands (setting : Setting) (stage : Stage) (state : State) : Prop where
  kind : state.kind = stage.kind
  value : state.value = stage.value
  contexts : state.contexts = stage.contexts
  exprAllowed : state.exprAllowed = stage.exprAllowed
  rest : ∃ before, setting.source.At state.pos before stage.rest
  begun : state.lineStart ≤ state.pos
  untyped : state.inType = false
  leading : state.leading = []
  trailing : state.trailing = []

/-- A state stands at a stage with a token that has been read. -/
structure State.On (setting : Setting) (stage : Stage) (state : State) : Prop
    extends state.Stands setting stage where
  spelled : ∃ text, setting.source.slice? state.start state.stop = some text

variable {stage after : Stage}

/-- The cursor has moved on, up to the given rest of the text. -/
theorem State.Stands.moved (stands : state.Stands setting stage) {text rest : List Char}
    {last : State} (same : stage.rest = text ++ rest)
    (moves : state.Moves (byteLength text) last) :
    last.Stands setting { stage with rest := rest } ∧
      setting.source.slice? state.pos last.pos = some text ∧ last.start = state.start := by
  obtain ⟨line, lineStart, begun, rfl⟩ := moves
  obtain ⟨before, parted⟩ := stands.rest
  rw [same] at parted
  exact ⟨{ stands with rest := ⟨_, parted.append⟩, begun }, Source.slice?_eq parted, rfl⟩

theorem State.Stands.context (stands : state.Stands setting stage) : state.context = stage.context :=
  congrArg (List.headD · _) stands.contexts

/-- The cursor has moved behind a character. -/
theorem State.Stands.advanced {character : Char} {rest : List Char}
    (stands : state.Stands setting stage) (heads : stage.rest = character :: rest)
    (narrow : character.utf8Size = 1) :
    State.Stands setting { stage with rest := rest } { state with pos := state.pos + 1 } ∧
      setting.source.slice? state.pos (state.pos + 1) = some [character] := by
  have split : stage.rest = [character] ++ rest := heads
  have size : byteLength [character] = 1 := by simp [narrow]
  have placed := stands.moved split (State.moves_advance _ stands.begun)
  rw [size] at placed
  exact ⟨placed.1, placed.2.1⟩

/-- What opens or closes, and whether an expression may follow, is decided by a kind of token after
a kind of token. -/
def Shifts (setting : Setting) (stage : Stage) (kind : Kind) (contexts : List Context)
    (allowed : Bool) : Prop :=
  ∀ middle : State, middle.kind = kind → middle.contexts = stage.contexts →
    nest stage.kind setting middle =
      .ok () { middle with contexts := contexts, exprAllowed := allowed }

/-- A token ends at the cursor. -/
theorem finishToken_succeeds {kind : Kind} {value : Value} {contexts : List Context} {allowed : Bool}
    (stands : state.Stands setting stage)
    (sliced : ∃ text, setting.source.slice? state.start state.pos = some text)
    (shifts : Shifts setting stage kind contexts allowed) :
    Succeeds (finishToken kind value) setting state
      fun _ last => last.On setting ⟨kind, value, contexts, allowed, stage.rest⟩ := by
  simp only [finishToken, Succeeds.bind_iff, succeeds_position, succeeds_get, succeeds_modify]
  have nested := shifts { state with stop := state.pos, stopLoc := state.position, kind, value } rfl
    stands.contexts
  refine ⟨stands.begun, ?_⟩
  rw [stands.kind, succeeds_of_eq_ok nested]
  exact { stands with kind := rfl, value := rfl, contexts := rfl, exprAllowed := rfl, spelled := sliced }

/-- No blank and no comment begins with a character before the given text. -/
def Solid (character : Char) (rest : List Char) : Prop :=
  Blank.isBlank character = false ∧
    (character = '/' → rest.head? ≠ some '*' ∧ rest.head? ≠ some '/')

/-- Nothing is passed over before a slash that begins no comment. -/
theorem skipSpace_solid {character : Char} {rest : List Char}
    (parted : setting.source.At state.pos before (character :: rest))
    (solid : Solid character rest) : skipSpace setting state = .ok () state := by
  obtain ⟨blank, slash⟩ := solid
  by_cases same : character = '/'
  · subst same
    have found : setting.source.charAt? state.pos = some '/' := parted.charAt?
    have after : setting.source.charAt? (state.pos + 1) = rest.head? := parted.next.charAt?
    have others := slash rfl
    rw [eq_ok_iff_succeeds]
    simp only [skipSpace, Succeeds.bind_iff, succeeds_remaining]
    cases setting.source.size - state.pos with
    | zero => simp [passBlanks]
    | succ count =>
        simp only [passBlanks, Succeeds.bind_iff, succeeds_peek, Nat.add_zero, found]
        rw [if_neg (by decide), if_neg (by decide), if_pos (by decide)]
        simp only [Succeeds.bind_iff, succeeds_peek, after]
        split
        · next heads => exact absurd heads others.1
        · next heads => exact absurd heads others.2
        · exact ⟨trivial, rfl⟩
  · refine skipSpace_eq fun found heads => ?_
    rw [parted.charAt?] at heads
    cases heads
    exact ⟨blank, same⟩

/-- A blank is passed over before what is none. -/
theorem skipSpace_blank {character : Char} {rest : List Char}
    (parted : setting.source.At state.pos before (' ' :: character :: rest))
    (solid : Solid character rest) :
    skipSpace setting state = .ok () { state with pos := state.pos + 1 } := by
  let behind : State := { state with pos := state.pos + 1 }
  have skips : skipSpace setting behind = .ok () behind := skipSpace_solid parted.next solid
  have found : setting.source.charAt? state.pos = some ' ' := parted.charAt?
  have size := parted.add_eq_size
  rw [byteLength_cons, show (' ').utf8Size = 1 by decide] at size
  obtain ⟨count, left⟩ : ∃ count, setting.source.size - state.pos = count + 1 :=
    ⟨setting.source.size - state.pos - 1, by omega⟩
  have fewer : count = setting.source.size - (state.pos + 1) := by omega
  rw [eq_ok_iff_succeeds] at skips ⊢
  simp only [skipSpace, Succeeds.bind_iff, succeeds_remaining] at skips ⊢
  rw [left]
  simp only [passBlanks, Succeeds.bind_iff, succeeds_peek, Nat.add_zero, found]
  rw [if_neg (by decide), if_pos (by decide), Succeeds.bind_iff, succeeds_advance, fewer]
  exact skips

/-- A token begins with a character behind what is passed over first: nothing or a blank. -/
inductive Stage.Leads (stage : Stage) (character : Char) (rest : List Char) : Prop where
  | inside (keeps : stage.context.keepsBlanks = true) (heads : stage.rest = character :: rest)
  | directly (heads : stage.rest = character :: rest) (solid : Solid character rest)
  | blank (skips : stage.context.keepsBlanks = false) (heads : stage.rest = ' ' :: character :: rest)
      (solid : Solid character rest)

/-- The next token begins behind what is passed over. -/
theorem nextToken_succeeds {character : Char} {rest : List Char}
    (stands : state.Stands setting stage) (leads : stage.Leads character rest)
    (outside : stage.context ≠ .quoteTemplate)
    (reads : ∀ (begun : State) (resume : Scan Unit),
      begun.Stands setting { stage with rest := character :: rest } → begun.start = begun.pos →
        Succeeds (readToken character resume) setting begun fun _ last => last.On setting after) :
    Succeeds nextToken setting state fun _ last => last.On setting after := by
  have fetches (skipped : State) (resume : Scan Unit)
      (here : skipped.Stands setting { stage with rest := character :: rest }) :
      Succeeds (fetchToken stage.context resume) setting skipped
        fun _ last => last.On setting after := by
    obtain ⟨before, parted⟩ := here.rest
    have found : setting.source.charAt? skipped.starting.pos = some character := parted.charAt?
    simp only [fetchToken, Succeeds.bind_iff, succeeds_of_eq_ok (beginToken_eq setting here.begun),
      succeeds_peek, Nat.add_zero, found]
    rw [if_neg (by simpa using outside)]
    exact reads skipped.starting resume { here with } rfl
  obtain ⟨before, parted⟩ := stands.rest
  simp only [nextToken, Succeeds.bind_iff, succeeds_remaining, nextTokenWithin, succeeds_get,
    stands.context]
  cases leads with
  | inside keeps heads =>
      rw [if_neg (by simp [keeps])]
      exact fetches state _ { stands with rest := ⟨before, heads ▸ parted⟩ }
  | directly heads solid =>
      have here : state.Stands setting { stage with rest := character :: rest } :=
        { stands with rest := ⟨before, heads ▸ parted⟩ }
      split
      · rw [Succeeds.bind_iff, succeeds_of_eq_ok (skipSpace_solid (heads ▸ parted) solid)]
        exact fetches state _ here
      · exact fetches state _ here
  | blank skips heads solid =>
      rw [if_pos (by simp [skips]), Succeeds.bind_iff,
        succeeds_of_eq_ok (skipSpace_blank (heads ▸ parted) solid)]
      exact fetches _ _ (stands.advanced heads (by decide)).1

/-- The current token enters the record, and nothing else is different. -/
theorem State.On.passed (on : state.On setting stage) :
    state.recordToken.passToken.Stands setting stage := by
  unfold State.recordToken
  split <;> exact { on with }

section Marks

variable {character : Char} {rest : List Char} {kind : Kind} {contexts : List Context}
  {allowed : Bool}

theorem Solid.mark (plain : Blank.isBlank character = false) (other : character ≠ '/') :
    Solid character rest := ⟨plain, fun same => absurd same other⟩

/-- A mark of one byte is a token. -/
theorem finishMark_succeeds (stands : state.Stands setting stage) (starts : state.start = state.pos)
    (heads : stage.rest = character :: rest) (narrow : character.utf8Size = 1)
    (shifts : Shifts setting stage kind contexts allowed) :
    Succeeds (finishMark kind 1) setting state
      fun _ last => last.On setting ⟨kind, .none, contexts, allowed, rest⟩ := by
  obtain ⟨moved, sliced⟩ := stands.advanced heads narrow
  have spelled : setting.source.slice? state.start (state.pos + 1) = some [character] := by
    rw [starts]
    exact sliced
  simp only [finishMark, Succeeds.bind_iff, succeeds_advance]
  exact finishToken_succeeds moved ⟨_, spelled⟩ shifts

/-- An operator of one byte is a token that has its text. -/
theorem finishOperator_succeeds (stands : state.Stands setting stage)
    (starts : state.start = state.pos) (heads : stage.rest = character :: rest)
    (narrow : character.utf8Size = 1) (shifts : Shifts setting stage kind contexts allowed) :
    Succeeds (finishOperator kind 1) setting state
      fun _ last => last.On setting
        ⟨kind, .text (String.ofList [character]), contexts, allowed, rest⟩ := by
  obtain ⟨moved, sliced⟩ := stands.advanced heads narrow
  have spelled : setting.source.slice? state.start (state.pos + 1) = some [character] := by
    rw [starts]
    exact sliced
  simp only [finishOperator, Succeeds.bind_iff, succeeds_get, succeeds_slice, succeeds_moveTo]
  exact ⟨_, sliced, finishToken_succeeds moved ⟨_, spelled⟩ shifts⟩

/-- No mark of markup is a keyword. -/
theorem isKeyword_mark :
    Kind.jsxTagStart.isKeyword = false ∧ Kind.jsxTagEnd.isKeyword = false ∧
      Kind.jsxName.isKeyword = false ∧ Kind.jsxText.isKeyword = false ∧
        Kind.string.isKeyword = false ∧ Kind.eq.isKeyword = false ∧
          Kind.slash.isKeyword = false ∧ Kind.eof.isKeyword = false := by decide

/-- Most tokens leave the open constructs as they are. -/
theorem shifts_plain (markup : setting.jsx = true)
    (plain : kind ∈ [.jsxName, .jsxText, .string, .eq, .eof] ∨
      kind = .slash ∧ stage.kind ≠ .jsxTagStart) :
    Shifts setting stage kind stage.contexts kind.beforeExpr := by
  intro middle same opened
  rw [eq_ok_iff_succeeds]
  rcases plain with listed | ⟨rfl, other⟩
  · simp only [List.mem_cons, List.not_mem_nil, or_false] at listed
    rcases listed with rfl | rfl | rfl | rfl | rfl <;>
      simp [nest, nestMarkup, nestPlain, allowExpr, markup, same, opened, isKeyword_mark]
  · simp [nest, nestMarkup, nestPlain, allowExpr, markup, same, opened, other, isKeyword_mark]

/-- The mark of a tag opens the tag, and an expression around it. -/
theorem shifts_tagStart (markup : setting.jsx = true) : Shifts setting stage .jsxTagStart
    (.jsxOpenTag :: .jsxExpression :: stage.contexts) false := by
  intro middle same opened
  rw [eq_ok_iff_succeeds]
  simp [nest, nestMarkup, nestPlain, openContext, markup, same, opened, isKeyword_mark]

/-- The closing bracket of an opening tag closes the tag. -/
theorem shifts_tagEnd {inner : List Context} (markup : setting.jsx = true)
    (opened : stage.contexts = .jsxOpenTag :: inner) (other : stage.kind ≠ .slash) :
    Shifts setting stage .jsxTagEnd inner true := by
  intro middle same contexts
  rw [eq_ok_iff_succeeds]
  simp [nest, nestMarkup, nestPlain, closeTag, markup, same, contexts, opened, other, isKeyword_mark]

/-- The closing bracket of a tag closes an element if the tag does. -/
theorem shifts_elementEnd {tag element : Context} {inner : List Context} (markup : setting.jsx = true)
    (opened : stage.contexts = tag :: element :: inner)
    (closes : tag = .jsxOpenTag ∧ stage.kind = .slash ∨ tag = .jsxCloseTag) :
    Shifts setting stage .jsxTagEnd inner (inner.headD .braceStatement == .jsxExpression) := by
  intro middle same contexts
  rw [eq_ok_iff_succeeds]
  rcases closes with ⟨rfl, slash⟩ | rfl
  · cases inner <;>
      simp [nest, nestMarkup, nestPlain, closeTag, markup, same, contexts, opened, slash]
  · cases inner <;>
      simp [nest, nestMarkup, nestPlain, closeTag, markup, same, contexts, opened, isKeyword_mark]

/-- A slash at the start of a tag makes it a closing tag. -/
theorem shifts_closing (markup : setting.jsx = true) (begun : stage.kind = .jsxTagStart) :
    Shifts setting stage .slash (.jsxCloseTag :: stage.contexts.drop 2) false := by
  intro middle same contexts
  rw [eq_ok_iff_succeeds]
  simp [nest, nestMarkup, markup, same, contexts, begun]

/-- Outside of types a token is read by the rules of markup. -/
theorem succeeds_readToken {resume : Scan Unit} {post : Unit → State → Prop}
    (stands : state.Stands setting stage) (markup : setting.jsx = true) :
    Succeeds (readToken character resume) setting state post ↔
      Succeeds (readMarkup character resume) setting state post := by
  simp [readToken, stands.untyped, markup]

/-- A tag begins with a mark of its own where an expression may start. -/
theorem readTagStart_succeeds {resume : Scan Unit} (stands : state.Stands setting stage)
    (starts : state.start = state.pos) (heads : stage.rest = '<' :: rest)
    (allows : stage.exprAllowed = true) (markup : setting.jsx = true) :
    Succeeds (readToken '<' resume) setting state fun _ last => last.On setting
      ⟨.jsxTagStart, .none, .jsxOpenTag :: .jsxExpression :: stage.contexts, false, rest⟩ := by
  have finishes := finishMark_succeeds stands starts heads (by decide) (shifts_tagStart markup)
  have expr : state.exprAllowed = true := stands.exprAllowed.trans allows
  rw [succeeds_readToken stands markup]
  simp only [readMarkup, Succeeds.bind_iff, succeeds_get]
  split
  · simpa [readMarkupText, expr] using finishes
  · simpa [expr, show Identifier.isStart '<' = false by decide +kernel] using finishes

/-- The marks of a tag begin no name. -/
theorem isStart_mark : Identifier.isStart '<' = false ∧ Identifier.isStart '>' = false ∧
    Identifier.isStart '/' = false ∧ Identifier.isStart '=' = false ∧
      Identifier.isStart '"' = false := by decide +kernel

/-- The innermost open construct is a tag. -/
def Stage.InTag (stage : Stage) : Prop :=
  stage.context = .jsxOpenTag ∨ stage.context = .jsxCloseTag

/-- A name in a tag goes on up to a character that belongs to no name. -/
theorem readName_succeeds {resume : Scan Unit} {name : List Char}
    (stands : state.Stands setting stage) (starts : state.start = state.pos)
    (heads : stage.rest = character :: (name ++ rest)) (inTag : stage.InTag)
    (begins : Identifier.isStart character = true)
    (parts : ∀ part ∈ name, (Identifier.isPart part || part == '-') = true)
    (stops : ∀ other ∈ rest.head?, (Identifier.isPart other || other == '-') = false)
    (markup : setting.jsx = true) :
    Succeeds (readToken character resume) setting state fun _ last => last.On setting
      ⟨.jsxName, .text (String.ofList (character :: name)), stage.contexts, false, rest⟩ := by
  obtain ⟨before, parted⟩ := stands.rest
  have whole : stage.rest = (character :: name) ++ rest := heads
  rw [heads] at parted
  have inner := parted.next
  have size := inner.add_eq_size
  have enough := length_le_byteLength name
  rw [byteLength_append] at size
  have skips : setting.source.skipWhile (fun part => Identifier.isPart part || part == '-')
      (state.pos + character.utf8Size) = state.pos + byteLength (character :: name) := by
    rw [Source.skipWhile, passOver_eq inner parts (by omega) (.inr stops), byteLength_cons,
      Nat.add_assoc]
  obtain ⟨moved, sliced, -⟩ :=
    stands.moved whole (State.moves_advance (byteLength (character :: name)) stands.begun)
  have spelled : setting.source.slice? state.start (state.pos + byteLength (character :: name)) =
      some (character :: name) := by
    rw [starts]
    exact sliced
  have context : state.context ≠ .jsxExpression := by
    rcases inTag with tag | tag <;> simp [stands.context, tag]
  have named : (state.context == .jsxOpenTag || state.context == .jsxCloseTag) = true := by
    rcases inTag with tag | tag <;> simp [stands.context, tag]
  rw [succeeds_readToken stands markup]
  simp only [readMarkup, Succeeds.bind_iff, succeeds_get]
  rw [if_neg (by simpa using context), if_pos (by simp only [named, begins, Bool.and_self])]
  simp only [readMarkupName, Succeeds.bind_iff, succeeds_get, succeeds_source, skips, succeeds_moveTo,
    succeeds_slice]
  exact ⟨_, sliced, finishToken_succeeds moved ⟨_, spelled⟩ (shifts_plain markup (.inl (by decide)))⟩

/-- The end of a tag. -/
theorem readTagEnd_succeeds {resume : Scan Unit} (stands : state.Stands setting stage)
    (starts : state.start = state.pos) (heads : stage.rest = '>' :: rest) (inTag : stage.InTag)
    (markup : setting.jsx = true) (shifts : Shifts setting stage .jsxTagEnd contexts allowed) :
    Succeeds (readToken '>' resume) setting state fun _ last => last.On setting
      ⟨.jsxTagEnd, .none, contexts, allowed, rest⟩ := by
  have finishes := finishMark_succeeds stands starts heads (by decide) shifts
  rw [succeeds_readToken stands markup]
  simp only [readMarkup, Succeeds.bind_iff, succeeds_get, stands.context]
  rcases inTag with tag | tag <;> simpa [tag, isStart_mark] using finishes

/-- A slash in a tag, before the name or the end of it. -/
theorem readSlash_succeeds {resume : Scan Unit} (stands : state.Stands setting stage)
    (starts : state.start = state.pos) (heads : stage.rest = '/' :: rest) (inTag : stage.InTag)
    (other : rest.head? ≠ some '=') (divides : stage.exprAllowed = false)
    (markup : setting.jsx = true) (shifts : Shifts setting stage .slash contexts allowed) :
    Succeeds (readToken '/' resume) setting state fun _ last => last.On setting
      ⟨.slash, .text "/", contexts, allowed, rest⟩ := by
  have finishes := finishOperator_succeeds stands starts heads (by decide) shifts
  have expr : state.exprAllowed = false := stands.exprAllowed.trans divides
  obtain ⟨before, parted⟩ := stands.rest
  rw [heads] at parted
  have after : setting.source.hasAt (state.pos + 1) '=' = false := by
    simpa [Source.hasAt] using (parted.next.charAt? : setting.source.charAt? (state.pos + 1) = _) ▸ other
  rw [succeeds_readToken stands markup]
  simp only [readMarkup, Succeeds.bind_iff, succeeds_get, stands.context]
  rcases inTag with tag | tag <;>
    simpa [tag, isStart_mark, readPlain, readMark, readSlash, expr, after] using finishes

/-- The sign between the name and the value of an attribute. -/
theorem readEq_succeeds {resume : Scan Unit} (stands : state.Stands setting stage)
    (starts : state.start = state.pos) (heads : stage.rest = '=' :: rest) (inTag : stage.InTag)
    (other : rest.head? ≠ some '=' ∧ rest.head? ≠ some '>') (markup : setting.jsx = true) :
    Succeeds (readToken '=' resume) setting state fun _ last => last.On setting
      ⟨.eq, .text "=", stage.contexts, true, rest⟩ := by
  have shifts : Shifts setting stage .eq stage.contexts true := shifts_plain markup (.inl (by decide))
  have finishes := finishOperator_succeeds stands starts heads (by decide) shifts
  obtain ⟨before, parted⟩ := stands.rest
  rw [heads] at parted
  have found : setting.source.charAt? (state.pos + 1) = rest.head? := parted.next.charAt?
  rw [succeeds_readToken stands markup]
  simp only [readMarkup, Succeeds.bind_iff, succeeds_get, stands.context]
  rcases inTag with tag | tag <;>
    simpa [tag, isStart_mark, readPlain, readMark, readEqualsBang, Source.hasAt, found, other]
      using finishes

/-- A text between tags is a token that holds what it stands for. -/
theorem readText_succeeds {resume : Scan Unit} {parts : List (List Char)} {value : List Char}
    (stands : state.Stands setting stage) (starts : state.start = state.pos)
    (writes : List.Forall₂ (Writes endsMarkup) parts value)
    (whole : stage.rest = parts.flatten ++ rest) (filled : endsMarkup character = false)
    (stops : ∃ other ∈ rest.head?, endsMarkup other = true)
    (single : ¬LineEnding.Paired stage.rest) (inside : stage.context = .jsxExpression)
    (markup : setting.jsx = true) :
    Succeeds (readToken character resume) setting state fun _ last => last.On setting
      ⟨.jsxText, .text (String.ofList value), stage.contexts, true, rest⟩ := by
  obtain ⟨before, parted⟩ := stands.rest
  have size := parted.add_eq_size
  have fewer := length_le_flatten writes
  obtain ⟨tag, brace⟩ : (character == '<') = false ∧ (character == '\x7b') = false := by
    simpa [endsMarkup] using filled
  rw [whole] at parted single size
  have behind : 0 < byteLength rest := by
    obtain ⟨other, found, -⟩ := stops
    exact Source.byteLength_pos fun empty => by simp [empty] at found
  rw [byteLength_append] at size
  have enough : parts.length < setting.source.size - state.pos := by omega
  have shifts : Shifts setting stage .jsxText stage.contexts true :=
    shifts_plain markup (.inl (by decide))
  rw [succeeds_readToken stands markup]
  simp only [readMarkup, Succeeds.bind_iff, succeeds_get, stands.context, inside]
  rw [if_pos (by decide)]
  simp only [readMarkupText, tag, brace, Succeeds.bind_iff, succeeds_get, Bool.false_and,
    Bool.or_false, Bool.false_eq_true, if_false, succeeds_remaining, gatherMarkup_eq]
  refine (gatherUntil_succeeds state [] writes parted stops single enough (slice?_self parted)
    stands.begun (by decide)).mono fun found after met => ?_
  obtain ⟨same, moves⟩ := met
  obtain ⟨moved, sliced, start⟩ := stands.moved whole moves
  have text : found.reverse = value := by simp [same]
  rw [text]
  exact finishToken_succeeds moved ⟨_, start.trans starts ▸ sliced⟩ shifts

/-- The value of an attribute between two quotes is a token that holds what it stands for. -/
theorem readAttribute_succeeds {resume : Scan Unit} {quote : Char} {parts : List (List Char)}
    {value : List Char} (stands : state.Stands setting stage) (starts : state.start = state.pos)
    (writes : List.Forall₂ (Writes (· == quote)) parts value)
    (whole : stage.rest = quote :: (parts.flatten ++ quote :: rest))
    (proper : quote = '"' ∨ quote = '\'') (single : ¬LineEnding.Paired stage.rest)
    (inside : stage.context = .jsxOpenTag) (markup : setting.jsx = true) :
    Succeeds (readToken quote resume) setting state fun _ last => last.On setting
      ⟨.string, .text (String.ofList value), stage.contexts, false, rest⟩ := by
  have narrow : quote.utf8Size = 1 := by rcases proper with rfl | rfl <;> decide
  have plain : Identifier.isStart quote = false ∧ (quote == '>') = false ∧
      ('&' == quote) = false := by
    rcases proper with rfl | rfl <;> decide +kernel
  have quotes : (quote == '"' || quote == '\'') = true := by
    rcases proper with rfl | rfl <;> rfl
  obtain ⟨opened, opens⟩ := stands.advanced whole narrow
  obtain ⟨before, parted⟩ := opened.rest
  rw [whole, LineEnding.paired_cons, not_or] at single
  have size : state.pos + 1 + byteLength (parts.flatten ++ quote :: rest) = setting.source.size :=
    parted.add_eq_size
  have fewer := length_le_flatten writes
  rw [byteLength_append, byteLength_cons] at size
  have enough : parts.length < setting.source.size - (state.pos + 1) := by omega
  have shifts : Shifts setting stage .string stage.contexts false :=
    shifts_plain markup (.inl (by decide))
  rw [succeeds_readToken stands markup]
  simp only [readMarkup, Succeeds.bind_iff, succeeds_get, stands.context, inside, plain, quotes]
  rw [if_neg (by decide), if_neg (by decide), if_neg (by decide), if_pos (by decide)]
  simp only [readAttributeText, Succeeds.bind_iff, succeeds_advance, succeeds_get,
    succeeds_remaining, gatherAttribute_eq]
  refine (gatherUntil_succeeds { state with pos := state.pos + 1 } [] writes parted
    ⟨quote, rfl, beq_self_eq_true quote⟩ single.2 enough (slice?_self parted) opened.begun
    plain.2.2).mono fun found after met => ?_
  obtain ⟨same, moves⟩ := met
  obtain ⟨moved, sliced, start⟩ := opened.moved rfl moves
  obtain ⟨last, closes⟩ := moved.advanced rfl narrow
  have text : found.reverse = value := by simp [same]
  have begins : after.start = state.pos := start.trans starts
  have spelled := Source.slice?_append opens (Source.slice?_append sliced closes)
  rw [← begins] at spelled
  rw [text]
  exact finishToken_succeeds last ⟨_, spelled⟩ shifts

/-- The end of the text is a token where nothing else is left. -/
theorem next_end (on : state.On setting stage) (ended : stage.rest = [])
    (outside : stage.context = .braceStatement) (markup : setting.jsx = true) :
    Succeeds next setting state fun _ last =>
      last.On setting ⟨.eof, .none, stage.contexts, false, []⟩ := by
  have stands := on.passed
  obtain ⟨before, parted⟩ := stands.rest
  have found : setting.source.charAt? state.recordToken.passToken.pos = none := by
    rw [parted.charAt?, ended]
    rfl
  have shifts : Shifts setting stage .eof stage.contexts false :=
    shifts_plain markup (.inl (by decide))
  have begins := beginToken_eq setting stands.begun
  have skips : skipSpace setting state.recordToken.passToken = .ok () state.recordToken.passToken :=
    skipSpace_eq (found ▸ nofun)
  simp only [next, Succeeds.bind_iff, succeeds_modify, nextToken, succeeds_remaining, nextTokenWithin,
    succeeds_get, stands.context, outside]
  rw [if_pos (by decide), Succeeds.bind_iff, succeeds_of_eq_ok skips]
  simp only [fetchToken, Succeeds.bind_iff, succeeds_of_eq_ok begins, succeeds_peek, Nat.add_zero]
  rw [show state.recordToken.passToken.starting.pos = state.recordToken.passToken.pos from rfl, found]
  have starting : state.recordToken.passToken.starting.Stands setting stage := { stands with }
  rw [← ended]
  exact finishToken_succeeds starting ⟨_, slice?_self parted⟩ shifts

end Marks

end Tokens

end Lexer

end EcmaSyntax
