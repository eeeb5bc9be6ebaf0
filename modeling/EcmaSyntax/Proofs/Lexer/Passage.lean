import EcmaSyntax.Proofs.Lexer.Cursor
import EcmaSyntax.Proofs.Outcome

namespace EcmaSyntax

namespace Lexer

section Steps

variable {α : Type} {setting : Setting} {state : State}

@[simp] theorem meets_source {post : Source → State → Prop} :
    Meets source setting state post ↔ post setting.source state := Iff.rfl

@[simp] theorem meets_fault {reason : Fault} {post : α → State → Prop} :
    Meets (fault reason) setting state post ↔ False := by
  simp [fault, Failure.isFault]

/-- A slice is taken without moving on. -/
theorem slice_still (start stop : Nat) (setting : Setting) (state : State) :
    lastState (slice start stop setting state) = state := by
  have maintains : Maintains (· = state) (slice start stop) := by
    refine .bind (.still fun _ _ => rfl) fun source => ?_
    split
    · exact .still fun _ _ => rfl
    · exact .still fun _ _ => rfl
  exact maintains setting state rfl

theorem breaksBetween_still (start stop : Nat) (setting : Setting) (state : State) :
    lastState (breaksBetween start stop setting state) = state := by
  change lastState ((if _ then pure _ else fault _ : Scan Bool) setting state) = state
  split <;> rfl

@[simp] theorem meets_raise {pos : Nat} {problem : Problem} {post : α → State → Prop} :
    Meets (raise pos problem) setting state post ↔ True := by
  simp [raise, Meets.bind_iff, Failure.isFault]

@[simp] theorem meets_unexpected {pos : Option Nat} {post : α → State → Prop} :
    Meets (unexpected pos) setting state post ↔ True := by
  simp [unexpected, Meets.bind_iff]

@[simp] theorem meets_advance {count : Nat} {post : Unit → State → Prop} :
    Meets (advance count) setting state post ↔
      post () { state with pos := state.pos + count } := Iff.rfl

@[simp] theorem meets_moveTo {pos : Nat} {post : Unit → State → Prop} :
    Meets (moveTo pos) setting state post ↔ post () { state with pos := pos } := Iff.rfl

@[simp] theorem meets_startLine {pos : Nat} {post : Unit → State → Prop} :
    Meets (startLine pos) setting state post ↔
      post () { state with pos := pos, line := state.line + 1, lineStart := pos } := Iff.rfl

@[simp] theorem meets_peek {ahead : Nat} {post : Option Char → State → Prop} :
    Meets (peek ahead) setting state post ↔
      post (setting.source.charAt? (state.pos + ahead)) state := Iff.rfl

@[simp] theorem meets_peekIs {ahead : Nat} {character : Char} {post : Bool → State → Prop} :
    Meets (peekIs ahead character) setting state post ↔
      post (setting.source.hasAt (state.pos + ahead) character) state := Iff.rfl

@[simp] theorem meets_remaining {post : Nat → State → Prop} :
    Meets remaining setting state post ↔
      post (setting.source.size - state.pos) state := Iff.rfl

theorem meets_slice {start stop : Nat} {post : List Char → State → Prop} :
    Meets (slice start stop) setting state post ↔
      ∃ text, setting.source.slice? start stop = some text ∧ post text state := by
  simp only [slice, Meets.bind_iff, meets_source]
  split
  · next text same => simp [same]
  · next absent => simp [absent]

theorem meets_sliceFrom {start : Nat} {post : List Char → State → Prop} :
    Meets (sliceFrom start) setting state post ↔
      ∃ text, setting.source.slice? start state.pos = some text ∧ post text state := by
  simp only [sliceFrom, Meets.bind_iff, meets_get, meets_slice]

/-- Two boundaries in order have a text between them. -/
theorem sliceFrom_meets {start : Nat} (begins : setting.source.isBoundary start = true)
    (ordered : start ≤ state.pos) (here : setting.source.isBoundary state.pos = true) :
    Meets (sliceFrom start) setting state fun _ after => after = state := by
  obtain ⟨text, sliced⟩ := Source.slice?_isSome begins here ordered
  rw [meets_sliceFrom]
  exact ⟨text, sliced, rfl⟩

/-- A chunk that has been passed is added to what has been gathered. -/
theorem finishChunk_meets {chunk : Nat} {gathered : List Char}
    (begins : setting.source.isBoundary chunk = true) (ordered : chunk ≤ state.pos)
    (here : setting.source.isBoundary state.pos = true) :
    Meets (do return (← sliceFrom chunk).reverse ++ gathered) setting state
      fun _ after => after = state := by
  rw [Meets.bind_iff]
  exact sliceFrom_meets begins ordered here

theorem meets_checkRest {start : Nat} {post : Unit → State → Prop} :
    Meets (checkRest start) setting state post ↔
      setting.source.isBoundary start = true ∧ post () state := by
  simp only [checkRest, Meets.bind_iff, meets_source]
  cases boundary : setting.source.isBoundary start <;> simp

theorem meets_breaksBetween {start stop : Nat} {post : Bool → State → Prop} :
    Meets (breaksBetween start stop) setting state post ↔
      (start ≤ stop ∧ setting.source.isBoundary start = true ∧
        setting.source.isBoundary stop = true) ∧
      post (setting.source.anyBetween Blank.isLineBreak start stop) state := by
  simp only [breaksBetween, Meets.bind_iff, meets_source]
  split
  · next holds =>
      simp only [Bool.and_eq_true, decide_eq_true_eq, and_assoc] at holds
      simp [holds]
  · next fails =>
      simp only [Bool.and_eq_true, decide_eq_true_eq, and_assoc] at fails
      simp [fails]

theorem meets_position {post : Position → State → Prop} :
    Meets position setting state post ↔
      state.lineStart ≤ state.pos ∧ post state.position state := by
  simp only [position, Meets.bind_iff, meets_get]
  split
  · next holds => simp [holds]
  · next fails => simp [fails]

theorem meets_behind {count : Nat} {post : Nat → State → Prop} :
    Meets (behind count) setting state post ↔
      count ≤ state.pos ∧ post (state.pos - count) state := by
  simp only [behind, Meets.bind_iff, meets_get]
  split
  · next holds => simp [holds]
  · next fails => simp [fails]

@[simp] theorem succeeds_source {post : Source → State → Prop} :
    Succeeds source setting state post ↔ post setting.source state := Iff.rfl

@[simp] theorem succeeds_raise {pos : Nat} {problem : Problem} {post : α → State → Prop} :
    Succeeds (raise pos problem) setting state post ↔ False := Iff.rfl

@[simp] theorem succeeds_advance {count : Nat} {post : Unit → State → Prop} :
    Succeeds (advance count) setting state post ↔
      post () { state with pos := state.pos + count } := Iff.rfl

@[simp] theorem succeeds_moveTo {pos : Nat} {post : Unit → State → Prop} :
    Succeeds (moveTo pos) setting state post ↔ post () { state with pos := pos } := Iff.rfl

@[simp] theorem succeeds_startLine {pos : Nat} {post : Unit → State → Prop} :
    Succeeds (startLine pos) setting state post ↔
      post () { state with pos := pos, line := state.line + 1, lineStart := pos } := Iff.rfl

@[simp] theorem succeeds_peek {ahead : Nat} {post : Option Char → State → Prop} :
    Succeeds (peek ahead) setting state post ↔
      post (setting.source.charAt? (state.pos + ahead)) state := Iff.rfl

@[simp] theorem succeeds_peekIs {ahead : Nat} {character : Char} {post : Bool → State → Prop} :
    Succeeds (peekIs ahead character) setting state post ↔
      post (setting.source.hasAt (state.pos + ahead) character) state := Iff.rfl

@[simp] theorem succeeds_remaining {post : Nat → State → Prop} :
    Succeeds remaining setting state post ↔
      post (setting.source.size - state.pos) state := Iff.rfl

theorem succeeds_slice {start stop : Nat} {post : List Char → State → Prop} :
    Succeeds (slice start stop) setting state post ↔
      ∃ text, setting.source.slice? start stop = some text ∧ post text state := by
  simp only [slice, Succeeds.bind_iff, succeeds_source]
  split
  · next text same => simp [same]
  · next absent =>
      simp only [absent, reduceCtorEq, false_and, exists_const, iff_false]
      exact id

theorem succeeds_checkRest {start : Nat} {post : Unit → State → Prop} :
    Succeeds (checkRest start) setting state post ↔
      setting.source.isBoundary start = true ∧ post () state := by
  simp only [checkRest, Succeeds.bind_iff, succeeds_source]
  cases boundary : setting.source.isBoundary start with
  | true => simp
  | false =>
      simp only [Bool.false_eq_true, false_and, iff_false]
      exact id

theorem succeeds_position {post : Position → State → Prop} :
    Succeeds position setting state post ↔
      state.lineStart ≤ state.pos ∧ post state.position state := by
  simp only [position, Succeeds.bind_iff, succeeds_get]
  split
  · next holds => simp [holds]
  · next fails =>
      simp only [fails, false_and, iff_false]
      exact id

theorem succeeds_behind {count : Nat} {post : Nat → State → Prop} :
    Succeeds (behind count) setting state post ↔
      count ≤ state.pos ∧ post (state.pos - count) state := by
  simp only [behind, Succeeds.bind_iff, succeeds_get]
  split
  · next holds => simp [holds]
  · next fails =>
      simp only [fails, false_and, iff_false]
      exact id

end Steps

/-- The state with the cursor elsewhere. -/
def State.at (state : State) (cursor : Cursor) : State :=
  { state with pos := cursor.pos, lineStart := cursor.lineStart, line := cursor.line }

@[simp] theorem State.at_cursor (state : State) (cursor : Cursor) :
    (state.at cursor).cursor = cursor := rfl

/-- What of a state the inside of a token leaves as it is. -/
def State.outline (state : State) : State :=
  { state with
    pos := 0, lineStart := 0, line := 0
    containsEsc := false, containsOctal := false, octalPosition := none }

/-- A step only moves the cursor over a text. It may note that the text holds an escape. -/
structure Moved (source : Source) (text : List Char) (hidden : Nat) (first last : State) :
    Prop where
  passes : Passes source text hidden first.cursor last.cursor
  outline : last.outline = first.outline

namespace Moved

variable {source : Source} {text first second : List Char} {hidden later : Nat}
  {before middle after : State}

theorem stay (source : Source) (state : State) : Moved source [] 0 state state :=
  ⟨.stay _, rfl⟩

theorem trans (begins : Moved source first hidden before middle)
    (ends : Moved source second later middle after) :
    Moved source (first ++ second) (hidden + later) before after :=
  ⟨begins.passes.trans ends.passes, ends.outline.trans begins.outline⟩

/-- The character at the cursor, which ends no line, is passed. -/
theorem one (before : State) {character : Char}
    (found : source.charAt? before.pos = some character)
    (inside : Blank.isLineBreak character = false) :
    Moved source [character] 0 before { before with pos := before.pos + character.utf8Size } :=
  ⟨.one before.cursor found inside, rfl⟩

/-- The line terminator at the cursor is passed. -/
theorem terminator {ends : List Char} (found : source.terminatorAt? before.pos = some ends) :
    Moved source ends 0 before (before.at (before.cursor.newLine (byteLength ends))) :=
  ⟨.terminatorOne before.cursor found, rfl⟩

/-- A move passes its text byte by byte. -/
theorem pos_eq (moved : Moved source text hidden before after) :
    after.pos = before.pos + byteLength text := moved.passes.pos_eq

theorem le (moved : Moved source text hidden before after) : before.pos ≤ after.pos :=
  moved.passes.le

/-- A move that begins between characters ends between characters. -/
theorem boundary (moved : Moved source text hidden before after)
    (begins : source.isBoundary before.pos = true) : source.isBoundary after.pos = true :=
  moved.passes.boundary begins

/-- The text that a move has passed can be cut out. -/
theorem slice? (moved : Moved source text hidden before after)
    (begins : source.isBoundary before.pos = true) :
    source.slice? before.pos after.pos = some text :=
  moved.passes.slice? begins

/-- A cursor stays sound along every move. -/
theorem sound (moved : Moved source text hidden before after)
    (begins : before.cursor.Sound source) : after.cursor.Sound source :=
  moved.passes.sound begins

theorem start (moved : Moved source text hidden before after) : after.start = before.start := by
  show after.outline.start = before.outline.start
  rw [moved.outline]

theorem kind (moved : Moved source text hidden before after) : after.kind = before.kind := by
  show after.outline.kind = before.outline.kind
  rw [moved.outline]

theorem strict (moved : Moved source text hidden before after) : after.strict = before.strict := by
  show after.outline.strict = before.outline.strict
  rw [moved.outline]

/-- Notes about escapes are no part of the movement. -/
theorem note (moved : Moved source text hidden before after) {other : State}
    (cursor : other.cursor = after.cursor) (outline : other.outline = after.outline) :
    Moved source text hidden before other :=
  ⟨cursor ▸ moved.passes, outline.trans moved.outline⟩

end Moved

/-- The cursor counts the lines that a line feed or a carriage return ends, and no others. Its line
starts where it did, or after the byte that ends the last of them. -/
structure Returns (source : Source) (first last : State) : Prop where
  ordered : first.pos ≤ last.pos
  counted : last.line + breaks source first.pos = first.line + breaks source last.pos
  starts : (last.lineStart = first.lineStart ∧ breaks source last.pos = breaks source first.pos) ∨
    ∃ ending, last.lineStart = ending + 1 ∧ first.pos ≤ ending ∧
      source.isBoundary ending = true ∧ breaks source last.pos = breaks source ending + 1

namespace Returns

variable {source : Source} {first middle last : State} {character : Char} {more : List Char}

theorem stay (source : Source) (state : State) : Returns source state state :=
  ⟨Nat.le_refl _, rfl, .inl ⟨rfl, rfl⟩⟩

theorem trans (begins : Returns source first middle) (ends : Returns source middle last) :
    Returns source first last := by
  refine ⟨Nat.le_trans begins.ordered ends.ordered, ?_, ?_⟩
  · have one := begins.counted
    have two := ends.counted
    omega
  · rcases ends.starts with ⟨same, none⟩ | ⟨ending, starts, late, boundary, single⟩
    · rw [same, none]
      exact begins.starts
    · exact .inr ⟨ending, starts, Nat.le_trans begins.ordered late, boundary, single⟩

theorem congr {other : State} (returns : Returns source first last)
    (same : other.cursor = last.cursor) : Returns source first other := by
  have pos : other.pos = last.pos := congrArg Cursor.pos same
  have line : other.line = last.line := congrArg Cursor.line same
  have lineStart : other.lineStart = last.lineStart := congrArg Cursor.lineStart same
  constructor
  · exact pos ▸ returns.ordered
  · exact pos ▸ line ▸ returns.counted
  · rw [pos, lineStart]
    exact returns.starts

/-- Within a line, or over a separator that is not counted, the cursor moves on. -/
theorem next (first : State) (found : source.charAt? first.pos = some character)
    (other : character ≠ '\n' ∧ character ≠ '\r') :
    Returns source first { first with pos := first.pos + character.utf8Size } := by
  have same : breaks source (first.pos + character.utf8Size) = breaks source first.pos :=
    breaks_next found other
  refine ⟨Nat.le_add_right _ _, ?_, .inl ⟨rfl, same⟩⟩
  change first.line + _ = first.line + breaks source (first.pos + character.utf8Size)
  rw [same]

/-- A terminator that is no separator is counted. -/
theorem terminator (found : source.terminatorAt? first.pos = some (character :: more))
    (counted : Blank.isSeparator character = false)
    (cursor : last.cursor = first.cursor.newLine (byteLength (character :: more))) :
    Returns source first last := by
  obtain ⟨ending, stop, late, boundary, before, after⟩ := breaks_terminator found counted
  have pos : last.pos = ending + 1 := (congrArg Cursor.pos cursor).trans stop
  have lineStart : last.lineStart = ending + 1 := (congrArg Cursor.lineStart cursor).trans stop
  have line : last.line = first.line + 1 := congrArg Cursor.line cursor
  refine ⟨by omega, ?_, .inr ⟨ending, lineStart, late, boundary, ?_⟩⟩
  · rw [pos, after, before, line]
    omega
  · rw [pos, after]

end Returns

theorem ne_of_inside {character : Char} (inside : Blank.isLineBreak character = false) :
    character ≠ '\n' ∧ character ≠ '\r' := by
  rw [Blank.isLineBreak_eq, Bool.or_eq_false_iff, Bool.or_eq_false_iff] at inside
  simpa using inside.1

/-- Where no line ends, the cursor only moves on. -/
theorem Passes.returns {source : Source} {text : List Char} {hidden : Nat} {start last : Cursor}
    (passes : Passes source text hidden start last)
    (inside : ∀ character ∈ text, Blank.isLineBreak character = false) (state : State) :
    Returns source (state.at start) (state.at last) := by
  induction passes with
  | stay cursor => exact .stay _ _
  | character found same rest inductionHypothesis =>
      have goesOn := inductionHypothesis fun other member =>
        inside other (List.mem_cons_of_mem _ member)
      exact (Returns.next _ found (ne_of_inside same)).trans goesOn
  | terminator found rest inductionHypothesis =>
      rcases Source.terminatorAt?_cases found with ⟨rfl, -⟩ | ⟨character, rfl, -, ends, -⟩
      · exact absurd (inside '\r' (by simp)) (by decide)
      · rw [inside character (by simp)] at ends
        simp at ends
  | hidden found separates rest inductionHypothesis =>
      have goesOn := inductionHypothesis fun other member =>
        inside other (List.mem_cons_of_mem _ member)
      exact (Returns.next _ found (ne_of_inside (inside _ List.mem_cons_self))).trans goesOn

/-- A move over a text without line breaks stays on its line. -/
theorem Moved.returns {source : Source} {text : List Char} {hidden : Nat} {first last : State}
    (moved : Moved source text hidden first last)
    (inside : ∀ character ∈ text, Blank.isLineBreak character = false) :
    Returns source first last :=
  (moved.passes.returns inside first).congr rfl

/-- A text with no line terminator in it lies between two offsets. -/
structure Plain (source : Source) (text : List Char) (start stop : Nat) : Prop where
  spelled : source.startsWith text start = true
  length : stop = start + byteLength text
  inside : ∀ character ∈ text, Blank.isLineBreak character = false

namespace Plain

variable {source : Source} {text first second : List Char} {start middle stop : Nat}

theorem nil (source : Source) (start : Nat) : Plain source [] start start :=
  ⟨rfl, rfl, by simp⟩

theorem cons {character : Char} {rest : List Char}
    (found : source.charAt? start = some character)
    (inside : Blank.isLineBreak character = false)
    (plain : Plain source rest (start + character.utf8Size) stop) :
    Plain source (character :: rest) start stop where
  spelled := by
    rw [Source.startsWith, Source.hasAt_iff.mpr found, plain.spelled]
    rfl
  length := by rw [plain.length, byteLength_cons, Nat.add_assoc]
  inside := by
    intro other member
    rcases List.mem_cons.mp member with rfl | member
    · exact inside
    · exact plain.inside other member

/-- One character that breaks no line is plain text. -/
theorem one {character : Char} (found : source.charAt? start = some character)
    (inside : Blank.isLineBreak character = false) :
    Plain source [character] start (start + character.utf8Size) :=
  .cons found inside (.nil _ _)

theorem le (plain : Plain source text start stop) : start ≤ stop := by
  rw [plain.length]
  exact Nat.le_add_right _ _

/-- Plain text is passed on its line. -/
theorem moved (plain : Plain source text start stop) (state : State) (here : state.pos = start) :
    Moved source text 0 state { state with pos := stop } := by
  subst here
  refine ⟨?_, rfl⟩
  have passes := Passes.ofStartsWith state.cursor plain.spelled plain.inside
  rw [plain.length]
  exact passes

/-- The characters that pass a test are a text, if no line terminator passes it. -/
theorem ofPassOver (source : Source) (test : Char → Bool)
    (inside : ∀ character, test character = true → Blank.isLineBreak character = false)
    (count start : Nat) :
    ∃ text, Plain source text start (source.passOver test count start) ∧
      ∀ character ∈ text, test character = true := by
  induction count generalizing start with
  | zero => exact ⟨[], .nil _ _, by simp⟩
  | succ count inductionHypothesis =>
      unfold Source.passOver
      split
      · next character found =>
          split
          · next passes =>
              obtain ⟨text, plain, all⟩ := inductionHypothesis (start + character.utf8Size)
              refine ⟨character :: text, .cons found (inside character passes) plain, ?_⟩
              intro other member
              rcases List.mem_cons.mp member with rfl | member
              · exact passes
              · exact all other member
          · exact ⟨[], .nil _ _, by simp⟩
      · exact ⟨[], .nil _ _, by simp⟩

/-- A text without line breaks is plain where it stands. -/
theorem ofAt {before rest : List Char} (parted : source.At start before (text ++ rest))
    (inside : ∀ character ∈ text, Blank.isLineBreak character = false) :
    Plain source text start (start + byteLength text) := by
  refine ⟨?_, rfl, inside⟩
  clear inside
  induction text generalizing before start with
  | nil => rfl
  | cons character others inductionHypothesis =>
      have found := parted.charAt?
      rw [List.cons_append, List.head?_cons] at found
      have tailed := inductionHypothesis parted.next
      rw [Source.startsWith, Source.hasAt_iff.mpr found, tailed]
      rfl

theorem slice? (plain : Plain source text start stop)
    (begins : source.isBoundary start = true) : source.slice? start stop = some text := by
  have passes := Passes.ofStartsWith ⟨start, 0, 0⟩ plain.spelled plain.inside
  rw [plain.length]
  exact passes.slice? begins

theorem isBoundary (plain : Plain source text start stop)
    (begins : source.isBoundary start = true) : source.isBoundary stop = true := by
  have passes := Passes.ofStartsWith ⟨start, 0, 0⟩ plain.spelled plain.inside
  rw [plain.length]
  exact passes.boundary begins

end Plain

/-- A line terminator takes two bytes if it has two characters, and otherwise those of its one. -/
theorem byteLength_terminator {source : Source} {offset : Nat} {terminator : List Char}
    (found : source.terminatorAt? offset = some terminator) :
    byteLength terminator =
      if source.charAt? offset = some '\r' ∧ source.charAt? (offset + 1) = some '\n' then 2
      else if source.charAt? offset = some '\r' ∨ source.charAt? offset = some '\n' then 1
      else 3 := by
  rcases Source.terminatorAt?_cases found with
    ⟨rfl, carriage, feed⟩ | ⟨character, rfl, here, ends, alone⟩
  · simp [carriage, feed, Source.utf8Size_return, Source.utf8Size_feed]
  · rw [here]
    simp only [Blank.isLineBreak, Bool.or_eq_true, beq_iff_eq] at ends
    rcases ends with ((rfl | rfl) | rfl) | rfl
    · simp [Source.utf8Size_feed]
    · simp only [true_and] at alone
      simp [alone, Source.utf8Size_return]
    · simp [show ('\u2028').utf8Size = 3 by decide]
    · simp [show ('\u2029').utf8Size = 3 by decide]

/-- The line terminator at the cursor is passed as a whole. One of two characters may be given its
one-character form. -/
theorem passLineBreak_meets {setting : Setting} {state : State} {unified : Bool}
    {terminator : List Char}
    (found : setting.source.terminatorAt? state.pos = some terminator) :
    Meets (passLineBreak unified) setting state fun text after =>
      (text = terminator ∨ terminator = ['\r', '\n']) ∧
        after = state.at (state.cursor.newLine (byteLength terminator)) := by
  have passes := Passes.terminatorOne state.cursor found
  have boundary : setting.source.isBoundary state.pos = true := by
    rcases Source.terminatorAt?_cases found with ⟨-, here, -⟩ | ⟨character, -, here, -⟩
    · exact Source.isBoundary_of_charAt? here
    · exact Source.isBoundary_of_charAt? here
  have sliced := passes.slice? boundary
  have length := byteLength_terminator found
  simp only [passLineBreak, Meets.bind_iff, meets_get, meets_peek, Nat.add_zero, beq_iff_eq,
    Bool.and_eq_true, Bool.or_eq_true, ← length, meets_startLine]
  split
  · next double =>
      refine meets_pure.mpr ⟨.inr ?_, rfl⟩
      rcases Source.terminatorAt?_cases found with ⟨same, -⟩ | ⟨character, rfl, -, ends, -⟩
      · exact same
      · simp only [Blank.isLineBreak, Bool.or_eq_true, beq_iff_eq] at ends
        rcases ends with ((rfl | rfl) | rfl) | rfl <;> exact absurd double.1 (by decide)
  · rw [meets_slice]
    exact ⟨terminator, sliced, .inl rfl, rfl⟩

theorem isLineBreak_of_mem {source : Source} {offset : Nat} {terminator : List Char}
    (found : source.terminatorAt? offset = some terminator) :
    ∀ character ∈ terminator, Blank.isLineBreak character = true := by
  intro other member
  rcases Source.terminatorAt?_cases found with ⟨rfl, -⟩ | ⟨character, rfl, -, ends, -⟩
  · simp only [List.mem_cons, List.not_mem_nil, or_false] at member
    rcases member with rfl | rfl <;> rfl
  · rw [List.mem_singleton] at member
    rw [member, ends]

/-- A line terminator begins at every character that breaks a line. -/
theorem terminatorAt?_of_isLineBreak {source : Source} {offset : Nat} {character : Char}
    (found : source.charAt? offset = some character)
    (ends : Blank.isLineBreak character = true) :
    ∃ terminator, source.terminatorAt? offset = some terminator := by
  simp only [Source.terminatorAt?, found]
  split
  · exact ⟨_, rfl⟩
  · exact ⟨_, rfl⟩

end Lexer

end EcmaSyntax
