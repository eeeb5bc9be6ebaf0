import EcmaSyntax.Proofs.Lexer.Escape
import EcmaSyntax.Proofs.Lexer.Record
import EcmaSyntax.Proofs.Text.Offset
import EcmaSyntax.Proofs.Tree.Operand
import EcmaSyntax.Proofs.Tree.Tag

namespace EcmaSyntax

/-- A token is written as what it is. -/
structure Token.Faithful (token : Token) : Prop where
  written : token.Written
  undivided : token.Undivided

/-- A token of this kind may have any text. -/
def Kind.isFree (kind : Kind) : Bool := kind.operators.isEmpty && kind != .jsxName

section Faithful

/-- What stands for no operator, and is no name within a tag, may have any text. -/
theorem Token.Faithful.ofFree {token : Token} (free : token.kind.isFree = true) :
    token.Faithful := by
  obtain ⟨operators, name⟩ := Bool.and_eq_true_iff.mp free
  exact ⟨fun stands => absurd (List.isEmpty_iff.mp operators) stands,
    fun same => absurd same (by simpa using name)⟩

/-- The kind of a keyword has its word. -/
theorem Kind.keyword?_of_ofKeyword? {kind : Kind} {word : String}
    (known : Kind.ofKeyword? word = some kind) : kind.keyword? = some word := by
  have found := List.find?_some known
  exact beq_iff_eq.mp found

/-- A keyword that is an operator has the text of it. -/
theorem Kind.mem_operators_of_keyword? {kind : Kind} {word : String} (spelled : kind.keyword? = some word)
    (stands : kind.operators ≠ []) : word ∈ kind.operators := by
  cases kind <;> simp [Kind.operators, Kind.keyword?, Kind.traits] at stands spelled ⊢ <;>
    exact spelled.symm

/-- A keyword is faithful to its text. -/
theorem Token.Faithful.ofKeyword {token : Token} {word : String}
    (spelled : token.kind.keyword? = some word) (text : token.value = .text word) :
    token.Faithful := by
  refine ⟨fun stands => ⟨word, text, ?_⟩, fun same => ?_⟩
  · exact List.mem_append_left _ (Kind.mem_operators_of_keyword? spelled stands)
  · rw [same] at spelled
    cases spelled

/-- An operator is faithful to its text, also if it is misread. -/
theorem Token.Faithful.ofOperator {token : Token} {word : String}
    (text : token.value = .text word)
    (among : word ∈ token.kind.operators ++ token.kind.misread) : token.Faithful := by
  refine ⟨fun _ => ⟨word, text, among⟩, fun same => ?_⟩
  rw [same] at among
  cases among

/-- A name within a tag may be any word in which no mark stands that joins such words. -/
theorem Token.Faithful.ofWord {token : Token} {word : String} (text : token.value = .text word)
    (name : token.kind = .jsxName) (undivided : EcmaSyntax.Undivided word) : token.Faithful := by
  refine ⟨fun stands => absurd rfl (name ▸ stands), fun _ => ?_⟩
  rw [text]
  exact undivided

end Faithful

namespace Lexer

/-- If a step succeeds, the current token is written as what it is. -/
def Settled (action : Scan Unit) : Prop :=
  ∀ setting state, Gives action setting state fun _ after => after.token.Faithful

variable {setting : Setting} {state : State} {α : Type}

section Nesting

variable {kind : Kind} {value : Value}

/-- The open constructs follow a token, and leave it as it is. -/
def Names (kind : Kind) (value : Value) (state : State) : Prop :=
  state.kind = kind ∧ state.value = value

theorem openContext_names (context : Context) (exprAllowed : Bool) :
    Maintains (Names kind value) (openContext context exprAllowed) := .modify fun _ same => same

theorem allowExpr_names (allowed : Bool) : Maintains (Names kind value) (allowExpr allowed) :=
  .modify fun _ same => same

theorem breaksBetween_names (start stop : Nat) :
    Maintains (Names kind value) (breaksBetween start stop) :=
  .bind (.read fun _ => .pure _) fun _ => .ite (.pure _) (.throw _)

theorem braceIsBlock_names (previous : Kind) :
    Maintains (Names kind value) (braceIsBlock previous) := by
  refine .get fun state _ => ?_
  dsimp only
  split
  · split <;> exact .pure _
  · exact breaksBetween_names _ _
  all_goals exact .pure _

theorem closeContext_names : Maintains (Names kind value) closeContext := by
  refine .modify fun state same => ?_
  split <;> exact same

theorem closeTag_names (previous : Kind) : Maintains (Names kind value) (closeTag previous) := by
  refine .modify fun state same => ?_
  dsimp only
  split <;> exact same

theorem nestPlain_names (previous : Kind) : Maintains (Names kind value) (nestPlain previous) := by
  refine .get fun state _ => .ite (allowExpr_names _) ?_
  split
  · exact closeContext_names
  · exact closeContext_names
  · refine .ite (.bind (.read fun _ => .pure _) fun _ => ?_) (allowExpr_names _)
    exact .bind (breaksBetween_names _ _) fun _ => allowExpr_names _
  · exact .bind (braceIsBlock_names _) fun _ => openContext_names _ _
  · exact openContext_names _ _
  · exact openContext_names _ _
  · exact .pure _
  · exact .ite (openContext_names _ _) (allowExpr_names _)
  · exact .ite (.modify fun _ same => same) (openContext_names _ _)
  · exact .bind (openContext_names _ _) fun _ => openContext_names _ _
  · exact closeTag_names _
  · exact allowExpr_names _

theorem nest_names (previous : Kind) : Maintains (Names kind value) (nest previous) := by
  refine .read fun setting => .ite (.get fun state _ => .ite ?_ ?_) (nestPlain_names _)
  · split
    · exact openContext_names _ _
    · exact openContext_names _ _
    · exact .bind (nestPlain_names _) fun _ => allowExpr_names _
  · exact .ite (.modify fun _ same => same) (nestPlain_names _)

/-- A token is what it is said to be when it ends. -/
theorem finishToken_gives :
    Gives (finishToken kind value) setting state fun _ after => Names kind value after := by
  refine .last fun stopLoc middle => ?_
  rw [Gives.bind_iff, gives_get, Gives.bind_iff, gives_modify]
  intro done last ends
  have names : Maintains (Names kind value) (nest middle.kind) := nest_names middle.kind
  have maintained := names setting
    { middle with stop := middle.pos, stopLoc := stopLoc, kind := kind, value := value } ⟨rfl, rfl⟩
  rwa [ends] at maintained

end Nesting

section Settled

/-- A step is settled if what comes last is. -/
theorem Settled.after {action : Scan α} {next : α → Scan Unit}
    (settled : ∀ value, Settled (next value)) : Settled (action >>= next) :=
  fun setting _ => .last fun value after => settled value setting after

theorem Settled.ite {condition : Prop} [Decidable condition] {first second : Scan Unit}
    (holds : Settled first) (fails : Settled second) :
    Settled (if condition then first else second) := by
  split
  · exact holds
  · exact fails

theorem raise_settled (pos : Nat) (problem : Problem) : Settled (raise pos problem) :=
  .after fun _ _ _ => gives_throw.mpr trivial

theorem unexpected_settled (pos : Option Nat) : Settled (unexpected pos) :=
  .after fun _ => raise_settled _ _

theorem finishToken_settled {kind : Kind} {value : Value} (free : kind.isFree = true) :
    Settled (finishToken kind value) := fun _ _ =>
  finishToken_gives.mono fun _ after names =>
    .ofFree (show after.kind.isFree = true from names.1 ▸ free)

theorem finishMark_settled {kind : Kind} {length : Nat} (free : kind.isFree = true) :
    Settled (finishMark kind length) := .after fun _ => finishToken_settled free

/-- An operator whose kind is free of a spelling is settled. -/
theorem finishOperator_free {kind : Kind} {length : Nat} (free : kind.isFree = true) :
    Settled (finishOperator kind length) :=
  .after fun _ => .after fun _ => .after fun _ => finishToken_settled free

end Settled

section Text

/-- The character at an offset is the first of the text that begins there. -/
theorem charsBetween_succ {source : Source} {start : Nat} {character : Char} (count : Nat)
    (found : source.charAt? start = some character) :
    source.charsBetween start (start + (count + 1)) =
      character :: source.charsBetween (start + 1) (start + 1 + count) := by
  have cell : source.cells[start]? = some (some character) := Option.join_eq_some_iff.mp found
  obtain ⟨within, same⟩ := Array.getElem?_eq_some_iff.mp cell
  have split : source.cells.toList.drop start =
      some character :: source.cells.toList.drop (start + 1) := by
    rw [List.drop_eq_getElem_cons (by simpa using within)]
    simp [same]
  have first : start + (count + 1) - start = count + 1 := by omega
  have second : start + 1 + count - (start + 1) = count := by omega
  simp only [Source.charsBetween, Array.toList_extract, List.extract_eq_take_drop, first, second,
    split, List.take_succ_cons, List.filterMap_cons, id]

theorem charsBetween_self (source : Source) (start : Nat) :
    source.charsBetween start start = [] := by
  simp [Source.charsBetween]

variable {source : Source} {start : Nat} {first second third fourth : Char}

theorem charsBetween_one (one : source.charAt? start = some first) :
    source.charsBetween start (start + 1) = [first] := by
  rw [charsBetween_succ 0 one, charsBetween_self]

/-- The text between two bytes of plain characters consists of these. -/
theorem charsBetween_two (one : source.charAt? start = some first)
    (two : source.charAt? (start + 1) = some second) :
    source.charsBetween start (start + 2) = [first, second] := by
  rw [charsBetween_succ 1 one, charsBetween_one two]

theorem charsBetween_three (one : source.charAt? start = some first)
    (two : source.charAt? (start + 1) = some second)
    (three : source.charAt? (start + 2) = some third) :
    source.charsBetween start (start + 3) = [first, second, third] := by
  rw [charsBetween_succ 2 one, charsBetween_two two three]

theorem charsBetween_four (one : source.charAt? start = some first)
    (two : source.charAt? (start + 1) = some second)
    (three : source.charAt? (start + 2) = some third)
    (four : source.charAt? (start + 3) = some fourth) :
    source.charsBetween start (start + 4) = [first, second, third, fourth] := by
  rw [charsBetween_succ 3 one, charsBetween_three two three four]

end Text

section Literals

theorem readTemplate_settled : Settled readTemplate := by
  refine .after fun state => .after fun opens => .ite (finishMark_settled rfl) ?_
  refine .after fun closes => .ite (finishMark_settled rfl) ?_
  exact .after fun _ => .after fun _ => .after fun _ => finishToken_settled rfl

theorem readRegExp_settled : Settled readRegExp := by
  refine .after fun state => .after fun source => .after fun count => .after fun _ =>
    .ite (.after fun _ => .after fun _ => .after fun flags => ?_) (raise_settled _ _)
  exact .ite (finishToken_settled rfl) (raise_settled _ _)

theorem readString_settled (quote : Char) : Settled (readString quote) :=
  .after fun _ => .after fun _ => .after fun _ => .after fun _ => .after fun _ =>
    finishToken_settled rfl

theorem readRadixNumber_settled (radix : Nat) : Settled (readRadixNumber radix) := by
  refine .after fun _ => .after fun digits => ?_
  have ends : Settled (do
      checkNumberEnds
      finishToken .num (.number (Digit.rounded radix digits))) :=
    .after fun _ => finishToken_settled rfl
  exact .ite (.after fun _ => .after fun _ => ends) ends

theorem numberRest_settled (start : Nat) (integer : List Char) :
    Settled (numberRest start integer) :=
  .after fun _ => .after fun _ => .after fun _ => .after fun _ =>
    .ite (finishToken_settled rfl)
      (.after fun _ => .ite (raise_settled _ _) (finishToken_settled rfl))

theorem readNumber_settled (startsWithDot : Bool) : Settled (readNumber startsWithDot) := by
  refine .after fun state => .ite (.after fun integer => ?_) (.after fun integer => ?_)
  all_goals
    exact .ite (.after fun _ => numberRest_settled _ _) (numberRest_settled _ _)

theorem readWord_settled : Settled readWord := by
  refine .after fun word => .after fun keyword => .after fun state setting _ => ?_
  refine finishToken_gives.mono fun _ after names => ?_
  have same : after.token.kind = _ := names.1
  split at same
  · cases known : Kind.ofKeyword? word with
    | none => exact .ofFree (by rw [same, known]; rfl)
    | some kind =>
        rw [known, Option.getD_some] at same
        exact .ofKeyword (same ▸ Kind.keyword?_of_ofKeyword? known) names.2
  · exact .ofFree (by rw [same]; rfl)

end Literals

section Operators

@[simp] theorem gives_source {post : Source → State → Prop} :
    Gives source setting state post ↔ post setting.source state := by
  simp only [Lexer.source, Gives.bind_iff, gives_read, gives_pure]

@[simp] theorem gives_peek {ahead : Nat} {post : Option Char → State → Prop} :
    Gives (peek ahead) setting state post ↔
      post (setting.source.charAt? (state.pos + ahead)) state := by
  simp only [peek, Gives.bind_iff, gives_source, gives_get, gives_pure]

@[simp] theorem gives_peekIs {ahead : Nat} {character : Char} {post : Bool → State → Prop} :
    Gives (peekIs ahead character) setting state post ↔
      post (setting.source.charAt? (state.pos + ahead) == some character) state := by
  simp only [peekIs, Gives.bind_iff, gives_peek, gives_pure]

/-- An operator settles the token if it has the text of its kind. -/
theorem finishOperator_gives {kind : Kind} {length : Nat}
    (written : String.ofList (setting.source.charsBetween state.pos (state.pos + length)) ∈
      kind.operators ++ kind.misread) :
    Gives (finishOperator kind length) setting state fun _ after => after.token.Faithful := by
  unfold finishOperator slice
  simp only [Gives.bind_iff, gives_get, gives_source]
  unfold Source.slice?
  split
  · next text sliced =>
      split at sliced
      · cases sliced
        refine gives_pure.mpr fun _ middle _ => finishToken_gives.mono fun _ after names => ?_
        have same : after.token.kind = kind := names.1
        exact .ofOperator names.2 (same ▸ written)
      · cases sliced
  · exact gives_throw.mpr trivial

variable {character : Char}

/-- A slash is spelled as it stands. -/
theorem readSlash_gives (found : setting.source.charAt? state.pos = some '/') :
    Gives readSlash setting state fun _ after => after.token.Faithful := by
  simp only [readSlash, Gives.bind_iff, gives_get]
  refine gives_ite (fun _ => ?_) fun _ => ?_
  · exact Settled.after (fun _ => readRegExp_settled) _ _
  · rw [Gives.bind_iff, gives_peekIs]
    refine gives_ite (fun equals => finishOperator_gives ?_) fun _ => finishOperator_gives ?_
    · rw [charsBetween_two found (beq_iff_eq.mp equals)]
      decide
    · rw [charsBetween_one found]
      decide

/-- A star or a percent sign is spelled as it stands. -/
theorem readStarModulo_gives (star : character = '*' ∨ character = '%')
    (found : setting.source.charAt? state.pos = some character) :
    Gives (readStarModulo character) setting state fun _ after => after.token.Faithful := by
  simp only [readStarModulo, Gives.bind_iff, gives_peekIs]
  refine gives_ite (fun second => ?_) fun _ => ?_
  · refine gives_ite (fun equals => finishOperator_gives ?_) fun _ => finishOperator_gives ?_
    · rw [charsBetween_three found (beq_iff_eq.mp second) (beq_iff_eq.mp equals)]
      rcases star with rfl | rfl <;> decide
    · rw [charsBetween_two found (beq_iff_eq.mp second)]
      rcases star with rfl | rfl <;> decide
  · refine gives_ite (fun equals => finishOperator_gives ?_) fun _ => finishOperator_gives ?_
    · rw [charsBetween_two found (beq_iff_eq.mp equals)]
      rcases star with rfl | rfl <;> decide
    · rw [charsBetween_one found]
      rcases star with rfl | rfl <;> decide

/-- A bar or an ampersand is spelled as it stands, alone or twice. -/
theorem readBarAmpersand_gives {twice once : Kind}
    (double : String.ofList [character, character] ∈ twice.operators)
    (assigns : String.ofList [character, '='] ∈ Kind.assign.operators)
    (single : String.ofList [character] ∈ once.operators)
    (found : setting.source.charAt? state.pos = some character) :
    Gives (readBarAmpersand character twice once) setting state
      fun _ after => after.token.Faithful := by
  simp only [readBarAmpersand, Gives.bind_iff, gives_peekIs]
  refine gives_ite (fun second => finishOperator_gives ?_) fun _ => ?_
  · rw [charsBetween_two found (beq_iff_eq.mp second)]
    exact List.mem_append_left _ double
  · refine gives_ite (fun equals => finishOperator_gives ?_) fun _ => finishOperator_gives ?_
    · rw [charsBetween_two found (beq_iff_eq.mp equals)]
      exact List.mem_append_left _ assigns
    · rw [charsBetween_one found]
      exact List.mem_append_left _ single

/-- A caret is spelled as it stands. -/
theorem readCaret_gives (found : setting.source.charAt? state.pos = some '^') :
    Gives readCaret setting state fun _ after => after.token.Faithful := by
  simp only [readCaret, Gives.bind_iff, gives_peekIs]
  refine gives_ite (fun equals => finishOperator_gives ?_) fun _ => finishOperator_gives ?_
  · rw [charsBetween_two found (beq_iff_eq.mp equals)]
    decide
  · rw [charsBetween_one found]
    decide

theorem passMarkupComment_settled (opening : Nat) {resume : Scan Unit} (resumes : Settled resume) :
    Settled (passMarkupComment opening resume) := .after fun _ => .after fun _ => resumes

/-- A sign is spelled as it stands, alone or twice. -/
theorem readPlusMinus_gives {resume : Scan Unit} (resumes : Settled resume)
    (sign : character = '+' ∨ character = '-')
    (found : setting.source.charAt? state.pos = some character) :
    Gives (readPlusMinus character resume) setting state fun _ after => after.token.Faithful := by
  simp only [readPlusMinus, Gives.bind_iff, gives_peekIs]
  refine gives_ite (fun second => ?_) fun _ => ?_
  · have twice : Gives (finishOperator .incDec 2) setting state
        fun _ after => after.token.Faithful := by
      refine finishOperator_gives ?_
      rw [charsBetween_two found (beq_iff_eq.mp second)]
      rcases sign with rfl | rfl <;> decide
    simp only [Gives.bind_iff, gives_get, gives_peekIs]
    intro breaks after looked
    have same : after = state := by
      have still := breaksBetween_still state.lastStop state.pos setting state
      rwa [looked] at still
    rw [same]
    exact gives_ite (fun _ => passMarkupComment_settled _ resumes _ _) fun _ => twice
  · rw [Gives.bind_iff, gives_peekIs]
    refine gives_ite (fun equals => finishOperator_gives ?_) fun _ => finishOperator_gives ?_
    · rw [charsBetween_two found (beq_iff_eq.mp equals)]
      rcases sign with rfl | rfl <;> decide
    · rw [charsBetween_one found]
      rcases sign with rfl | rfl <;> decide

/-- An angle bracket is spelled as it stands, with those after it. -/
theorem readAngle_gives {resume : Scan Unit} (resumes : Settled resume)
    (angle : character = '<' ∨ character = '>')
    (found : setting.source.charAt? state.pos = some character) :
    Gives (readAngle character resume) setting state fun _ after => after.token.Faithful := by
  simp only [readAngle, Gives.bind_iff, gives_peekIs]
  refine gives_ite (fun second => ?_) fun _ => ?_
  · have again := beq_iff_eq.mp second
    rw [Gives.bind_iff, gives_peekIs]
    split
    · next three =>
        rw [Bool.and_eq_true, beq_iff_eq, beq_iff_eq] at three
        obtain ⟨rfl, third⟩ := three
        rw [Gives.bind_iff, gives_peekIs]
        refine gives_ite (fun equals => finishOperator_gives ?_) fun _ => finishOperator_gives ?_
        · rw [charsBetween_four found again third (beq_iff_eq.mp equals)]
          decide
        · rw [charsBetween_three found again third]
          decide
    · rw [Gives.bind_iff, gives_peekIs]
      refine gives_ite (fun equals => finishOperator_gives ?_) fun _ => finishOperator_gives ?_
      · rw [charsBetween_three found again (beq_iff_eq.mp equals)]
        rcases angle with rfl | rfl <;> decide
      · rw [charsBetween_two found again]
        rcases angle with rfl | rfl <;> decide
  · refine gives_ite (fun _ => ?_) fun _ => ?_
    · rw [Gives.bind_iff, gives_read]
      exact gives_ite (fun _ => unexpected_settled _ _ _) fun _ =>
        passMarkupComment_settled _ resumes _ _
    · rw [Gives.bind_iff, gives_peekIs]
      refine gives_ite (fun second => ?_) fun _ => finishOperator_gives ?_
      · rw [Gives.bind_iff, gives_peekIs]
        split
        · next third =>
            refine finishOperator_gives ?_
            rw [charsBetween_three found (beq_iff_eq.mp second) (beq_iff_eq.mp third)]
            rcases angle with rfl | rfl <;> decide
        · refine finishOperator_gives ?_
          rw [charsBetween_two found (beq_iff_eq.mp second)]
          rcases angle with rfl | rfl <;> decide
      · rw [charsBetween_one found]
        rcases angle with rfl | rfl <;> decide

/-- An equals sign or an exclamation mark is spelled as it stands. -/
theorem readEqualsBang_gives (equals : character = '=' ∨ character = '!')
    (found : setting.source.charAt? state.pos = some character) :
    Gives (readEqualsBang character) setting state fun _ after => after.token.Faithful := by
  simp only [readEqualsBang, Gives.bind_iff, gives_peekIs]
  refine gives_ite (fun second => ?_) fun _ => ?_
  · rw [Gives.bind_iff, gives_peekIs]
    split
    · next third =>
        refine finishOperator_gives ?_
        rw [charsBetween_three found (beq_iff_eq.mp second) (beq_iff_eq.mp third)]
        rcases equals with rfl | rfl <;> decide
    · refine finishOperator_gives ?_
      rw [charsBetween_two found (beq_iff_eq.mp second)]
      rcases equals with rfl | rfl <;> decide
  · refine gives_ite (fun _ => finishMark_settled rfl _ _) fun _ => finishOperator_gives ?_
    rw [charsBetween_one found]
    rcases equals with rfl | rfl <;> decide

theorem readDot_settled : Settled readDot := by
  refine .after fun _ => .ite (readNumber_settled _) (.after fun _ => .after fun _ => ?_)
  exact .ite (finishMark_settled rfl) (finishMark_settled rfl)

theorem readZero_settled : Settled readZero := by
  refine .after fun second => ?_
  split
  all_goals first
    | exact readRadixNumber_settled _
    | exact readNumber_settled _

theorem readColon_settled : Settled readColon :=
  .after fun _ => .ite (finishOperator_free rfl) (finishMark_settled rfl)

/-- Every mark is spelled as it stands. -/
theorem readMark_gives {resume : Scan Unit} (resumes : Settled resume)
    (found : setting.source.charAt? state.pos = some character) :
    Gives (readMark character resume) setting state fun _ after => after.token.Faithful := by
  unfold readMark
  split
  case h_1 => exact readDot_settled _ _
  case h_10 => exact readColon_settled _ _
  case h_14 => exact readZero_settled _ _
  case h_15 => exact readString_settled _ _ _
  case h_16 => exact readString_settled _ _ _
  case h_17 => exact readSlash_gives found
  case h_18 => exact readStarModulo_gives (.inr rfl) found
  case h_19 => exact readStarModulo_gives (.inl rfl) found
  case h_20 => exact readBarAmpersand_gives (by decide) (by decide) (by decide) found
  case h_21 => exact readBarAmpersand_gives (by decide) (by decide) (by decide) found
  case h_22 => exact readCaret_gives found
  case h_23 => exact readPlusMinus_gives resumes (.inl rfl) found
  case h_24 => exact readPlusMinus_gives resumes (.inr rfl) found
  case h_25 => exact readAngle_gives resumes (.inl rfl) found
  case h_26 => exact readAngle_gives resumes (.inr rfl) found
  case h_27 => exact readEqualsBang_gives (.inl rfl) found
  case h_28 => exact readEqualsBang_gives (.inr rfl) found
  case h_29 =>
    refine finishOperator_gives ?_
    rw [charsBetween_one found]
    decide
  case h_30 =>
    exact Settled.ite (readNumber_settled _) (.after fun _ => raise_settled _ _) _ _
  all_goals exact finishMark_settled rfl _ _

/-- Every token outside of markup is spelled as it stands. -/
theorem readPlain_gives {resume : Scan Unit} (resumes : Settled resume)
    (found : setting.source.charAt? state.pos = some character) :
    Gives (readPlain character resume) setting state fun _ after => after.token.Faithful :=
  gives_ite (fun _ => readWord_settled _ _) fun _ => readMark_gives resumes found

/-- What interrupts the text between tags is spelled as it stands. -/
theorem readMarkupText_gives {resume : Scan Unit} (resumes : Settled resume)
    (found : setting.source.charAt? state.pos = some character) :
    Gives (readMarkupText character resume) setting state
      fun _ after => after.token.Faithful := by
  rw [readMarkupText, Gives.bind_iff, gives_get]
  refine gives_ite (fun _ => finishMark_settled rfl _ _) fun _ =>
    gives_ite (fun _ => readMark_gives resumes found) fun _ => ?_
  have text : Settled (do
      let gathered ← gatherMarkup (← remaining) (← get).pos []
      finishToken .jsxText (.text (String.ofList gathered.reverse))) :=
    .after fun _ => .after fun _ => .after fun _ => finishToken_settled rfl
  exact text _ _

theorem readAttributeText_settled (quote : Char) : Settled (readAttributeText quote) :=
  .after fun _ => .after fun _ => .after fun _ => .after fun _ => .after fun _ =>
    finishToken_settled rfl

/-- What a name within a tag is made of ends no line, and joins no words. -/
theorem markupName_plain {part : Char} (passes : (Identifier.isPart part || part == '-') = true) :
    Blank.isLineBreak part = false ∧ part ≠ '.' ∧ part ≠ ':' := by
  refine ⟨?_, ?_, ?_⟩
  · rw [Bool.or_eq_true, beq_iff_eq] at passes
    rcases passes with part | rfl
    · exact Identifier.inside part
    · decide
  all_goals
    rintro rfl
    revert passes
    decide +kernel

/-- A name within a tag is spelled as it stands. -/
theorem readMarkupName_gives (found : setting.source.charAt? state.pos = some character)
    (begins : Identifier.isStart character = true) :
    Gives (readMarkupName character) setting state fun _ after => after.token.Faithful := by
  have inside : ∀ other, (Identifier.isPart other || other == '-') = true →
      Blank.isLineBreak other = false := fun other passes => (markupName_plain passes).1
  obtain ⟨rest, plain, all⟩ := Plain.ofPassOver setting.source _ inside
    (setting.source.size - (state.pos + character.utf8Size)) (state.pos + character.utf8Size)
  rw [← Source.skipWhile] at plain
  have part : (Identifier.isPart character || character == '-') = true := by
    simp [Identifier.isPart_of_isStart begins]
  have sliced := (Plain.cons found (inside _ part) plain).slice? (Source.isBoundary_of_charAt? found)
  have passes : ∀ other ∈ character :: rest, (Identifier.isPart other || other == '-') = true :=
    List.forall_mem_cons.mpr ⟨part, all⟩
  simp only [readMarkupName, moveTo, slice, Gives.bind_iff, gives_get, gives_modify, gives_source,
    sliced, gives_pure]
  refine finishToken_gives.mono fun _ after names => .ofWord names.2 names.1 ⟨?_, ?_⟩
  all_goals
    rw [String.toList_ofList]
    intro member
    simpa using markupName_plain (passes _ member)

/-- Every token of markup is spelled as it stands. -/
theorem readMarkup_gives {resume : Scan Unit} (resumes : Settled resume)
    (found : setting.source.charAt? state.pos = some character) :
    Gives (readMarkup character resume) setting state fun _ after => after.token.Faithful := by
  rw [readMarkup, Gives.bind_iff, gives_get]
  refine gives_ite (fun _ => readMarkupText_gives resumes found) fun _ =>
    gives_ite (fun named => readMarkupName_gives found (Bool.and_eq_true_iff.mp named).2) fun _ =>
    gives_ite (fun _ => finishMark_settled rfl _ _) fun _ => ?_
  exact gives_ite (fun _ => readAttributeText_settled _ _ _) fun _ =>
    gives_ite (fun _ => finishMark_settled rfl _ _) fun _ => readPlain_gives resumes found

/-- Every token is spelled as it stands, whatever constructs are open. -/
theorem readToken_gives {resume : Scan Unit} (resumes : Settled resume)
    (found : setting.source.charAt? state.pos = some character) :
    Gives (readToken character resume) setting state fun _ after => after.token.Faithful := by
  simp only [readToken, Gives.bind_iff, gives_read, gives_get]
  refine gives_ite (fun angle => finishOperator_gives ?_) fun _ =>
    gives_ite (fun _ => readMarkup_gives resumes found) fun _ => readPlain_gives resumes found
  simp only [Bool.and_eq_true, Bool.or_eq_true, beq_iff_eq] at angle
  rw [charsBetween_one found]
  rcases angle.2 with rfl | rfl <;> decide

theorem fetchToken_settled (context : Context) {resume : Scan Unit} (resumes : Settled resume) :
    Settled (fetchToken context resume) := by
  refine .after fun _ setting state => ?_
  rw [Gives.bind_iff, gives_peek]
  split
  · exact finishToken_settled rfl _ _
  · next character found =>
      exact gives_ite (fun _ => readTemplate_settled _ _) fun _ => readToken_gives resumes found

theorem nextTokenWithin_settled (count : Nat) : Settled (nextTokenWithin count) := by
  induction count with
  | zero => exact finishToken_settled rfl
  | succ count inductionHypothesis =>
      refine .after fun before => .ite (.after fun _ => ?_) ?_
      all_goals exact fetchToken_settled _ inductionHypothesis

theorem nextToken_settled : Settled nextToken := .after fun _ => nextTokenWithin_settled _

end Operators

end Lexer

end EcmaSyntax
