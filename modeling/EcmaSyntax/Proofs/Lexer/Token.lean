import EcmaSyntax.Proofs.Lexer.Nesting
import EcmaSyntax.Proofs.Lexer.Quoted
import EcmaSyntax.Proofs.Lexer.Space

namespace EcmaSyntax

/-- A kind of tokens that are no part of a template, no tag, no string, no number and not the
end. -/
def Kind.isOrdinary : Kind → Bool
  | .eof | .num | .string | .template | .dollarBraceL | .jsxTagStart | .jsxTagEnd => false
  | _ => true

theorem Kind.isOrdinary_of_keyword? {kind : Kind} {word : String}
    (known : kind.keyword? = some word) : kind.isOrdinary = true := by
  cases kind <;> first | rfl | simp [keyword?, traits] at known

/-- A number or a string begins at an offset. -/
def Source.literalAt (source : Source) (offset : Nat) : Bool :=
  (source.charAt? offset).any (fun character =>
      Digit.isDigit 10 character || character == '"' || character == '\'') ||
    (source.hasAt offset '.' && (source.charAt? (offset + 1)).any (Digit.isDigit 10))

namespace Lexer

/-- The terminators that a token of a kind hides are those in strings and templates. -/
def hiddenIn (kind : Kind) (text : List Char) : Nat :=
  if kind = .string ∨ kind = .template then hiddenBreaks text else 0

/-- A chunk of a template with this text has a value: the text with a line feed for each carriage
return, unless something is escaped or a line break of two characters stands in it. -/
def Cooks (text : List Char) (value : Value) : Prop :=
  '\\' ∉ text → ¬LineEnding.Paired text →
    value = .text (String.ofList (text.map LineEnding.feed))

end Lexer

/-- A chunk of a template has the value that its text has. -/
def Token.Cooked (source : Source) (token : Token) : Prop :=
  token.kind = .template → ∀ text, source.slice? token.start token.stop = some text →
    Lexer.Cooks text token.value

namespace Lexer

/-- The text and the kind of a token fit the constructs that are open where it begins. -/
structure Fits (setting : Setting) (first last : State) (text : List Char) (hidden : Nat) :
    Prop where
  filled : text = [] → last.kind = .template ∧ first.kind ≠ .template
  counted : setting.jsx = false → hidden = hiddenIn last.kind text
  returns : last.kind = .num ∨ last.kind = .string →
    Returns setting.source first last ∨ (setting.jsx = true ∧ first.context = .jsxOpenTag)
  opens : last.kind = .num ∨ last.kind = .string →
    setting.source.literalAt first.pos = true ∧
      (setting.jsx = true → first.context ≠ .jsxExpression)
  quoted : first.context = .quoteTemplate → last.kind = .template ∨
    (first.kind = .template ∧ (last.kind = .backQuote ∨ last.kind = .dollarBraceL))
  unquoted : first.context ≠ .quoteTemplate →
    last.kind ≠ .template ∧ last.kind ≠ .dollarBraceL
  tagEnd : last.kind = .jsxTagEnd →
    first.context = .jsxOpenTag ∨ first.context = .jsxCloseTag
  tagStart : last.kind = .jsxTagStart → setting.jsx = true
  goesOn : last.kind ≠ .eof
  cooks : last.kind = .template → Cooks text last.value

/-- A token has been read from its start on. -/
def Reads (setting : Setting) (first last : State) : Prop :=
  ∃ text hidden, Ends setting last.kind text hidden first last ∧
    Fits setting first last text hidden

theorem Ends.kind_eq {setting : Setting} {kind : Kind} {text : List Char} {hidden : Nat}
    {first last : State} (ends : Ends setting kind text hidden first last) :
    last.kind = kind := by
  obtain ⟨middle, value, block, allowed, -, rfl⟩ := ends
  rfl

section Forms

variable {setting : Setting} {first last : State} {kind : Kind} {text : List Char} {hidden : Nat}

/-- Within a template stands no number and no string. -/
theorem Fits.outside (fits : Fits setting first last text hidden)
    (literal : last.kind = .num ∨ last.kind = .string) : first.context ≠ .quoteTemplate := by
  intro inside
  rcases fits.quoted inside with template | ⟨-, quote | brace⟩
  · rw [template] at literal
    exact absurd literal (by decide)
  · rw [quote] at literal
    exact absurd literal (by decide)
  · rw [brace] at literal
    exact absurd literal (by decide)

/-- Outside of templates most tokens fit as they are. -/
theorem Reads.ordinary (ends : Ends setting kind text 0 first last)
    (usual : kind.isOrdinary = true) (filled : text ≠ [])
    (outside : first.context ≠ .quoteTemplate) : Reads setting first last := by
  have same := ends.kind_eq
  rw [← same] at usual ends
  have plain : ¬(last.kind = .num ∨ last.kind = .string) := by
    rintro (number | string)
    · rw [number] at usual
      exact absurd usual (by decide)
    · rw [string] at usual
      exact absurd usual (by decide)
  refine ⟨text, 0, ends, ?_, ?_, fun literal => absurd literal plain,
    fun literal => absurd literal plain, ?_, ?_, ?_, ?_, ?_, ?_⟩
  · intro empty
    exact absurd empty filled
  · intro _
    rw [hiddenIn, if_neg]
    rintro (string | template)
    · exact plain (.inr string)
    · rw [template] at usual
      exact absurd usual (by decide)
  · intro inside
    exact absurd inside outside
  · intro _
    constructor <;> intro other <;> rw [other] at usual <;> exact absurd usual (by decide)
  all_goals
    intro other
    rw [other] at usual
    exact absurd usual (by decide)

/-- Outside of templates a number or string fits if its lines are told. -/
theorem Reads.literal (ends : Ends setting kind text hidden first last)
    (literal : kind = .num ∨ kind = .string) (filled : text ≠ [])
    (counted : setting.jsx = false → hidden = hiddenIn kind text)
    (returns : Returns setting.source first last ∨
      (setting.jsx = true ∧ first.context = .jsxOpenTag))
    (opens : setting.source.literalAt first.pos = true)
    (beside : setting.jsx = true → first.context ≠ .jsxExpression)
    (outside : first.context ≠ .quoteTemplate) : Reads setting first last := by
  have same := ends.kind_eq
  rw [← same] at literal ends counted
  refine ⟨text, hidden, ends, ?_, counted, fun _ => returns, fun _ => ⟨opens, beside⟩, ?_, ?_,
    ?_, ?_, ?_, ?_⟩
  · intro empty
    exact absurd empty filled
  · intro inside
    exact absurd inside outside
  · intro _
    constructor <;> intro other <;> rw [other] at literal <;> exact absurd literal (by decide)
  all_goals
    intro other
    rw [other] at literal
    exact absurd literal (by decide)

/-- The mark of a tag fits where markup may stand, and its end within the tag. -/
theorem Reads.tag (ends : Ends setting kind text 0 first last) (markup : setting.jsx = true)
    (tag : kind = .jsxTagStart ∨
      (kind = .jsxTagEnd ∧ (first.context = .jsxOpenTag ∨ first.context = .jsxCloseTag)))
    (filled : text ≠ []) (outside : first.context ≠ .quoteTemplate) :
    Reads setting first last := by
  have same := ends.kind_eq
  rw [← same] at tag ends
  have plain : ¬(last.kind = .num ∨ last.kind = .string) := by
    rintro (number | string)
    · rw [number] at tag
      exact absurd tag (by simp)
    · rw [string] at tag
      exact absurd tag (by simp)
  refine ⟨text, 0, ends, ?_, ?_, fun literal => absurd literal plain,
    fun literal => absurd literal plain, ?_, ?_, ?_, fun _ => markup, ?_, ?_⟩
  · intro empty
    exact absurd empty filled
  · intro plain
    rw [markup] at plain
    simp at plain
  · intro inside
    exact absurd inside outside
  · intro _
    constructor <;> intro other <;> rw [other] at tag <;> exact absurd tag (by simp)
  · intro ending
    rw [ending] at tag
    simpa using tag
  all_goals
    intro other
    rw [other] at tag
    exact absurd tag (by simp)

/-- A token within a template fits there. -/
theorem Reads.quoted (kind : Kind) (ends : Ends setting kind text (hiddenIn kind text) first last)
    (inside : first.context = .quoteTemplate)
    (known : kind = .template ∨
      (first.kind = .template ∧ (kind = .backQuote ∨ kind = .dollarBraceL)))
    (filled : text = [] → kind = .template ∧ first.kind ≠ .template)
    (cooks : kind = .template → Cooks text last.value) : Reads setting first last := by
  have same := ends.kind_eq
  rw [← same] at known ends filled cooks
  have plain : ¬(last.kind = .num ∨ last.kind = .string) := by
    rintro (number | string)
    · rw [number] at known
      exact absurd known (by simp)
    · rw [string] at known
      exact absurd known (by simp)
  refine ⟨text, _, ends, filled, fun _ => rfl, fun literal => absurd literal plain,
    fun literal => absurd literal plain, fun _ => known, ?_, ?_, ?_, ?_, cooks⟩
  · intro outside
    exact absurd inside outside
  all_goals
    intro other
    rw [other] at known
    exact absurd known (by simp)

end Forms

variable {setting : Setting} {state : State}

/-- Any step that moves the cursor can be followed by the end of the token. -/
theorem finish_meets {first : State} {kind : Kind} {value : Value} {text : List Char}
    {hidden : Nat} (begun : Begun setting.source first)
    (moved : Moved setting.source text hidden first state) :
    Meets (finishToken kind value) setting state fun _ after =>
      Ends setting kind text hidden first after :=
  (finishToken_meets begun moved).mono fun _ _ met => met.1

/-- A mark ends where its text ends. -/
theorem finishMark_meets {kind : Kind} {length : Nat} {text : List Char}
    (begun : Begun setting.source state)
    (plain : Plain setting.source text state.pos (state.pos + length)) :
    Meets (finishMark kind length) setting state fun _ after =>
      Ends setting kind text 0 state after := by
  rw [finishMark, Meets.bind_iff, meets_advance]
  exact finish_meets begun (plain.moved _ rfl)

/-- An operator ends where its text ends. -/
theorem finishOperator_meets {kind : Kind} {length : Nat} {text : List Char}
    (begun : Begun setting.source state)
    (plain : Plain setting.source text state.pos (state.pos + length)) :
    Meets (finishOperator kind length) setting state fun _ after =>
      Ends setting kind text 0 state after := by
  simp only [finishOperator, Meets.bind_iff, meets_get, meets_slice, meets_moveTo]
  exact ⟨text, plain.slice? begun.here, finish_meets begun (plain.moved _ rfl)⟩

/-- A character of one byte that ends no line. -/
def Narrow (character : Char) : Prop :=
  Blank.isLineBreak character = false ∧ character.utf8Size = 1

instance (character : Char) : Decidable (Narrow character) :=
  inferInstanceAs (Decidable (_ ∧ _))

theorem Plain.single {source : Source} {character : Char} {start : Nat}
    (found : source.charAt? start = some character) (narrow : Narrow character) :
    Plain source [character] start (start + 1) := by
  have plain := Plain.one found narrow.1
  rwa [narrow.2] at plain

/-- Plain text may go on with one more character. -/
theorem Plain.push {source : Source} {text : List Char} {character : Char} {start stop : Nat}
    (plain : Plain source text start stop) (begins : source.isBoundary start = true)
    (found : source.hasAt stop character = true) (narrow : Narrow character) :
    Plain source (text ++ [character]) start (stop + 1) := by
  rw [Source.hasAt_iff] at found
  obtain ⟨before, after, parted⟩ := Source.isBoundary_iff.mp begins
  have passes := Passes.ofStartsWith ⟨start, 0, 0⟩ plain.spelled plain.inside
  obtain ⟨rest, rfl, later⟩ := passes.parts parted
  have next := later.charAt?
  rw [Cursor.forward_pos, ← plain.length, found, eq_comm, List.head?_eq_some_iff] at next
  obtain ⟨others, rfl⟩ := next
  have longer := Plain.ofAt (show source.At start _ ((text ++ [character]) ++ others) by
      simpa using parted) (by
      intro other member
      rcases List.mem_append.mp member with member | member
      · exact plain.inside other member
      · rw [List.mem_singleton] at member
        rw [member]
        exact narrow.1)
  rw [byteLength_append, byteLength_cons, narrow.2, ← Nat.add_assoc, ← plain.length] at longer
  exact longer

/-- A number or a string may stand where a token begins. -/
structure Opens (setting : Setting) (state : State) : Prop where
  begun : Begun setting.source state
  outside : state.context ≠ .quoteTemplate
  beside : setting.jsx = true → state.context ≠ .jsxExpression
  literal : setting.source.literalAt state.pos = true

end Lexer

end EcmaSyntax
