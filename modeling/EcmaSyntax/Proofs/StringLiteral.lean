import EcmaSyntax.Lexer.Next
import EcmaSyntax.Proofs.Lexer.Decoding

namespace EcmaSyntax

namespace Lexer

/-- A character can be told from its code point. -/
theorem charOf_toNat (character : Char) : charOf character.toNat = character := by
  have valid := character.valid
  simp only [UInt32.isValidChar, Nat.isValidChar] at valid
  have coded : character.toNat < 0xD800 ∨ 0xDFFF < character.toNat ∧
      character.toNat ≤ lastCodePoint := by
    simp only [Char.toNat, lastCodePoint]
    omega
  simp [charOf, charOf?, coded]

theorem toNat_le_lastCodePoint (character : Char) : character.toNat ≤ lastCodePoint := by
  have valid := character.valid
  simp only [UInt32.isValidChar, Nat.isValidChar] at valid
  simp only [Char.toNat, lastCodePoint]
  omega

end Lexer

namespace StringPart

variable {quote character : Char} {following value : List Char} {part : StringPart}
  {parts : List StringPart}

/-- The text of a string of parts. -/
def literal (quote : Char) (parts : List StringPart) : List Char := quote :: remainder quote parts

/-- A part writes a character between two quotes: as itself, as a letter or a mark after a
backslash, or as its code. -/
inductive Spells (quote : Char) : StringPart → Char → Prop where
  | plain {character : Char} (other : character ≠ quote) (mark : character ≠ '\\')
      (inside : Blank.isLineBreak character = false) : Spells quote (.plain character) character
  | control {letter character : Char} (known : (letter, character) ∈ controls) :
      Spells quote (.escaped letter) character
  | itself {character : Char} (known : character ∈ ['"', '\'', '\\']) :
      Spells quote (.escaped character) character
  | byte {digits : List Char} {character : Char} (two : digits.length = 2)
      (all : digits.all (Digit.isDigit 16) = true)
      (coded : Digit.number 16 digits = character.toNat) : Spells quote (.byte digits) character
  | unit {digits : List Char} {character : Char} (four : digits.length = 4)
      (all : digits.all (Digit.isDigit 16) = true)
      (coded : Digit.number 16 digits = character.toNat) : Spells quote (.unit digits) character
  | codePoint {digits : List Char} {character : Char} (filled : digits ≠ [])
      (all : digits.all (Digit.isDigit 16) = true)
      (coded : Digit.number 16 digits = character.toNat) :
      Spells quote (.codePoint digits) character

/-- Parts write a text between two quotes. The string may go on in the next line anywhere. -/
inductive Encodes (quote : Char) : List StringPart → List Char → Prop where
  | nil : Encodes quote [] []
  | cons {part : StringPart} {character : Char} {parts : List StringPart} {value : List Char}
      (first : Spells quote part character) (rest : Encodes quote parts value) :
      Encodes quote (part :: parts) (character :: value)
  | continued {parts : List StringPart} {value : List Char} (rest : Encodes quote parts value) :
      Encodes quote (.continued ['\n'] :: parts) value

/-- A part that spells a character can stand before anything. -/
theorem Spells.stands (spells : Spells quote part character) : part.Stands quote following := by
  cases spells with
  | plain other mark inside => exact ⟨other, mark, inside⟩
  | control known =>
      have letters : ∀ control ∈ controls, (escaped control.1).Stands quote following := by
        simp only [Stands]
        decide
      exact letters _ known
  | itself known =>
      simp only [List.mem_cons, List.not_mem_nil, or_false] at known
      rcases known with rfl | rfl | rfl <;> exact ⟨by decide, by decide, by decide, by decide⟩
  | byte two all _ => exact ⟨two, all⟩
  | unit four all _ => exact ⟨four, all⟩
  | codePoint filled all coded =>
      exact ⟨filled, all, coded ▸ Lexer.toNat_le_lastCodePoint character⟩

/-- A part that spells a character is read as this character. -/
theorem Spells.reads (spells : Spells quote part character) : part.reads = [character] := by
  cases spells with
  | plain => rfl
  | control known =>
      have letters : ∀ control ∈ controls, meaning control.1 = control.2 := by decide
      exact congrArg (· :: []) (letters _ known)
  | itself known =>
      simp only [List.mem_cons, List.not_mem_nil, or_false] at known
      rcases known with rfl | rfl | rfl <;> rfl
  | byte _ _ coded => simp [StringPart.reads, denotes, coded, Lexer.charOf_toNat]
  | unit _ _ coded => simp [StringPart.reads, denotes, coded, Lexer.charOf_toNat]
  | codePoint _ _ coded => simp [StringPart.reads, denotes, coded, Lexer.charOf_toNat]

theorem Spells.isOctal (spells : Spells quote part character) : part.isOctal = false := by
  cases spells <;> rfl

namespace Encodes

/-- The parts of a string that is encoded can stand after one another. -/
theorem standing (encodes : Encodes quote parts value) : Standing quote parts := by
  induction encodes with
  | nil => trivial
  | cons first _ inductionHypothesis => exact ⟨first.stands, inductionHypothesis⟩
  | continued _ inductionHypothesis =>
      exact ⟨⟨by decide, fun same => absurd same (by decide)⟩, inductionHypothesis⟩

theorem reads (encodes : Encodes quote parts value) : parts.flatMap StringPart.reads = value := by
  induction encodes with
  | nil => rfl
  | cons first _ inductionHypothesis =>
      rw [List.flatMap_cons, first.reads, inductionHypothesis]
      rfl
  | continued _ inductionHypothesis =>
      rw [List.flatMap_cons, inductionHypothesis]
      rfl

theorem isOctal (encodes : Encodes quote parts value) : ∀ part ∈ parts, part.isOctal = false := by
  induction encodes with
  | nil => simp
  | cons first _ inductionHypothesis =>
      exact List.forall_mem_cons.mpr ⟨first.isOctal, inductionHypothesis⟩
  | continued _ inductionHypothesis =>
      exact List.forall_mem_cons.mpr ⟨rfl, inductionHypothesis⟩

end Encodes

/-- Without octal escapes there is no first one. -/
theorem firstOctal_eq_none (plain : ∀ part ∈ parts, part.isOctal = false) (offset : Nat) :
    firstOctal offset parts = none := by
  induction parts generalizing offset with
  | nil => rfl
  | cons part rest inductionHypothesis =>
      obtain ⟨first, others⟩ := List.forall_mem_cons.mp plain
      rw [firstOctal, first]
      exact inductionHypothesis others _

/-- A part that is not broken by a separator is read as what it stands for. -/
theorem reads_eq_denotes (joined : part.isSeparated = false) :
    part.reads = part.denotes ∧ part.breaks = part.isContinued := by
  cases part with
  | continued terminator =>
      have none : terminator.any Blank.isSeparator = false := joined
      refine ⟨List.filter_eq_nil_iff.mpr ?_, by simp [breaks, isContinued, none]⟩
      simpa using none
  | _ => exact ⟨rfl, rfl⟩

/-- What is read is longer by a character for each separator after a backslash. -/
theorem length_reads (standing : Standing quote parts) :
    (parts.flatMap reads).length = (parts.flatMap denotes).length + parts.countP isSeparated := by
  induction parts with
  | nil => rfl
  | cons part rest inductionHypothesis =>
      obtain ⟨stands, standing⟩ := standing
      have first : part.reads.length =
          part.denotes.length + if part.isSeparated then 1 else 0 := by
        cases part with
        | continued terminator =>
            have terminators : ∀ terminator ∈ [['\n'], ['\r'], ['\r', '\n'], ['\u2028'], ['\u2029']],
                (continued terminator).reads.length =
                  if (continued terminator).isSeparated then 1 else 0 := by decide
            simpa [denotes] using terminators _ stands.1
        | _ => rfl
      rw [List.flatMap_cons, List.flatMap_cons, List.length_append, List.length_append,
        inductionHypothesis standing, List.countP_cons, first]
      omega

end StringPart

namespace Lexer

open StringPart (literal Standing firstOctal lineStart Encodes)

variable {setting : Setting} {state : State} {quote : Char} {before following : List Char}
  {parts : List StringPart}

/-- The text does not start with a line that is no code. -/
theorem skipShebang_eq (other : setting.source.charAt? state.pos ≠ some '#') :
    skipShebang setting state = .ok () state := by
  rw [eq_ok_iff_succeeds]
  simp only [skipShebang, Succeeds.bind_iff, succeeds_get, succeeds_source]
  rw [if_neg]
  · simp
  · intro marked
    simp only [Source.startsWith, Bool.and_eq_true, beq_iff_eq] at marked
    obtain ⟨start, mark, -⟩ := marked
    exact other (start ▸ Source.hasAt_iff.mp mark)

/-- A quote begins a string where no construct is open. -/
theorem succeeds_readToken_quote (state : State) {post : Unit → State → Prop}
    (proper : quote = '"' ∨ quote = '\'') (outside : state.context = .braceStatement)
    (resume : Scan Unit) :
    Succeeds (readToken quote resume) setting state post ↔
      Succeeds (readString quote) setting state post := by
  have plain : readPlain quote resume = readString quote := by
    rcases proper with rfl | rfl <;> rfl
  have other : (quote == '<') = false ∧ (quote == '>') = false := by
    rcases proper with rfl | rfl <;> decide
  have markup : Succeeds (readMarkup quote resume) setting state post ↔
      Succeeds (readString quote) setting state post := by
    simp only [readMarkup, Succeeds.bind_iff, succeeds_get, outside, plain, other]
    simp
  simp only [readToken, Succeeds.bind_iff, succeeds_read, succeeds_get, other, plain]
  split
  · next angle => simp at angle
  split
  · exact markup
  · exact Iff.rfl

/-- The next token begins at the cursor where no blank or comment does and no construct is open. -/
theorem succeeds_nextToken {post : Unit → State → Prop}
    (stops : ∀ character ∈ setting.source.charAt? state.pos,
      Blank.isBlank character = false ∧ character ≠ '/')
    (begun : state.lineStart ≤ state.pos) (outside : state.context = .braceStatement) :
    Succeeds nextToken setting state post ↔
      Succeeds
        ((setting.source.charAt? state.pos).elim (finishToken .eof .none)
          fun character => readToken character (nextTokenWithin (setting.source.size - state.pos)))
        setting state.starting post := by
  have skips := skipSpace_eq stops
  have begins := beginToken_eq setting begun
  simp only [nextToken, Succeeds.bind_iff, succeeds_remaining, nextTokenWithin, succeeds_get, outside]
  rw [if_pos (by decide), Succeeds.bind_iff, succeeds_of_eq_ok skips]
  simp only [fetchToken, Succeeds.bind_iff, succeeds_of_eq_ok begins, succeeds_peek, Nat.add_zero]
  rw [show state.starting.pos = state.pos from rfl]
  cases setting.source.charAt? state.pos with
  | none => rfl
  | some character => exact Iff.rfl

/-- A string is the next token where it begins. -/
theorem nextToken_string
    (parted : setting.source.At state.pos before (literal quote parts ++ following))
    (standing : Standing quote parts) (proper : quote = '"' ∨ quote = '\'')
    (allowed : ∀ part ∈ parts, part.isOctal = true → state.strict = false)
    (begun : state.lineStart ≤ state.pos) (outside : state.context = .braceStatement) :
    nextToken setting state = .ok () (state.starting.behindString parts) := by
  have found : setting.source.charAt? state.pos = some quote := parted.charAt?
  have other : Blank.isBlank quote = false ∧ quote ≠ '/' := by
    rcases proper with rfl | rfl <;> decide
  have read := readString_eq state.starting parted standing proper allowed begun
  rw [eq_ok_iff_succeeds, succeeds_nextToken (by simpa [found] using other) begun outside, found,
    Option.elim_some, succeeds_readToken_quote state.starting proper outside,
    succeeds_of_eq_ok read]
  exact ⟨rfl, rfl⟩

/-- The end of the text has been read at the cursor of a state. -/
def State.atEnd (state : State) : State :=
  { state.starting with
    stop := state.pos
    stopLoc := state.position
    kind := .eof
    value := .none
    exprAllowed := Kind.eof.beforeExpr }

/-- The end of the text is the next token where nothing else is left. -/
theorem nextToken_end (ended : setting.source.charAt? state.pos = none)
    (begun : state.lineStart ≤ state.pos) (outside : state.context = .braceStatement) :
    nextToken setting state = .ok () state.atEnd := by
  have ends := finishToken_eq setting state.starting .none (.inr rfl) begun
  rw [eq_ok_iff_succeeds, succeeds_nextToken (by simp [ended]) begun outside, ended, Option.elim_none,
    succeeds_of_eq_ok ends]
  exact ⟨rfl, rfl⟩

/-- A reading has found one string, which is the whole text, and then the end of it. The string is
marked as one with octal digits at the given offset, if there is one. -/
structure Reading.Finds (reading : Reading) (value : List Char) (size : Nat) (stopLoc : Position)
    (octal : Option Nat) : Prop where
  tokens : reading.tokens =
    [⟨.string, .text (String.ofList value), 0, size, ⟨.origin, stopLoc⟩⟩,
      ⟨.eof, .none, size, size, ⟨stopLoc, stopLoc⟩⟩]
  containsOctal : reading.states.map State.containsOctal = [octal.isSome, false]
  octalPosition : reading.states.map State.octalPosition = [octal, none]
  comments : reading.comments = []
  failure : reading.failure = none

/-- A text is read as one token and its end. -/
theorem scan_eq_pair {strictMode : Bool} {first last : State}
    (begins : (do skipShebang; nextToken : Scan Unit) setting
      (.initial (strictMode && setting.isModule)) = .ok () first)
    (goesOn : next setting first = .ok () last) (started : (first.kind == .eof) = false)
    (finished : (last.kind == .eof) = true) :
    scan setting strictMode = { states := [first, last], last := last } := by
  rw [scan, begins]
  simp only [scanFrom, started, finished, goesOn]
  rfl

/-- The first token of a text that is a string. -/
theorem begins_literal (strict : Bool) (text : setting.source.text = literal quote parts)
    (standing : Standing quote parts) (proper : quote = '"' ∨ quote = '\'')
    (allowed : ∀ part ∈ parts, part.isOctal = true → strict = false) :
    (do skipShebang; nextToken : Scan Unit) setting (.initial strict) =
      .ok () ((State.initial strict).starting.behindString parts) := by
  have parted : setting.source.At (State.initial strict).pos [] (literal quote parts ++ []) := by
    rw [List.append_nil, ← text]
    exact .start _
  have other : setting.source.charAt? (State.initial strict).pos ≠ some '#' := by
    rw [parted.charAt?]
    rcases proper with rfl | rfl <;> simp [literal]
  have reads := nextToken_string parted standing proper allowed (Nat.zero_le _) rfl
  rw [eq_ok_iff_succeeds, Succeeds.bind_iff, succeeds_of_eq_ok (skipShebang_eq other),
    succeeds_of_eq_ok reads]
  exact ⟨rfl, rfl⟩

/-- A text that is a string is found to be one, which holds what its parts are read as. -/
theorem scan_literal (strictMode : Bool) (text : setting.source.text = literal quote parts)
    (standing : Standing quote parts) (proper : quote = '"' ∨ quote = '\'')
    (allowed : ∀ part ∈ parts, part.isOctal = true → (strictMode && setting.isModule) = false) :
    (scan setting strictMode).Finds (parts.flatMap StringPart.reads) setting.source.size
      ⟨1 + parts.countP StringPart.breaks,
        setting.source.size - lineStart StringPart.breaks 0 1 parts⟩ (firstOctal 1 parts) := by
  have size : setting.source.size = 1 + byteLength (parts.flatMap StringPart.text) + 1 := by
    have sized : quote.utf8Size = 1 := by rcases proper with rfl | rfl <;> decide
    simp [Source.size_eq, text, literal, StringPart.remainder, sized, Nat.add_assoc]
  let initial : State := .initial (strictMode && setting.isModule)
  let first : State :=
    { initial with
      pos := setting.source.size
      line := 1 + parts.countP StringPart.breaks
      lineStart := lineStart StringPart.breaks 0 1 parts
      stop := setting.source.size
      stopLoc := ⟨1 + parts.countP StringPart.breaks,
        setting.source.size - lineStart StringPart.breaks 0 1 parts⟩
      kind := .string
      value := .text (String.ofList (parts.flatMap StringPart.reads))
      exprAllowed := false
      containsOctal := (firstOctal 1 parts).isSome
      octalPosition := firstOctal 1 parts }
  have begins := begins_literal _ text standing proper allowed
  have reached : initial.starting.behindString parts = first := by
    simp [first, initial, State.behindString, StringPart.foldl_passed, State.starting, State.initial,
      State.position, Position.origin, size]
  rw [reached] at begins
  have ends : next setting first = .ok () first.recordToken.passToken.atEnd := by
    have ended : setting.source.charAt? setting.source.size = none :=
      (Source.At.finish setting.source).charAt?
    have begun : lineStart StringPart.breaks 0 1 parts ≤ setting.source.size := by
      have := StringPart.lineStart_le StringPart.breaks parts (Nat.zero_le 1)
      omega
    change nextToken setting first.recordToken.passToken = _
    exact nextToken_end ended begun rfl
  rw [scan_eq_pair begins ends rfl rfl]
  exact ⟨rfl, rfl, rfl, rfl, rfl⟩

/-- A string holds the text that its parts write, under strict rules and others. -/
theorem scan_decodes (strictMode : Bool) {value : List Char}
    (text : setting.source.text = literal quote parts)
    (proper : quote = '"' ∨ quote = '\'') (encodes : Encodes quote parts value) :
    (scan setting strictMode).Finds value setting.source.size
      ⟨1 + parts.countP StringPart.breaks,
        setting.source.size - lineStart StringPart.breaks 0 1 parts⟩ none := by
  have found := scan_literal strictMode text encodes.standing proper
    fun part inside octal => absurd octal (by simp [encodes.isOctal part inside])
  rwa [encodes.reads, StringPart.firstOctal_eq_none encodes.isOctal] at found

/-- A string with each kind of escape, a continued line and a character beyond the basic plane. -/
theorem scan_decodes_mixed :
    let parts : List StringPart :=
      [.plain 'a', .byte ['4', '1'], .unit ['0', '0', 'e', '9'], .continued ['\n'],
        .codePoint ['0', '1', 'F', '6', '0', '0'], .escaped 'n', .escaped '\'']
    let value := ['a', 'A', 'é', '😀', '\n', '\'']
    let setting : Setting := { source := { text := literal '\'' parts } }
    setting.source.text = literal '\'' parts ∧ Encodes '\'' parts value ∧
      (scan setting true).Finds value 29 ⟨2, 15⟩ none := by
  intro parts value setting
  have encodes : Encodes '\'' parts value :=
    .cons (.plain (by decide) (by decide) (by decide)) <|
      .cons (.byte rfl rfl rfl) <|
      .cons (.unit rfl rfl rfl) <| .continued <|
      .cons (.codePoint (by decide) rfl rfl) <|
      .cons (.control (by decide)) <| .cons (.itself (by decide)) .nil
  have text : setting.source.text = literal '\'' parts := rfl
  exact ⟨text, encodes, scan_decodes true text (.inr rfl) encodes⟩

/-- Where the rules are not strict, a string holds what its parts are read as, and is marked at the
first octal digits for a character that is not null. The value is what the parts stand for, and a
line starts behind each line terminator after a backslash, unless one of those is a separator. -/
theorem scan_continues_iff (strictMode : Bool) (text : setting.source.text = literal quote parts)
    (standing : Standing quote parts) (proper : quote = '"' ∨ quote = '\'')
    (sloppy : (strictMode && setting.isModule) = false) :
    let size := setting.source.size
    let octal := firstOctal 1 parts
    (scan setting strictMode).Finds (parts.flatMap StringPart.reads) size
        ⟨1 + parts.countP StringPart.breaks, size - lineStart StringPart.breaks 0 1 parts⟩ octal ∧
      ((scan setting strictMode).Finds (parts.flatMap StringPart.denotes) size
          ⟨1 + parts.countP StringPart.isContinued,
            size - lineStart StringPart.isContinued 0 1 parts⟩ octal ↔
        parts.any StringPart.isSeparated = false) := by
  intro size octal
  have found := scan_literal strictMode text standing proper fun _ _ _ => sloppy
  refine ⟨found, ?_, ?_⟩
  · intro expected
    have same := expected.tokens.symm.trans found.tokens
    simp only [List.cons.injEq, Token.mk.injEq, Value.text.injEq, String.ofList_inj] at same
    have length := congrArg List.length same.1.2.1
    rw [StringPart.length_reads standing] at length
    have none : parts.countP StringPart.isSeparated = 0 := by omega
    simpa using List.countP_eq_zero.mp none
  · intro joined
    have parted : ∀ part ∈ parts, part.isSeparated = false := by simpa using joined
    have starts : ∀ part ∈ parts, part.breaks = part.isContinued := fun part inside =>
      (StringPart.reads_eq_denotes (parted part inside)).2
    have values : parts.flatMap StringPart.reads = parts.flatMap StringPart.denotes :=
      List.flatMap_congr fun part inside => (StringPart.reads_eq_denotes (parted part inside)).1
    have lines : parts.countP StringPart.breaks = parts.countP StringPart.isContinued :=
      List.countP_congr fun part inside => by rw [starts part inside]
    rwa [values, lines, StringPart.lineStart_congr starts] at found

/-- A string in which octal escapes stand before and after a line that is continued with two
characters. -/
theorem scan_continues_iff_octal :
    let parts : List StringPart :=
      [.plain 'a', .octal ['1', '0', '1'], .plain '8', .continued ['\r', '\n'], .octal ['0'],
        .plain 'b', .octal ['4', '0'], .plain '0']
    let setting : Setting := { source := { text := literal '"' parts } }
    setting.source.text = literal '"' parts ∧ Standing '"' parts ∧
      (scan setting false).Finds ['a', 'A', '8', '\x00', 'b', ' ', '0'] 18 ⟨2, 8⟩ (some 2) := by
  intro parts setting
  have text : setting.source.text = literal '"' parts := rfl
  have standing : Standing '"' parts := by decide
  exact ⟨text, standing, (scan_continues_iff false text standing (.inl rfl) rfl).2.mpr rfl⟩

/-- A separator after a backslash stays in the string, and no line starts behind it. -/
theorem scan_keeps_escaped_separator :
    ¬(scan { source := .ofString "'\\\u2028'" } false).Finds [] 6 ⟨2, 1⟩ none := by
  intro found
  have places := congrArg (List.map Token.loc) found.tokens
  revert places
  decide +kernel

end Lexer

end EcmaSyntax
