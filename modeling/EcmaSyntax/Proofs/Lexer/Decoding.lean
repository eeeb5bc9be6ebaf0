import EcmaSyntax.Lexer.Quoted
import EcmaSyntax.Proofs.Lexer.Escape
import EcmaSyntax.Proofs.Lexer.Spelling

namespace EcmaSyntax

/-- What stands between the quotes of a string is made of parts. -/
inductive StringPart where
  /-- A character for itself. -/
  | plain (character : Char)
  /-- A character after a backslash. -/
  | escaped (mark : Char)
  /-- Two hexadecimal digits after a backslash and the letter for them. -/
  | byte (digits : List Char)
  /-- Four hexadecimal digits after a backslash and the letter for them. -/
  | unit (digits : List Char)
  /-- Hexadecimal digits in braces, after a backslash and the letter for them. -/
  | codePoint (digits : List Char)
  /-- Octal digits after a backslash. -/
  | octal (digits : List Char)
  /-- A line terminator after a backslash: the string goes on in the next line. -/
  | continued (terminator : List Char)

namespace StringPart

/-- How a part is written. -/
def text : StringPart → List Char
  | plain character => [character]
  | escaped mark => ['\\', mark]
  | byte digits => '\\' :: 'x' :: digits
  | unit digits => '\\' :: 'u' :: digits
  | codePoint digits => '\\' :: 'u' :: '\x7b' :: (digits ++ ['\x7d'])
  | octal digits => '\\' :: digits
  | continued terminator => '\\' :: terminator

/-- The letters that stand for a control character after a backslash, with what they stand for. -/
def controls : List (Char × Char) :=
  [('n', '\n'), ('r', '\r'), ('t', '\t'), ('b', '\x08'), ('v', '\x0b'), ('f', '\x0c')]

/-- What a character stands for after a backslash: most stand for themselves. -/
def meaning (mark : Char) : Char := (controls.lookup mark).getD mark

/-- What a part stands for by the rules of the language; a code that no character has stands for the
replacement character. -/
def denotes : StringPart → List Char
  | plain character => [character]
  | escaped mark => [meaning mark]
  | byte digits => [Lexer.charOf (Digit.number 16 digits)]
  | unit digits => [Lexer.charOf (Digit.number 16 digits)]
  | codePoint digits => [Lexer.charOf (Digit.number 16 digits)]
  | octal digits => [Lexer.charOf (Digit.number 8 digits)]
  | continued _ => []

/-- A string goes on behind a backslash and one of the two Unicode separators. -/
def isSeparated : StringPart → Bool
  | continued terminator => terminator.any Blank.isSeparator
  | _ => false

/-- What a part is read as: a separator after a backslash is kept. -/
def reads : StringPart → List Char
  | continued terminator => terminator.filter Blank.isSeparator
  | part => part.denotes

/-- A string goes on in the next line. -/
def isContinued : StringPart → Bool
  | continued _ => true
  | _ => false

/-- Octal digits stand for a character that is not null. -/
def isOctal : StringPart → Bool
  | octal digits => 0 < Digit.number 8 digits
  | _ => false

/-- Octal digits end before a character that is no octal digit, or with which they would code none
of the first 256 characters. -/
def endsOctal (digits : List Char) (next : Char) : Bool :=
  !Digit.isDigit 8 next || 255 < Digit.number 8 (digits ++ [next])

/-- A part may stand in a string with the given quote before the given text. A plain character ends
neither the string nor the line. Octal digits are as many as belong together: at most three, which
code one of the first 256 characters. A line feed belongs to the carriage return before it. -/
def Stands (quote : Char) (following : List Char) : StringPart → Prop
  | plain character =>
    character ≠ quote ∧ character ≠ '\\' ∧ Blank.isLineBreak character = false
  | escaped mark =>
    mark ≠ 'x' ∧ mark ≠ 'u' ∧ Digit.isDigit 8 mark = false ∧ Blank.isLineBreak mark = false
  | byte digits => digits.length = 2 ∧ digits.all (Digit.isDigit 16) = true
  | unit digits => digits.length = 4 ∧ digits.all (Digit.isDigit 16) = true
  | codePoint digits =>
    digits ≠ [] ∧ digits.all (Digit.isDigit 16) = true ∧
      Digit.number 16 digits ≤ Lexer.lastCodePoint
  | octal digits =>
    digits ≠ [] ∧ digits.length ≤ 3 ∧ digits.all (Digit.isDigit 8) = true ∧
      Digit.number 8 digits ≤ 255 ∧
        (digits.length = 3 ∨ following.head?.all (endsOctal digits) = true)
  | continued terminator =>
    terminator ∈ [['\n'], ['\r'], ['\r', '\n'], ['\u2028'], ['\u2029']] ∧
      (terminator = ['\r'] → following.head? ≠ some '\n')

instance (quote : Char) (following : List Char) :
    (part : StringPart) → Decidable (part.Stands quote following)
  | plain _ => inferInstanceAs (Decidable (_ ∧ _))
  | escaped _ => inferInstanceAs (Decidable (_ ∧ _))
  | byte _ => inferInstanceAs (Decidable (_ ∧ _))
  | unit _ => inferInstanceAs (Decidable (_ ∧ _))
  | codePoint _ => inferInstanceAs (Decidable (_ ∧ _))
  | octal _ => inferInstanceAs (Decidable (_ ∧ _))
  | continued _ => inferInstanceAs (Decidable (_ ∧ _))

/-- A new line starts behind a part. -/
def breaks : StringPart → Bool
  | continued terminator => !terminator.any Blank.isSeparator
  | _ => false

theorem plain_or_escape (part : StringPart) :
    (∃ character, part = plain character) ∨ ∃ more, part.text = '\\' :: more := by
  cases part with
  | plain character => exact .inl ⟨character, rfl⟩
  | _ => exact .inr ⟨_, rfl⟩

/-- What the reading of a part does to the state. -/
def passed (state : Lexer.State) (part : StringPart) : Lexer.State :=
  let pos := state.pos + byteLength part.text
  { state with
    pos := pos
    line := state.line + if part.breaks then 1 else 0
    lineStart := if part.breaks then pos else state.lineStart
    containsOctal := state.containsOctal || part.isOctal
    octalPosition :=
      if part.isOctal && !state.containsOctal then some state.pos else state.octalPosition }

/-- A part that breaks no line and is no octal escape only moves the cursor. -/
theorem passed_eq {state : Lexer.State} {part : StringPart} (inLine : part.breaks = false)
    (plain : part.isOctal = false) :
    part.passed state = { state with pos := state.pos + byteLength part.text } := by
  simp [passed, inLine, plain]

/-- A continued line begins a new line after its terminator. -/
theorem passed_continued {state : Lexer.State} {terminator : List Char} {stop : Nat}
    (ends : terminator.any Blank.isSeparator = false)
    (here : state.pos + byteLength ('\\' :: terminator) = stop) :
    (continued terminator).passed state =
      { state with pos := stop, line := state.line + 1, lineStart := stop } := by
  subst here
  simp [passed, breaks, isOctal, ends, text]

/-- The offset of the first octal digits among parts that stand for a character that is not null. -/
def firstOctal : Nat → List StringPart → Option Nat
  | _, [] => none
  | offset, part :: rest =>
    if part.isOctal then some offset else firstOctal (offset + byteLength part.text) rest

/-- The offset at which the line starts that parts end in, if some of them start lines: first the
offset for the line before them, then their own. -/
def lineStart (starts : StringPart → Bool) : Nat → Nat → List StringPart → Nat
  | former, _, [] => former
  | former, offset, part :: rest =>
    let next := offset + byteLength part.text
    lineStart starts (if starts part then next else former) next rest

/-- The last line in a string begins no later than the string ends. -/
theorem lineStart_le (starts : StringPart → Bool) (parts : List StringPart) {former offset : Nat}
    (begun : former ≤ offset) :
    lineStart starts former offset parts ≤ offset + byteLength (parts.flatMap text) := by
  induction parts generalizing former offset with
  | nil => simpa [lineStart] using begun
  | cons part rest inductionHypothesis =>
      rw [lineStart, List.flatMap_cons, byteLength_append, ← Nat.add_assoc]
      refine inductionHypothesis ?_
      split <;> omega

/-- Where lines begin depends only on the parts of the string. -/
theorem lineStart_congr {first second : StringPart → Bool} {parts : List StringPart}
    (same : ∀ part ∈ parts, first part = second part) (former offset : Nat) :
    lineStart first former offset parts = lineStart second former offset parts := by
  induction parts generalizing former offset with
  | nil => rfl
  | cons part rest inductionHypothesis =>
      obtain ⟨here, others⟩ := List.forall_mem_cons.mp same
      rw [lineStart, lineStart, here, inductionHypothesis others]

/-- Parts move the cursor behind them, start lines, and leave behind where the first octal digits
were. -/
theorem foldl_passed (parts : List StringPart) (state : Lexer.State) :
    parts.foldl passed state =
      { state with
        pos := state.pos + byteLength (parts.flatMap text)
        line := state.line + parts.countP breaks
        lineStart := lineStart breaks state.lineStart state.pos parts
        containsOctal := state.containsOctal || (firstOctal state.pos parts).isSome
        octalPosition :=
          if state.containsOctal then state.octalPosition
          else (firstOctal state.pos parts).or state.octalPosition } := by
  induction parts generalizing state with
  | nil => simp [firstOctal, lineStart]
  | cons part rest inductionHypothesis =>
      rw [List.foldl_cons, inductionHypothesis]
      cases ends : part.breaks <;> cases octal : part.isOctal <;> cases held : state.containsOctal <;>
        simp [passed, firstOctal, lineStart, ends, octal, held, Nat.add_assoc, Nat.add_comm 1]

/-- The rest of a string of parts, up to its quote. -/
def remainder (quote : Char) (parts : List StringPart) : List Char :=
  parts.flatMap text ++ [quote]

theorem remainder_cons (quote : Char) (part : StringPart) (rest : List StringPart) :
    remainder quote (part :: rest) = part.text ++ remainder quote rest := by
  simp [remainder]

/-- Whether a part may stand before a text is up to the first character of that. -/
theorem Stands.append {quote : Char} {following others : List Char} {part : StringPart}
    (stands : part.Stands quote following) (filled : following ≠ []) :
    part.Stands quote (following ++ others) := by
  have same : (following ++ others).head? = following.head? := List.head?_append_of_ne_nil _ filled
  cases part <;> simpa [Stands, same] using stands

theorem remainder_ne_nil (quote : Char) (parts : List StringPart) : remainder quote parts ≠ [] := by
  simp [remainder]

/-- No part is empty. -/
theorem length_lt_remainder (quote : Char) (parts : List StringPart) :
    parts.length < byteLength (remainder quote parts) := by
  induction parts with
  | nil => exact Source.byteLength_pos (remainder_ne_nil quote [])
  | cons part rest inductionHypothesis =>
      have filled : 0 < byteLength part.text := by
        rcases part.plain_or_escape with ⟨character, rfl⟩ | ⟨more, escape⟩
        · exact Source.byteLength_pos (List.cons_ne_nil _ _)
        · exact Source.byteLength_pos (escape ▸ List.cons_ne_nil _ _)
      rw [remainder_cons, byteLength_append, List.length_cons]
      omega

/-- Each of the parts may stand before those that follow it. -/
def Standing (quote : Char) : List StringPart → Prop
  | [] => True
  | part :: rest => part.Stands quote (remainder quote rest) ∧ Standing quote rest

instance decidableStanding (quote : Char) : (parts : List StringPart) → Decidable (Standing quote parts)
  | [] => inferInstanceAs (Decidable True)
  | _ :: rest =>
    have := decidableStanding quote rest
    inferInstanceAs (Decidable (_ ∧ _))

end StringPart

namespace Lexer

variable {setting : Setting} {state : State} {α : Type}

section Digits

variable {source : Source} {offset count radix : Nat} {before digits rest : List Char}

/-- Characters that pass a test are passed over up to one that does not, or up to so many of
them. -/
theorem passOver_eq {test : Char → Bool} (parted : source.At offset before (digits ++ rest))
    (all : ∀ character ∈ digits, test character = true) (enough : digits.length ≤ count)
    (stops : count = digits.length ∨ ∀ character ∈ rest.head?, test character = false) :
    source.passOver test count offset = offset + byteLength digits := by
  induction digits generalizing offset before count with
  | nil =>
      cases count with
      | zero => simp [Source.passOver]
      | succ count =>
          obtain stops := stops.resolve_left (by simp)
          rw [Source.passOver, parted.charAt?, List.nil_append]
          cases rest with
          | nil => simp
          | cons character rest => simp [stops character rfl]
  | cons digit digits inductionHypothesis =>
      obtain ⟨passes, others⟩ := List.forall_mem_cons.mp all
      obtain ⟨count, rfl⟩ := Nat.exists_eq_add_of_lt (Nat.lt_of_succ_le enough)
      rw [show digits.length + count + 1 = (digits.length + count) + 1 from rfl, Source.passOver,
        parted.charAt?]
      simp only [List.cons_append, List.head?_cons, passes, if_true]
      rw [inductionHypothesis parted.next others (by omega) (stops.imp (by simp) id), byteLength_cons,
        Nat.add_assoc]

/-- Digits are found again where the text goes on with them. -/
theorem takeWhile_charsBetween (radix count : Nat) (parted : source.At offset before digits) :
    (source.charsBetween offset (offset + count)).takeWhile (Digit.isDigit radix) =
      (digits.takeWhile (Digit.isDigit radix)).take count := by
  induction count generalizing offset before digits with
  | zero => simp [charsBetween_self]
  | succ count inductionHypothesis =>
      cases digits with
      | nil =>
          simp [List.prefix_nil.mp (Source.charsBetween_prefix parted (count + 1))]
      | cons digit digits =>
          rw [charsBetween_succ count parted.charAt?]
          cases passes : Digit.isDigit radix digit with
          | false => simp [passes]
          | true =>
              have next := parted.next
              rw [(Digit.inside passes).2.2] at next
              simp [passes, inductionHypothesis next]

end Digits

section Escapes

variable {before digits following : List Char}

theorem utf8Size_braceR : ('\x7d').utf8Size = 1 := by decide

/-- Hexadecimal digits are read as the number that they spell. -/
theorem readHex_eq (state : State)
    (parted : setting.source.At state.pos before (digits ++ following)) (filled : digits ≠ [])
    (all : ∀ digit ∈ digits, Digit.isDigit 16 digit = true) :
    readHex digits.length setting state =
      .ok (Digit.number 16 digits) { state with pos := state.pos + byteLength digits } := by
  have long := List.length_pos_of_ne_nil filled
  have between := Source.charsBetween_eq parted
  rw [byteLength_digits all] at between ⊢
  rw [eq_ok_iff_succeeds]
  simp [readHex, passOver_eq parted all (Nat.le_refl _) (.inl rfl), byteLength_digits all, long,
    between]

/-- A code point in braces is read if it is one. -/
theorem readCodePoint_eq (state : State)
    (parted : setting.source.At state.pos before ('\x7b' :: (digits ++ '\x7d' :: following)))
    (filled : digits ≠ []) (all : ∀ digit ∈ digits, Digit.isDigit 16 digit = true)
    (known : Digit.number 16 digits ≤ lastCodePoint) :
    readCodePoint setting state =
      .ok (Digit.number 16 digits) { state with pos := state.pos + (byteLength digits + 2) } := by
  have opening : setting.source.hasAt state.pos '\x7b' = true :=
    Source.hasAt_iff.mpr parted.charAt?
  have inner := parted.next
  rw [utf8Size_braceL] at inner
  have whole := inner.add_eq_size
  have lengths := byteLength_digits all
  simp only [byteLength_append, byteLength_cons, lengths] at whole
  have unclosed (digit : Char) (member : digit ∈ digits) : (digit != '\x7d') = true := by
    rw [bne_iff_ne]
    rintro rfl
    exact absurd (all _ member) (by decide)
  have stops : setting.source.skipWhile (· != '\x7d') (state.pos + 1) =
      state.pos + 1 + byteLength digits :=
    passOver_eq inner unclosed (by omega) (.inr (by simp))
  have closing : setting.source.hasAt (state.pos + 1 + byteLength digits) '\x7d' = true :=
    Source.hasAt_iff.mpr inner.append.charAt?
  have boundary := Source.isBoundary_iff.mpr ⟨_, _, inner⟩
  have read := readHex_eq { state with pos := state.pos + 1 } inner filled all
  rw [← lengths] at read
  rw [eq_ok_iff_succeeds]
  simp [readCodePoint, opening, succeeds_checkRest, boundary, stops, closing,
    succeeds_of_eq_ok read, Nat.not_lt.mpr known]
  omega

/-- Four digits belong to a code point without braces. -/
theorem readCodePoint_unit (state : State)
    (parted : setting.source.At state.pos before (digits ++ following))
    (all : ∀ digit ∈ digits, Digit.isDigit 16 digit = true) (four : digits.length = 4) :
    readCodePoint setting state =
      .ok (Digit.number 16 digits) { state with pos := state.pos + byteLength digits } := by
  obtain ⟨digit, rest, rfl⟩ := List.exists_cons_of_ne_nil (l := digits) (by rintro rfl; cases four)
  have other : digit ≠ '\x7b' := by
    rintro rfl
    exact absurd (all _ List.mem_cons_self) (by decide)
  have unopened : setting.source.hasAt state.pos '\x7b' = false := by
    simpa [Source.hasAt, parted.charAt?] using other
  have read := readHex_eq state parted (by simp) all
  rw [four] at read
  rw [eq_ok_iff_succeeds]
  simp [readCodePoint, unopened, succeeds_of_eq_ok read]

/-- As many octal digits are taken as belong together. -/
theorem octalDigits_eq (state : State) {start : Nat} {quote : Char}
    (parted : setting.source.At start before (digits ++ following))
    (stands : (StringPart.octal digits).Stands quote following) :
    octalDigits start setting state = .ok digits state := by
  obtain ⟨filled, short, all, small, greatest⟩ := stands
  rw [List.all_eq_true] at all
  have length := byteLength_digits all
  have sliced := Source.slice?_eq parted
  rw [length] at sliced
  have ahead := takeWhile_charsBetween 8 3 parted
  rw [List.takeWhile_append_of_pos all] at ahead
  rw [eq_ok_iff_succeeds]
  by_cases further : digits.length < 3 ∧ ∃ next ∈ following.head?, Digit.isDigit 8 next = true
  · -- one digit more is taken at first
    obtain ⟨less, next, known, octal⟩ := further
    have large : 255 < Digit.number 8 (digits ++ [next]) := by
      have ends := (Option.all_eq_true ..).mp (greatest.resolve_left (by omega)) next known
      simpa [StringPart.endsOctal, octal] using ends
    obtain ⟨others, rfl⟩ : ∃ others, following = next :: others := by
      cases following with
      | nil => cases known
      | cons first others => exact ⟨others, by rw [Option.some.inj known]⟩
    have two : digits.length = 2 := by
      have some := List.length_pos_iff.mpr filled
      have bound : Digit.number 8 (digits ++ [next]) < 8 ^ (digits ++ [next]).length :=
        number_lt (by decide)
      by_contra other
      rw [List.length_append, show digits.length = 1 by omega] at bound
      exact absurd (Nat.lt_trans large bound) (by simp)
    have longer : setting.source.slice? start (start + 3) = some (digits ++ [next]) := by
      rw [← List.singleton_append, ← List.append_assoc] at parted
      have spelled := Source.slice?_eq parted
      rwa [byteLength_append, length, two, byteLength_cons, (Digit.inside octal).2.2] at spelled
    have same : (digits ++ (next :: others).takeWhile (Digit.isDigit 8)).take 3 =
        digits ++ [next] := by
      rw [List.takeWhile_cons_of_pos octal, List.take_append, two]
      simp [two]
    rw [same] at ahead
    rw [two] at sliced
    simp [octalDigits, ahead, succeeds_slice, two, longer, large, sliced]
  · have same : (digits ++ following.takeWhile (Digit.isDigit 8)).take 3 = digits := by
      by_cases three : digits.length = 3
      · rw [List.take_append, three]
        simp [← three]
      · have ends : following.takeWhile (Digit.isDigit 8) = [] := by
          cases following with
          | nil => rfl
          | cons next others =>
              refine List.takeWhile_cons_of_neg fun octal => further ⟨by omega, next, rfl, octal⟩
        rw [ends, List.append_nil, List.take_of_length_le short]
    rw [same] at ahead
    simp [octalDigits, ahead, succeeds_slice, sliced, Nat.not_lt.mpr small]

/-- The first octal digit has been passed before the escape is read. -/
theorem readOctal_eq (state : State) {quote digit : Char} {digits : List Char} (later : 2 ≤ state.pos)
    (parted : setting.source.At (state.pos - 1) before (digit :: digits ++ following))
    (stands : (StringPart.octal (digit :: digits)).Stands quote following)
    (allowed : 0 < Digit.number 8 (digit :: digits) → state.strict = false) :
    readOctal false setting state = .ok [charOf (Digit.number 8 (digit :: digits))]
      (StringPart.passed { state with pos := state.pos - 2 } (.octal (digit :: digits))) := by
  have length := byteLength_digits (List.all_eq_true.mp stands.2.2.1)
  have known := octalDigits_eq state parted stands
  rw [eq_ok_iff_succeeds]
  simp only [readOctal, Succeeds.bind_iff, succeeds_behind, succeeds_of_eq_ok known]
  refine ⟨by omega, ?_⟩
  have here : state.pos - 2 + byteLength (StringPart.octal (digit :: digits)).text =
      state.pos - 1 + (digit :: digits).length := by
    rw [StringPart.text, byteLength_cons, length, utf8Size_backslash]
    omega
  by_cases coded : 0 < Digit.number 8 (digit :: digits)
  · cases before : state.containsOctal
    · simp [coded, allowed coded, before, StringPart.passed, StringPart.breaks,
        StringPart.isOctal, succeeds_behind, later, here]
    · simp [coded, allowed coded, before, StringPart.passed, StringPart.breaks,
        StringPart.isOctal, succeeds_behind, later, here]
  · simp [coded, StringPart.passed, StringPart.breaks, StringPart.isOctal, here]

/-- Behind the backslash of an escape its text goes on. -/
theorem at_behindMark (parted : setting.source.At state.pos before ('\\' :: following)) :
    setting.source.At (state.pos + 1) (before ++ ['\\']) following := by
  simpa [utf8Size_backslash] using parted.next

/-- Most characters stand for themselves after a backslash, and some for a control character. -/
theorem readEscape_escaped {mark quote : Char}
    (parted : setting.source.At state.pos before ((StringPart.escaped mark).text ++ following))
    (stands : (StringPart.escaped mark).Stands quote following) :
    readEscape false setting state =
      .ok (StringPart.escaped mark).reads ((StringPart.escaped mark).passed state) := by
  obtain ⟨byte, unit, octal, inside⟩ := stands
  have found : setting.source.charAt? (state.pos + 1) = some mark := (at_behindMark parted).charAt?
  have next : (StringPart.escaped mark).passed state =
      { state with pos := state.pos + 1 + mark.utf8Size } := by
    rw [StringPart.passed_eq rfl rfl]
    simp [StringPart.text, Nat.add_assoc, utf8Size_backslash]
  rw [eq_ok_iff_succeeds]
  simp only [readEscape, Succeeds.bind_iff, succeeds_advance, succeeds_peek, Nat.add_zero, found, next]
  split
  case h_3 => exact absurd rfl byte
  case h_4 => exact absurd rfl unit
  case h_9 => exact absurd inside (by decide)
  case h_10 => exact absurd inside (by decide)
  case h_11 newline carriage _ _ tab backspace vertical form _ _ =>
    rw [if_neg (by simp [octal])]
    refine ⟨?_, rfl⟩
    have plain : StringPart.controls.lookup mark = none := by
      rw [List.lookup_eq_none_iff]
      simp [StringPart.controls]
      exact ⟨newline, carriage, tab, backspace, vertical, form⟩
    simp [StringPart.reads, StringPart.denotes, StringPart.meaning, plain]
  all_goals exact ⟨rfl, rfl⟩

/-- A code is read after the letter for it. -/
theorem readEscape_coded {letter : Char} {code : Nat} {read : Scan Nat} {last : State}
    (known : letter = 'x' ∧ read = readHex 2 ∨ letter = 'u' ∧ read = readCodePoint)
    (parted : setting.source.At state.pos before ('\\' :: letter :: following))
    (success : read setting { state with pos := state.pos + 1 + letter.utf8Size } = .ok code last) :
    readEscape false setting state = .ok [charOf code] last := by
  have found : setting.source.charAt? (state.pos + 1) = some letter := (at_behindMark parted).charAt?
  rw [eq_ok_iff_succeeds]
  rcases known with ⟨rfl, rfl⟩ | ⟨rfl, rfl⟩
  all_goals
    simp only [readEscape, Succeeds.bind_iff, succeeds_advance, succeeds_peek, Nat.add_zero, found,
      succeeds_of_eq_ok success, succeeds_pure, and_self]

/-- An escape of two digits is read. -/
theorem readEscape_byte {digits : List Char} {quote : Char}
    (parted : setting.source.At state.pos before ((StringPart.byte digits).text ++ following))
    (stands : (StringPart.byte digits).Stands quote following) :
    readEscape false setting state =
      .ok (StringPart.byte digits).reads ((StringPart.byte digits).passed state) := by
  obtain ⟨two, all⟩ := stands
  have read := readHex_eq { state with pos := state.pos + 1 + ('x').utf8Size }
    (at_behindMark parted).next (by rintro rfl; cases two) (List.all_eq_true.mp all)
  rw [two] at read
  rw [readEscape_coded (.inl ⟨rfl, rfl⟩) parted read, StringPart.passed_eq rfl rfl]
  simp [StringPart.reads, StringPart.denotes, StringPart.text, Nat.add_assoc, utf8Size_backslash]

/-- An escape of four digits is read. -/
theorem readEscape_unit {digits : List Char} {quote : Char}
    (parted : setting.source.At state.pos before ((StringPart.unit digits).text ++ following))
    (stands : (StringPart.unit digits).Stands quote following) :
    readEscape false setting state =
      .ok (StringPart.unit digits).reads ((StringPart.unit digits).passed state) := by
  obtain ⟨four, all⟩ := stands
  have read := readCodePoint_unit { state with pos := state.pos + 1 + ('u').utf8Size }
    (at_behindMark parted).next (List.all_eq_true.mp all) four
  rw [readEscape_coded (.inr ⟨rfl, rfl⟩) parted read, StringPart.passed_eq rfl rfl]
  simp [StringPart.reads, StringPart.denotes, StringPart.text, Nat.add_assoc, utf8Size_backslash]

/-- An escape of a code point in braces is read. -/
theorem readEscape_codePoint {digits : List Char} {quote : Char}
    (parted : setting.source.At state.pos before ((StringPart.codePoint digits).text ++ following))
    (stands : (StringPart.codePoint digits).Stands quote following) :
    readEscape false setting state =
      .ok (StringPart.codePoint digits).reads ((StringPart.codePoint digits).passed state) := by
  obtain ⟨filled, all, known⟩ := stands
  have read := readCodePoint_eq { state with pos := state.pos + 1 + ('u').utf8Size }
    (by simpa using (at_behindMark parted).next) filled (List.all_eq_true.mp all) known
  rw [readEscape_coded (.inr ⟨rfl, rfl⟩) parted read, StringPart.passed_eq rfl rfl]
  simp [StringPart.reads, StringPart.denotes, StringPart.text, Nat.add_assoc, utf8Size_backslash,
    utf8Size_braceL, utf8Size_braceR]
  omega

/-- An octal escape is read where it is allowed. -/
theorem readEscape_octal {digits : List Char} {quote : Char}
    (parted : setting.source.At state.pos before ((StringPart.octal digits).text ++ following))
    (stands : (StringPart.octal digits).Stands quote following)
    (allowed : (StringPart.octal digits).isOctal = true → state.strict = false) :
    readEscape false setting state =
      .ok (StringPart.octal digits).reads ((StringPart.octal digits).passed state) := by
  obtain ⟨digit, rest, rfl⟩ := List.exists_cons_of_ne_nil stands.1
  have octal := List.all_eq_true.mp stands.2.2.1 digit List.mem_cons_self
  have size := (Digit.inside octal).2.2
  have first := at_behindMark parted
  have found : setting.source.charAt? (state.pos + 1) = some digit := first.charAt?
  have read := readOctal_eq { state with pos := state.pos + 1 + digit.utf8Size }
    (by simp [size]) (by simpa [size] using first) stands
    (by simpa [StringPart.isOctal] using allowed)
  rw [eq_ok_iff_succeeds]
  simp only [readEscape, Succeeds.bind_iff, succeeds_advance, succeeds_peek, Nat.add_zero, found]
  split
  case h_11 =>
    rw [if_pos octal, succeeds_of_eq_ok read]
    refine ⟨rfl, ?_⟩
    congr 2
    change state.pos + 1 + digit.utf8Size - 2 = state.pos
    omega
  all_goals exact absurd octal (by decide)

/-- A separator after a backslash is no line terminator to the reading. -/
theorem readEscape_continued {terminator : List Char} {quote : Char}
    (parted : setting.source.At state.pos before
      ((StringPart.continued terminator).text ++ following))
    (stands : (StringPart.continued terminator).Stands quote following) :
    readEscape false setting state =
      .ok (StringPart.continued terminator).reads ((StringPart.continued terminator).passed state) := by
  obtain ⟨known, alone⟩ := stands
  have first := at_behindMark parted
  rw [eq_ok_iff_succeeds]
  simp only [List.mem_cons, List.not_mem_nil, or_false] at known
  rcases known with rfl | rfl | rfl | rfl | rfl
  · have found : setting.source.charAt? (state.pos + 1) = some '\n' := first.charAt?
    simp only [readEscape, Succeeds.bind_iff, succeeds_advance, succeeds_peek, Nat.add_zero, found,
      succeeds_get, succeeds_startLine, succeeds_pure]
    exact ⟨rfl, (StringPart.passed_continued rfl (by rfl)).symm⟩
  · have found : setting.source.charAt? (state.pos + 1) = some '\r' := first.charAt?
    have ends : setting.source.hasAt (state.pos + 1 + ('\r').utf8Size) '\n' = false := by
      simpa [Source.hasAt, first.next.charAt?] using alone rfl
    simp only [readEscape, Succeeds.bind_iff, succeeds_advance, succeeds_peek, Nat.add_zero, found,
      succeeds_peekIs, ends, Bool.false_eq_true, if_false, succeeds_get, succeeds_startLine,
      succeeds_pure]
    exact ⟨rfl, (StringPart.passed_continued rfl (by rfl)).symm⟩
  · have found : setting.source.charAt? (state.pos + 1) = some '\r' := first.charAt?
    have feed : setting.source.hasAt (state.pos + 1 + ('\r').utf8Size) '\n' = true :=
      Source.hasAt_iff.mpr first.next.charAt?
    simp only [readEscape, Succeeds.bind_iff, succeeds_advance, succeeds_peek, Nat.add_zero, found,
      succeeds_peekIs, feed, if_true, succeeds_get, succeeds_startLine, succeeds_pure]
    exact ⟨rfl, (StringPart.passed_continued rfl (by rfl)).symm⟩
  · have found : setting.source.charAt? (state.pos + 1) = some '\u2028' := first.charAt?
    simp only [readEscape, Succeeds.bind_iff, succeeds_advance, succeeds_peek, Nat.add_zero, found]
    rw [if_neg (by decide), StringPart.passed_eq rfl rfl]
    exact ⟨rfl, rfl⟩
  · have found : setting.source.charAt? (state.pos + 1) = some '\u2029' := first.charAt?
    simp only [readEscape, Succeeds.bind_iff, succeeds_advance, succeeds_peek, Nat.add_zero, found]
    rw [if_neg (by decide), StringPart.passed_eq rfl rfl]
    exact ⟨rfl, rfl⟩

/-- The escape of a part is read as what the part is read as. -/
theorem readEscape_eq {part : StringPart} {quote : Char}
    (parted : setting.source.At state.pos before (part.text ++ following))
    (stands : part.Stands quote following) {more : List Char} (escape : part.text = '\\' :: more)
    (allowed : part.isOctal = true → state.strict = false) :
    readEscape false setting state = .ok part.reads (part.passed state) := by
  cases part with
  | plain character =>
      obtain ⟨-, other, -⟩ := stands
      cases escape
      exact absurd rfl other
  | escaped mark => exact readEscape_escaped parted stands
  | byte digits => exact readEscape_byte parted stands
  | unit digits => exact readEscape_unit parted stands
  | codePoint digits => exact readEscape_codePoint parted stands
  | octal digits => exact readEscape_octal parted stands allowed
  | continued terminator => exact readEscape_continued parted stands

end Escapes

section Strings

open StringPart (remainder Standing)

variable {quote : Char} {before following : List Char} {parts : List StringPart}

theorem slice?_self {offset : Nat} (parted : setting.source.At offset before following) :
    setting.source.slice? offset offset = some [] := by
  rw [← List.nil_append following] at parted
  exact Source.slice?_eq parted

/-- A step of the reading of a string, in which the rest is read up to the quote: what has been
passed but not gathered comes first, then what the parts are read as. -/
theorem gatherString_eq (state : State) (gathered : List Char)
    (parted : setting.source.At state.pos before (remainder quote parts ++ following))
    (standing : Standing quote parts) (proper : quote ≠ '\\')
    (allowed : ∀ part ∈ parts, part.isOctal = true → state.strict = false)
    {count chunk : Nat} {pending : List Char} (enough : parts.length < count)
    (passed : setting.source.slice? chunk state.pos = some pending) :
    gatherString quote count chunk gathered setting state =
      .ok ((pending ++ parts.flatMap StringPart.reads).reverse ++ gathered)
        (parts.foldl StringPart.passed state) := by
  induction parts generalizing state before count chunk pending gathered with
  | nil =>
      obtain ⟨count, rfl⟩ := Nat.exists_eq_add_of_lt enough
      have found : setting.source.charAt? state.pos = some quote := parted.charAt?
      rw [eq_ok_iff_succeeds]
      simp [gatherString, found, sliceFrom, succeeds_slice, passed]
  | cons part rest inductionHypothesis =>
      obtain ⟨count, rfl⟩ := Nat.exists_eq_add_one_of_ne_zero (Nat.ne_zero_of_lt enough)
      rw [StringPart.remainder_cons, List.append_assoc] at parted
      obtain ⟨stands, standing⟩ := standing
      obtain ⟨allowed, others⟩ := List.forall_mem_cons.mp allowed
      have fewer : rest.length < count := by simpa using enough
      rw [eq_ok_iff_succeeds]
      rcases part.plain_or_escape with ⟨character, rfl⟩ | ⟨more, escape⟩
      · obtain ⟨other, plain, inside⟩ := stands
        have found : setting.source.charAt? state.pos = some character := parted.charAt?
        have gathers := inductionHypothesis (StringPart.passed state (.plain character)) gathered
          parted.append standing others fewer
          (Source.slice?_append passed (Source.slice?_eq parted))
        have here : ({ state with pos := state.pos + character.utf8Size } : State) =
            StringPart.passed state (.plain character) := by
          rw [StringPart.passed_eq rfl rfl]
          rfl
        simp only [gatherString, Succeeds.bind_iff, succeeds_peek, Nat.add_zero, found]
        rw [if_neg (by simpa using other), if_neg (by simpa using plain), if_neg (by simp [inside]),
          Succeeds.bind_iff, succeeds_advance, here, succeeds_of_eq_ok gathers]
        simp [StringPart.reads, StringPart.denotes, StringPart.text]
      · have read := readEscape_eq parted (stands.append (StringPart.remainder_ne_nil _ _)) escape
          allowed
        have found : setting.source.charAt? state.pos = some '\\' := by
          rw [parted.charAt?, escape]
          rfl
        -- nothing has been passed behind the escape
        have gathers := inductionHypothesis (part.passed state)
          (part.reads.reverse ++ (pending.reverse ++ gathered)) parted.append standing others fewer
          (slice?_self parted.append)
        simp only [gatherString, Succeeds.bind_iff, succeeds_peek, Nat.add_zero, found]
        rw [if_neg (by simpa using proper.symm), if_pos (by decide)]
        simp only [Succeeds.bind_iff, sliceFrom, succeeds_get, succeeds_slice,
          succeeds_of_eq_ok read]
        refine ⟨pending, passed, ?_⟩
        rw [succeeds_of_eq_ok gathers]
        simp

/-- A token that is no mark ends where the cursor is. -/
theorem finishToken_eq (setting : Setting) (state : State) (value : Value) {kind : Kind}
    (plain : kind = .string ∨ kind = .eof) (begun : state.lineStart ≤ state.pos) :
    finishToken kind value setting state = .ok ()
      { state with
        stop := state.pos
        stopLoc := state.position
        kind := kind
        value := value
        exprAllowed := kind.beforeExpr } := by
  rw [eq_ok_iff_succeeds]
  simp only [finishToken, Succeeds.bind_iff, succeeds_position, succeeds_get, succeeds_modify]
  have words : Kind.string.isKeyword = false ∧ Kind.eof.isKeyword = false := by decide
  refine ⟨begun, ?_⟩
  rcases plain with rfl | rfl <;> cases jsx : setting.jsx <;>
    simp [nest, nestMarkup, nestPlain, allowExpr, jsx, words]

/-- A token starts at the cursor of a state. -/
def State.starting (state : State) : State :=
  { state with
    containsOctal := false
    octalPosition := none
    start := state.pos
    startLoc := state.position }

/-- A token begins where its line has begun. -/
theorem beginToken_eq (setting : Setting) (begun : state.lineStart ≤ state.pos) :
    beginToken setting state = .ok () state.starting := by
  rw [eq_ok_iff_succeeds]
  simp [beginToken, succeeds_position, begun, State.starting]

/-- Nothing is passed over where no blank and no comment begins. -/
theorem skipSpace_eq (stops : ∀ character ∈ setting.source.charAt? state.pos,
      Blank.isBlank character = false ∧ character ≠ '/') :
    skipSpace setting state = .ok () state := by
  rw [eq_ok_iff_succeeds]
  simp only [skipSpace, Succeeds.bind_iff, succeeds_remaining]
  cases setting.source.size - state.pos with
  | zero => simp [passBlanks]
  | succ count =>
      simp only [passBlanks, Succeeds.bind_iff, succeeds_peek, Nat.add_zero]
      cases found : setting.source.charAt? state.pos with
      | none => simp
      | some character =>
          obtain ⟨blank, other⟩ := stops character found
          simp only [Blank.isBlank, Bool.or_eq_false_iff] at blank
          simp [blank, other]

/-- A string of parts between two quotes has been read. -/
def State.behindString (parts : List StringPart) (state : State) : State :=
  let last := parts.foldl StringPart.passed { state with pos := state.pos + 1 }
  { last with
    pos := last.pos + 1
    stop := last.pos + 1
    stopLoc := { last with pos := last.pos + 1 }.position
    kind := .string
    value := .text (String.ofList (parts.flatMap StringPart.reads))
    exprAllowed := false }

/-- A string is read from one quote to the other. -/
theorem readString_eq (state : State)
    (parted : setting.source.At state.pos before (quote :: (remainder quote parts ++ following)))
    (standing : Standing quote parts) (proper : quote = '"' ∨ quote = '\'')
    (allowed : ∀ part ∈ parts, part.isOctal = true → state.strict = false)
    (begun : state.lineStart ≤ state.pos) :
    readString quote setting state = .ok () (state.behindString parts) := by
  let last := parts.foldl StringPart.passed { state with pos := state.pos + 1 }
  have size : quote.utf8Size = 1 := by rcases proper with rfl | rfl <;> decide
  have mark : quote ≠ '\\' := by rcases proper with rfl | rfl <;> decide
  have inner := parted.next
  rw [size] at inner
  have whole := inner.add_eq_size
  rw [byteLength_append] at whole
  have enough : parts.length < setting.source.size - (state.pos + 1) := by
    have := StringPart.length_lt_remainder quote parts
    omega
  have gathers := gatherString_eq { state with pos := state.pos + 1 } [] inner standing mark allowed
    enough (slice?_self inner)
  have ended : last.lineStart ≤ last.pos + 1 := by
    simp only [last, StringPart.foldl_passed]
    exact Nat.le_succ_of_le (StringPart.lineStart_le _ _ (Nat.le_succ_of_le begun))
  have ends := finishToken_eq setting { last with pos := last.pos + 1 }
    (.text (String.ofList (parts.flatMap StringPart.reads))) (.inl rfl) ended
  rw [eq_ok_iff_succeeds]
  simp only [readString, Succeeds.bind_iff, succeeds_advance, succeeds_remaining, succeeds_get,
    succeeds_of_eq_ok gathers]
  rw [List.append_nil, List.nil_append, List.reverse_reverse, succeeds_of_eq_ok ends]
  exact ⟨trivial, rfl⟩

end Strings

end Lexer

end EcmaSyntax
