import EcmaSyntax.Proofs.Lexer.Literal

namespace EcmaSyntax

namespace Lexer

variable {setting : Setting} {state : State}

section Marks

/-- A mark becomes a token of its length. -/
theorem mark_meets {kind : Kind} {length : Nat} {text : List Char}
    (begun : Begun setting.source state) (outside : state.context ≠ .quoteTemplate)
    (usual : kind.isOrdinary = true) (filled : text ≠ [])
    (plain : Plain setting.source text state.pos (state.pos + length)) :
    Meets (finishMark kind length) setting state fun _ after => Reads setting state after :=
  (finishMark_meets begun plain).mono fun _ _ ends => .ordinary ends usual filled outside

/-- An operator becomes a token of its length. -/
theorem operator_meets {kind : Kind} {length : Nat} {text : List Char}
    (begun : Begun setting.source state) (outside : state.context ≠ .quoteTemplate)
    (usual : kind.isOrdinary = true) (filled : text ≠ [])
    (plain : Plain setting.source text state.pos (state.pos + length)) :
    Meets (finishOperator kind length) setting state fun _ after => Reads setting state after :=
  (finishOperator_meets begun plain).mono fun _ _ ends => .ordinary ends usual filled outside

variable {character : Char}

/-- A point begins a number, three points spread something, and another one takes a member. -/
theorem readDot_meets (begun : Begun setting.source state)
    (outside : state.context ≠ .quoteTemplate)
    (beside : setting.jsx = true → state.context ≠ .jsxExpression)
    (found : setting.source.charAt? state.pos = some '.') :
    Meets readDot setting state fun _ after => Reads setting state after := by
  have one := Plain.single found (by decide)
  simp only [readDot, Meets.bind_iff, meets_peek]
  apply meets_ite
  · intro digit
    have dot := Source.hasAt_iff.mpr found
    refine (readNumber_meets ⟨begun, outside, beside, ?_⟩ fun _ => dot).mono fun _ _ met => met.1
    rw [Source.literalAt, dot, digit]
    simp
  intro _
  apply meets_ite
  · intro dots
    rw [Bool.and_eq_true] at dots
    have two := one.push begun.here dots.1 (by decide)
    have three := two.push begun.here dots.2 (by decide)
    exact mark_meets begun outside rfl (by simp) three
  · intro _
    exact mark_meets begun outside rfl (by simp) one

/-- A slash divides or begins a regular expression. -/
theorem readSlash_meets (begun : Begun setting.source state)
    (outside : state.context ≠ .quoteTemplate)
    (found : setting.source.charAt? state.pos = some '/') :
    Meets readSlash setting state fun _ after => Reads setting state after := by
  have one := Plain.single found (by decide)
  simp only [readSlash, Meets.bind_iff, meets_get]
  apply meets_ite
  · intro _
    rw [Meets.bind_iff, meets_advance]
    exact readRegExp_meets begun outside (one.moved _ rfl)
  intro _
  apply meets_ite
  · intro equals
    exact operator_meets begun outside rfl (by simp) (one.push begun.here equals (by decide))
  · intro _
    exact operator_meets begun outside rfl (by simp) one

/-- A star or a percent sign is read with what it is joined to. -/
theorem readStarModulo_meets (begun : Begun setting.source state)
    (outside : state.context ≠ .quoteTemplate)
    (found : setting.source.charAt? state.pos = some character) (narrow : Narrow character) :
    Meets (readStarModulo character) setting state fun _ after => Reads setting state after := by
  have one := Plain.single found narrow
  simp only [readStarModulo, Meets.bind_iff, meets_peekIs]
  apply meets_ite
  · intro star
    have two := one.push begun.here star (by decide)
    apply meets_ite
    · intro equals
      exact operator_meets begun outside rfl (by simp) (two.push begun.here equals (by decide))
    · intro _
      exact operator_meets begun outside rfl (by simp) two
  intro _
  apply meets_ite
  · intro equals
    exact operator_meets begun outside rfl (by simp) (one.push begun.here equals (by decide))
  · intro _
    exact operator_meets begun outside (by split <;> rfl) (by simp) one

/-- A bar or an ampersand is read alone or twice. -/
theorem readBarAmpersand_meets {twice once : Kind} (begun : Begun setting.source state)
    (outside : state.context ≠ .quoteTemplate)
    (found : setting.source.charAt? state.pos = some character) (narrow : Narrow character)
    (usual : twice.isOrdinary = true ∧ once.isOrdinary = true) :
    Meets (readBarAmpersand character twice once) setting state
      fun _ after => Reads setting state after := by
  have one := Plain.single found narrow
  simp only [readBarAmpersand, Meets.bind_iff, meets_peekIs]
  apply meets_ite
  · intro again
    exact operator_meets begun outside usual.1 (by simp) (one.push begun.here again narrow)
  intro _
  apply meets_ite
  · intro equals
    exact operator_meets begun outside rfl (by simp) (one.push begun.here equals (by decide))
  · intro _
    exact operator_meets begun outside usual.2 (by simp) one

/-- A caret is read, also where it assigns. -/
theorem readCaret_meets (begun : Begun setting.source state)
    (outside : state.context ≠ .quoteTemplate)
    (found : setting.source.charAt? state.pos = some '^') :
    Meets readCaret setting state fun _ after => Reads setting state after := by
  have one := Plain.single found (by decide)
  simp only [readCaret, Meets.bind_iff, meets_peekIs]
  apply meets_ite
  · intro equals
    exact operator_meets begun outside rfl (by simp) (one.push begun.here equals (by decide))
  · intro _
    exact operator_meets begun outside rfl (by simp) one

/-- An equals sign or an exclamation mark is read with the signs after it. -/
theorem readEqualsBang_meets (begun : Begun setting.source state)
    (outside : state.context ≠ .quoteTemplate)
    (found : setting.source.charAt? state.pos = some character) (narrow : Narrow character) :
    Meets (readEqualsBang character) setting state fun _ after => Reads setting state after := by
  have one := Plain.single found narrow
  simp only [readEqualsBang, Meets.bind_iff, meets_peekIs]
  apply meets_ite
  · intro equals
    have two := one.push begun.here equals (by decide)
    rw [Meets.bind_iff, meets_peekIs]
    split
    · next again =>
        exact operator_meets begun outside rfl (by simp) (two.push begun.here again (by decide))
    · exact operator_meets begun outside rfl (by simp) two
  intro _
  apply meets_ite
  · intro arrow
    rw [Bool.and_eq_true] at arrow
    exact mark_meets begun outside rfl (by simp) (one.push begun.here arrow.2 (by decide))
  · intro _
    exact operator_meets begun outside (by split <;> rfl) (by simp) one

/-- A number that begins with a zero is read, whatever its radix. -/
theorem readZero_meets (opens : Opens setting state)
    (found : setting.source.charAt? state.pos = some '0') :
    Meets readZero setting state fun _ after =>
      Reads setting state after ∧ after.kind = .num := by
  have one := Plain.single found (by decide)
  have radix : ∀ {letter : Char} (base : Nat),
      setting.source.charAt? (state.pos + 1) = some letter → Narrow letter → letter ≠ '\\' →
      Meets (readRadixNumber base) setting state fun _ after =>
      Reads setting state after ∧ after.kind = .num := by
    intro letter base marked narrow other
    refine readRadixNumber_meets opens (?_ : Inert ['0', letter])
      (one.push opens.begun.here (Source.hasAt_iff.mpr marked) narrow)
    exact .cons (by decide) (.cons ⟨narrow.1, other⟩ .nil)
  rw [readZero, Meets.bind_iff, meets_peek]
  split
  · next marked => exact radix 16 marked (by decide) (by decide)
  · next marked => exact radix 16 marked (by decide) (by decide)
  · next marked => exact radix 8 marked (by decide) (by decide)
  · next marked => exact radix 8 marked (by decide) (by decide)
  · next marked => exact radix 2 marked (by decide) (by decide)
  · next marked => exact radix 2 marked (by decide) (by decide)
  · exact readNumber_meets opens (by simp)

theorem readColon_meets (begun : Begun setting.source state)
    (outside : state.context ≠ .quoteTemplate)
    (found : setting.source.charAt? state.pos = some ':') :
    Meets readColon setting state fun _ after => Reads setting state after := by
  have one := Plain.single found (by decide)
  simp only [readColon, Meets.bind_iff, meets_peekIs]
  apply meets_ite
  · intro again
    exact operator_meets begun outside rfl (by simp) (one.push begun.here again (by decide))
  · intro _
    exact mark_meets begun outside rfl (by simp) one

end Marks

/-- The reading goes on after a comment of markup to what is wanted of it. -/
def Resumes (setting : Setting) (state : State) (resume : Scan Unit) (wanted : State → Prop) :
    Prop :=
  ∀ middle, Skips setting.source state middle → state.pos < middle.pos →
    Meets resume setting middle fun _ last => wanted last

section Resumed

variable {resume : Scan Unit} {wanted : State → Prop} {character : Char}

/-- A comment in the manner of markup is passed, and the reading resumes after it. -/
theorem passMarkupComment_meets {opening : Nat} {mark : List Char}
    (begun : Begun setting.source state) (resumes : Resumes setting state resume wanted)
    (positive : 0 < opening)
    (marked : Plain setting.source mark state.pos (state.pos + opening)) :
    Meets (passMarkupComment opening resume) setting state fun _ last => wanted last := by
  rw [passMarkupComment]
  refine (passLineComment_meets begun.cursor positive marked).bind ?_
  rintro _ middle ⟨skip, ahead⟩
  refine (skipSpace_meets (skip.sound begun.cursor)).bind ?_
  intro _ after skips
  refine resumes after (.step skip skips) ?_
  have := skips.le
  omega

/-- A sign is read, or begins a comment in the manner of markup. -/
theorem readPlusMinus_meets (begun : Begun setting.source state)
    (started : state.start = state.pos) (outside : state.context ≠ .quoteTemplate)
    (found : setting.source.charAt? state.pos = some character) (narrow : Narrow character)
    (resumes : Resumes setting state resume wanted)
    (reads : ∀ last, Reads setting state last → wanted last) :
    Meets (readPlusMinus character resume) setting state fun _ last => wanted last := by
  have one := Plain.single found narrow
  simp only [readPlusMinus, Meets.bind_iff, meets_peekIs]
  apply meets_ite
  · intro again
    have two := one.push begun.here again narrow
    simp only [Meets.bind_iff, meets_get, meets_peekIs, meets_breaksBetween]
    refine ⟨⟨started ▸ begun.ordered, begun.previous, begun.here⟩, ?_⟩
    apply meets_ite
    · intro closes
      simp only [Bool.and_eq_true] at closes
      exact passMarkupComment_meets begun resumes (by decide)
        (two.push begun.here closes.1.2 (by decide))
    · intro _
      exact (operator_meets begun outside rfl (by simp) two).mono fun _ _ => reads _
  intro _
  apply meets_ite
  · intro equals
    exact (operator_meets begun outside rfl (by simp)
      (one.push begun.here equals (by decide))).mono fun _ _ => reads _
  · intro _
    exact (operator_meets begun outside rfl (by simp) one).mono fun _ _ => reads _

/-- An angle bracket is read with what it is joined to, or begins a comment in the manner of
markup. -/
theorem readAngle_meets (begun : Begun setting.source state)
    (outside : state.context ≠ .quoteTemplate)
    (found : setting.source.charAt? state.pos = some character) (narrow : Narrow character)
    (resumes : Resumes setting state resume wanted)
    (reads : ∀ last, Reads setting state last → wanted last) :
    Meets (readAngle character resume) setting state fun _ last => wanted last := by
  have one := Plain.single found narrow
  -- After a text an equals sign makes an assignment of a shift.
  have shifts : ∀ {length : Nat} {text : List Char}, text ≠ [] →
      Plain setting.source text state.pos (state.pos + length) →
      Meets (do
        if ← peekIs length '=' then finishOperator .assign (length + 1)
        else finishOperator .bitShift length) setting state fun _ last => wanted last := by
    intro length text filled plain
    rw [Meets.bind_iff, meets_peekIs]
    apply meets_ite
    · intro equals
      exact (operator_meets begun outside rfl (by simp)
        (plain.push begun.here equals (by decide))).mono fun _ _ => reads _
    · intro _
      exact (operator_meets begun outside rfl filled plain).mono fun _ _ => reads _
  simp only [readAngle, Meets.bind_iff, meets_peekIs]
  apply meets_ite
  · intro again
    have two := one.push begun.here again narrow
    rw [Meets.bind_iff, meets_peekIs]
    cases third : character == '>' && setting.source.hasAt (state.pos + 2) '>' with
    | false => exact shifts (by simp) two
    | true =>
        rw [Bool.and_eq_true] at third
        exact shifts (by simp) (two.push begun.here third.2 (by decide))
  intro _
  apply meets_ite
  · intro opens
    simp only [Bool.and_eq_true] at opens
    rw [Meets.bind_iff, meets_read]
    apply meets_ite
    · intro _
      simp
    · intro _
      exact passMarkupComment_meets begun resumes (by decide)
        (((one.push begun.here opens.1.1.2 (by decide)).push begun.here opens.1.2
          (by decide)).push begun.here opens.2 (by decide))
  intro _
  rw [Meets.bind_iff, meets_peekIs]
  apply meets_ite
  · intro equals
    have two := one.push begun.here equals (by decide)
    rw [Meets.bind_iff, meets_peekIs]
    split
    · next again =>
        exact (operator_meets begun outside rfl (by simp)
          (two.push begun.here again (by decide))).mono fun _ _ => reads _
    · exact (operator_meets begun outside rfl (by simp) two).mono fun _ _ => reads _
  · intro _
    exact (operator_meets begun outside rfl (by simp) one).mono fun _ _ => reads _

/-- Every mark of punctuation and every operator is read. -/
theorem readMark_meets (begun : Begun setting.source state)
    (started : state.start = state.pos) (outside : state.context ≠ .quoteTemplate)
    (found : setting.source.charAt? state.pos = some character)
    (beside : character ≠ '<' → character ≠ '\x7b' →
      setting.jsx = true → state.context ≠ .jsxExpression)
    (resumes : Resumes setting state resume wanted)
    (reads : ∀ last, Reads setting state last → wanted last) :
    Meets (readMark character resume) setting state fun _ last => wanted last := by
  have settled : ∀ {step : Scan Unit},
      Meets step setting state (fun _ last => Reads setting state last) →
      Meets step setting state fun _ last => wanted last :=
    fun met => met.mono fun _ _ => reads _
  have mark : ∀ {sign : Char} {kind : Kind}, setting.source.charAt? state.pos = some sign →
      Narrow sign → kind.isOrdinary = true →
      Meets (finishMark kind 1) setting state fun _ last => wanted last :=
    fun found narrow usual =>
      settled (mark_meets begun outside usual (by simp) (.single found narrow))
  have literal : ∀ {sign : Char}, setting.source.charAt? state.pos = some sign →
      (Digit.isDigit 10 sign || sign == '"' || sign == '\'') = true → sign ≠ '<' →
      sign ≠ '\x7b' → sign = character → Opens setting state := by
    intro sign found opens first second same
    refine ⟨begun, outside, beside (same ▸ first) (same ▸ second), ?_⟩
    rw [Source.literalAt, found, Option.any_some, opens, Bool.true_or]
  unfold readMark
  split
  · exact settled (readDot_meets begun outside (beside (by decide) (by decide)) found)
  · exact mark found (by decide) rfl
  · exact mark found (by decide) rfl
  · exact mark found (by decide) rfl
  · exact mark found (by decide) rfl
  · exact mark found (by decide) rfl
  · exact mark found (by decide) rfl
  · exact mark found (by decide) rfl
  · exact mark found (by decide) rfl
  · exact settled (readColon_meets begun outside found)
  · exact mark found (by decide) rfl
  · exact mark found (by decide) rfl
  · exact mark found (by decide) rfl
  · exact (readZero_meets (literal found (by decide) (by decide) (by decide) rfl) found).mono
      fun _ _ met => reads _ met.1
  · exact (readString_meets (literal found (by decide) (by decide) (by decide) rfl) found
      (by decide) (by decide)).mono fun _ _ met => reads _ met.1
  · exact (readString_meets (literal found (by decide) (by decide) (by decide) rfl) found
      (by decide) (by decide)).mono fun _ _ met => reads _ met.1
  · exact settled (readSlash_meets begun outside found)
  · exact settled (readStarModulo_meets begun outside found (by decide))
  · exact settled (readStarModulo_meets begun outside found (by decide))
  · exact settled (readBarAmpersand_meets begun outside found (by decide) ⟨rfl, rfl⟩)
  · exact settled (readBarAmpersand_meets begun outside found (by decide) ⟨rfl, rfl⟩)
  · exact settled (readCaret_meets begun outside found)
  · exact readPlusMinus_meets begun started outside found (by decide) resumes reads
  · exact readPlusMinus_meets begun started outside found (by decide) resumes reads
  · exact readAngle_meets begun outside found (by decide) resumes reads
  · exact readAngle_meets begun outside found (by decide) resumes reads
  · exact settled (readEqualsBang_meets begun outside found (by decide))
  · exact settled (readEqualsBang_meets begun outside found (by decide))
  · exact settled (operator_meets begun outside rfl (by simp) (.single found (by decide)))
  · apply meets_ite
    · intro digit
      refine (readNumber_meets (literal found (by simp [digit]) ?_ ?_ rfl) (by simp)).mono
        fun _ _ met => reads _ met.1
      · rintro rfl
        exact absurd digit (by decide)
      · rintro rfl
        exact absurd digit (by decide)
    · intro _
      simp

/-- Every character begins a token where there is no markup. -/
theorem readPlain_meets (begun : Begun setting.source state)
    (started : state.start = state.pos) (outside : state.context ≠ .quoteTemplate)
    (found : setting.source.charAt? state.pos = some character)
    (beside : setting.jsx = true → state.context ≠ .jsxExpression)
    (resumes : Resumes setting state resume wanted)
    (reads : ∀ last, Reads setting state last → wanted last) :
    Meets (readPlain character resume) setting state fun _ last => wanted last := by
  apply meets_ite
  · intro begins
    refine (readWord_meets begun outside ?_).mono fun _ _ => reads _
    rw [found, Option.any_some, continuesWord]
    rw [Bool.or_eq_true] at begins ⊢
    exact begins.imp_left Identifier.isPart_of_isStart
  · intro _
    exact readMark_meets begun started outside found (fun _ _ => beside) resumes reads

/-- Text between tags is read up to the next tag or hole. -/
theorem readMarkupText_meets (begun : Begun setting.source state)
    (started : state.start = state.pos) (markup : setting.jsx = true)
    (outside : state.context ≠ .quoteTemplate)
    (found : setting.source.charAt? state.pos = some character)
    (resumes : Resumes setting state resume wanted)
    (reads : ∀ last, Reads setting state last → wanted last) :
    Meets (readMarkupText character resume) setting state fun _ last => wanted last := by
  rw [readMarkupText, Meets.bind_iff, meets_get]
  apply meets_ite
  · intro opens
    simp only [Bool.and_eq_true, beq_iff_eq] at opens
    rw [opens.1] at found
    refine (finishMark_meets begun (.single found (by decide))).mono ?_
    intro _ after ends
    exact reads _ (.tag ends markup (.inl rfl) (by simp) outside)
  intro _
  apply meets_ite
  · intro closes
    refine readMark_meets begun started outside found ?_ resumes reads
    intro first second
    simp [first, second] at closes
  · intro goesOn
    rw [Meets.bind_iff, meets_remaining, Meets.bind_iff, meets_get]
    refine (gatherMarkup_meets _ begun.here (Nat.le_refl _) begun.here).bind ?_
    rintro gathered middle ⟨text, moved, filled⟩
    refine (finish_meets begun moved).mono ?_
    intro _ after ends
    refine reads _ (.ordinary ends rfl (filled ?_) outside)
    rw [found]
    simpa using goesOn

/-- A name within a tag is read, with its hyphens. -/
theorem readMarkupName_meets (begun : Begun setting.source state)
    (outside : state.context ≠ .quoteTemplate)
    (found : setting.source.charAt? state.pos = some character)
    (begins : Identifier.isStart character = true) :
    Meets (readMarkupName character) setting state fun _ after => Reads setting state after := by
  have inside : ∀ other, (Identifier.isPart other || other == '-') = true →
      Blank.isLineBreak other = false := by
    intro other named
    rw [Bool.or_eq_true, beq_iff_eq] at named
    rcases named with part | rfl
    · exact Identifier.inside part
    · decide
  obtain ⟨rest, plain, -⟩ := Plain.ofPassOver setting.source _ inside
    (setting.source.size - (state.pos + character.utf8Size)) (state.pos + character.utf8Size)
  rw [← Source.skipWhile] at plain
  have whole := Plain.cons found (Identifier.inside (Identifier.isPart_of_isStart begins)) plain
  simp only [readMarkupName, Meets.bind_iff, meets_get, meets_source, meets_moveTo, meets_slice]
  refine ⟨_, whole.slice? begun.here, ?_⟩
  refine (finish_meets begun (whole.moved _ rfl)).mono ?_
  intro _ after ends
  exact .ordinary ends rfl (by simp) outside

/-- Every character begins a token where markup is open. -/
theorem readMarkup_meets (begun : Begun setting.source state)
    (started : state.start = state.pos) (markup : setting.jsx = true)
    (outside : state.context ≠ .quoteTemplate)
    (found : setting.source.charAt? state.pos = some character)
    (resumes : Resumes setting state resume wanted)
    (reads : ∀ last, Reads setting state last → wanted last) :
    Meets (readMarkup character resume) setting state fun _ last => wanted last := by
  have tag : ∀ {sign : Char} {kind : Kind}, setting.source.charAt? state.pos = some sign →
      Narrow sign → (kind = .jsxTagStart ∨
        (kind = .jsxTagEnd ∧ (state.context = .jsxOpenTag ∨ state.context = .jsxCloseTag))) →
      Meets (finishMark kind 1) setting state fun _ last => wanted last := by
    intro sign kind found narrow known
    refine (finishMark_meets begun (.single found narrow)).mono ?_
    intro _ after ends
    exact reads _ (.tag ends markup known (by simp) outside)
  rw [readMarkup, Meets.bind_iff, meets_get]
  apply meets_ite
  · intro _
    exact readMarkupText_meets begun started markup outside found resumes reads
  intro between
  rw [beq_iff_eq] at between
  apply meets_ite
  · intro named
    rw [Bool.and_eq_true] at named
    exact (readMarkupName_meets begun outside found named.2).mono fun _ _ => reads _
  intro _
  apply meets_ite
  · intro ends
    simp only [Bool.and_eq_true, Bool.or_eq_true, beq_iff_eq] at ends
    rw [ends.2] at found
    exact tag found (by decide) (.inr ⟨rfl, ends.1⟩)
  intro _
  apply meets_ite
  · intro quotes
    simp only [Bool.and_eq_true, Bool.or_eq_true, beq_iff_eq] at quotes
    have narrow : Narrow character := by
      rcases quotes.1 with rfl | rfl <;> decide
    have opens : setting.source.literalAt state.pos = true := by
      rw [Source.literalAt, found]
      rcases quotes.1 with rfl | rfl <;> simp
    exact (readAttributeText_meets begun markup quotes.2 found narrow opens).mono
      fun _ _ met => reads _ met.1
  intro _
  apply meets_ite
  · intro opens
    simp only [Bool.and_eq_true, beq_iff_eq] at opens
    rw [opens.1] at found
    exact tag found (by decide) (.inl rfl)
  · intro _
    exact readPlain_meets begun started outside found (fun _ => between) resumes reads

/-- A token outside of templates is read, or a comment of markup and what follows it. -/
theorem readToken_meets (begun : Begun setting.source state)
    (started : state.start = state.pos) (outside : state.context ≠ .quoteTemplate)
    (found : setting.source.charAt? state.pos = some character)
    (resumes : Resumes setting state resume wanted)
    (reads : ∀ last, Reads setting state last → wanted last) :
    Meets (readToken character resume) setting state fun _ last => wanted last := by
  simp only [readToken, Meets.bind_iff, meets_read, meets_get]
  apply meets_ite
  · intro bracket
    simp only [Bool.and_eq_true, Bool.or_eq_true, beq_iff_eq] at bracket
    have narrow : Narrow character := by
      rcases bracket.2 with rfl | rfl <;> decide
    exact (operator_meets begun outside rfl (by simp) (.single found narrow)).mono
      fun _ _ => reads _
  intro _
  apply meets_ite
  · intro markup
    exact readMarkup_meets begun started markup outside found resumes reads
  · intro plain
    exact readPlain_meets begun started outside found (fun markup => absurd markup plain) resumes
      reads

end Resumed

end Lexer

end EcmaSyntax
