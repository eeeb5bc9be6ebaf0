import EcmaSyntax.Proofs.Lexer.Token

namespace EcmaSyntax

namespace Lexer

theorem Inert.append {first second : List Char} (begins : Inert first) (ends : Inert second) :
    Inert (first ++ second) := by
  intro character member
  rcases List.mem_append.mp member with member | member
  · exact begins character member
  · exact ends character member

theorem Inert.cons {character : Char} {rest : List Char}
    (first : Blank.isLineBreak character = false ∧ character ≠ '\\') (ends : Inert rest) :
    Inert (character :: rest) := by
  intro other member
  rcases List.mem_cons.mp member with rfl | member
  · exact first
  · exact ends other member

theorem Inert.nil : Inert [] := by
  intro character member
  simp at member

variable {setting : Setting} {state : State}

/-- A word is a name or a keyword. -/
theorem readWord_meets (begun : Begun setting.source state)
    (outside : state.context ≠ .quoteTemplate)
    (continues : (setting.source.charAt? state.pos).any continuesWord = true) :
    Meets readWord setting state fun _ after => Reads setting state after := by
  have known : ∀ word, ((Kind.ofKeyword? word).getD .name).isOrdinary = true := by
    intro word
    cases found : Kind.ofKeyword? word with
    | none => rfl
    | some kind =>
        have same := List.find?_some found
        rw [beq_iff_eq] at same
        exact Kind.isOrdinary_of_keyword? same
  rw [readWord]
  refine (readWordText_meets begun.here).bind ?_
  rintro word after ⟨text, moved, filled⟩
  have ends : ∀ {kind : Kind}, kind.isOrdinary = true →
      Meets (finishToken kind (.text word)) setting after
        fun _ last => Reads setting state last := fun usual =>
    (finish_meets begun moved).mono fun _ _ ends =>
      .ordinary ends usual (filled continues) outside
  simp only [isKeyword, Meets.bind_iff, meets_read, meets_get]
  apply meets_ite
  · intro _
    rw [meets_pure]
    exact ends (by simp [Kind.isOrdinary])
  · intro _
    rw [meets_pure]
    refine ends ?_
    split
    · exact known word
    · rfl

section Numbers

/-- Digits are passed, and nothing else. -/
theorem passDigits_meets (radix : Nat) (here : setting.source.isBoundary state.pos = true) :
    Meets (passDigits radix) setting state fun digits after =>
      Inert digits ∧ Moved setting.source digits 0 state after := by
  obtain ⟨digits, plain, all⟩ := Plain.ofPassOver setting.source (Digit.isDigit radix)
    (fun _ digit => (Digit.inside digit).1) (setting.source.size - state.pos) state.pos
  rw [← Source.skipWhile] at plain
  have sliced := plain.slice? here
  rw [Source.slice?, Option.ite_none_right_eq_some, Option.some.injEq] at sliced
  simp only [passDigits, Meets.bind_iff, meets_source, meets_get, meets_moveTo, meets_pure]
  rw [sliced.2]
  exact ⟨.ofDigits all, plain.moved _ rfl⟩

theorem checkNumberEnds_meets :
    Meets checkNumberEnds setting state fun _ after => after = state := by
  simp only [checkNumberEnds, Meets.bind_iff, meets_peek]
  apply meets_ite
  · intro _
    simp
  · intro _
    rfl

/-- A number that has been passed becomes a token. -/
theorem finishNumber_meets {first : State} {value : Value} {text : List Char}
    (opens : Opens setting first) (moved : Moved setting.source text 0 first state)
    (inert : Inert text) (filled : text ≠ []) :
    Meets (finishToken .num value) setting state fun _ after =>
      Reads setting first after ∧ after.kind = .num := by
  refine (finishToken_meets opens.begun moved).mono ?_
  rintro _ after ⟨ends, here, -⟩
  have returns := (moved.returns inert.inside).congr here
  exact ⟨.literal ends (.inl rfl) filled (fun _ => rfl) (.inl returns) opens.literal
    opens.beside opens.outside, ends.kind_eq⟩

/-- A number with a mark for its radix is read. -/
theorem readRadixNumber_meets {radix : Nat} {mark : List Char}
    (opens : Opens setting state) (inert : Inert mark)
    (plain : Plain setting.source mark state.pos (state.pos + 2)) :
    Meets (readRadixNumber radix) setting state fun _ after =>
      Reads setting state after ∧ after.kind = .num := by
  have opening := plain.moved state rfl
  rw [readRadixNumber, Meets.bind_iff, meets_advance]
  refine (passDigits_meets radix (opening.boundary opens.begun.here)).bind ?_
  rintro digits after ⟨valid, moved⟩
  apply meets_ite
  · intro _
    simp
  · intro some
    refine checkNumberEnds_meets.bind ?_
    rintro _ after rfl
    refine finishNumber_meets opens (opening.trans moved) (inert.append valid) ?_
    rw [List.isEmpty_iff] at some
    simp [some]

/-- A fraction is passed with its point. -/
theorem readFraction_meets (here : setting.source.isBoundary state.pos = true) :
    Meets readFraction setting state fun _ after =>
      ∃ text, Inert text ∧ Moved setting.source text 0 state after ∧
        (setting.source.hasAt state.pos '.' = true → text ≠ []) := by
  rw [readFraction, Meets.bind_iff, meets_peekIs, Nat.add_zero]
  apply meets_ite
  · intro dot
    rw [Source.hasAt_iff] at dot
    have opening := Moved.one state dot (by decide)
    rw [show ('.').utf8Size = 1 by decide] at opening
    rw [Meets.bind_iff, meets_advance]
    refine (passDigits_meets 10 (opening.boundary here)).bind ?_
    rintro digits after ⟨valid, moved⟩
    exact ⟨_, Inert.append (.cons (by decide) .nil) valid, opening.trans moved, by simp⟩
  · intro other
    exact ⟨[], .nil, .stay _ _, fun dot => absurd dot other⟩

/-- An exponent is passed, if there is one. -/
theorem readExponent_meets {start : Nat} (here : setting.source.isBoundary state.pos = true) :
    Meets (readExponent start) setting state fun _ after =>
      ∃ text, Inert text ∧ Moved setting.source text 0 state after := by
  have step : ∀ (state : State) {character : Char},
      setting.source.hasAt state.pos character = true →
      (Blank.isLineBreak character = false ∧ character ≠ '\\') → character.utf8Size = 1 →
      ∃ text, Inert text ∧
        Moved setting.source text 0 state { state with pos := state.pos + 1 } := by
    intro state character found plain single
    rw [Source.hasAt_iff] at found
    have moved := Moved.one state found plain.1
    rw [single] at moved
    exact ⟨_, .cons plain .nil, moved⟩
  simp only [readExponent, Meets.bind_iff, meets_peekIs, Nat.add_zero]
  apply meets_ite
  · intro marked
    obtain ⟨mark, validMark, opening⟩ : ∃ text, Inert text ∧
        Moved setting.source text 0 state { state with pos := state.pos + 1 } := by
      rw [Bool.or_eq_true] at marked
      rcases marked with small | large
      · exact step _ small (by decide) (by decide)
      · exact step _ large (by decide) (by decide)
    have next := opening.boundary here
    simp only [Meets.bind_iff, meets_advance, meets_peekIs, Nat.add_zero]
    apply meets_ite
    · intro signed
      obtain ⟨sign, validSign, middle⟩ : ∃ text, Inert text ∧
          Moved setting.source text 0 { state with pos := state.pos + 1 }
            { state with pos := state.pos + 1 + 1 } := by
        rw [Bool.or_eq_true] at signed
        rcases signed with minus | plus
        · exact step _ minus (by decide) (by decide)
        · exact step _ plus (by decide) (by decide)
      rw [Meets.bind_iff, meets_advance]
      refine (passDigits_meets 10 (middle.boundary next)).bind ?_
      rintro digits after ⟨valid, moved⟩
      apply meets_ite
      · intro _
        simp
      · intro _
        exact ⟨_, (validMark.append validSign).append valid, (opening.trans middle).trans moved⟩
    · intro _
      refine (passDigits_meets 10 next).bind ?_
      rintro digits after ⟨valid, moved⟩
      apply meets_ite
      · intro _
        simp
      · intro _
        exact ⟨_, validMark.append valid, opening.trans moved⟩
  · intro _
    exact ⟨[], .nil, .stay _ _⟩

/-- A number is read, with a fraction and an exponent. -/
theorem readNumber_meets {startsWithDot : Bool} (opens : Opens setting state)
    (dotted : startsWithDot = true → setting.source.hasAt state.pos '.' = true) :
    Meets (readNumber startsWithDot) setting state fun _ after =>
      Reads setting state after ∧ after.kind = .num := by
  have integer : Meets (if startsWithDot then pure [] else passDigits 10) setting state
      fun digits after => Inert digits ∧ Moved setting.source digits 0 state after := by
    apply meets_ite
    · intro _
      exact ⟨.nil, .stay _ _⟩
    · intro _
      exact passDigits_meets 10 opens.begun.here
  rw [readNumber, Meets.bind_iff, meets_get]
  dsimp only
  rw [meets_ite_bind]
  refine integer.bind ?_
  rintro whole after ⟨validWhole, movedWhole⟩
  apply meets_ite
  · intro _
    simp
  intro someDigit
  refine (readFraction_meets (movedWhole.boundary opens.begun.here)).bind ?_
  rintro fraction after' ⟨point, validPoint, movedPoint, pointed⟩
  have moved := movedWhole.trans movedPoint
  refine (readExponent_meets (moved.boundary opens.begun.here)).bind ?_
  rintro exponent last ⟨power, validPower, movedPower⟩
  have moved := moved.trans movedPower
  have inert := (validWhole.append validPoint).append validPower
  have filled : whole ++ point ++ power ≠ [] := by
    intro empty
    simp only [List.append_eq_nil_iff] at empty
    obtain ⟨⟨rfl, rfl⟩, rfl⟩ := empty
    cases startsWithDot with
    | false => simp at someDigit
    | true =>
        have here : after.pos = state.pos := by simpa using movedWhole.pos_eq
        exact pointed (by rw [here]; exact dotted rfl) rfl
  refine checkNumberEnds_meets.bind ?_
  rintro _ last rfl
  refine (sliceFrom_meets opens.begun.here moved.le (moved.boundary opens.begun.here)).bind ?_
  rintro text last rfl
  have ends : ∀ value, Meets (finishToken .num value) setting last
      fun _ after => Reads setting state after ∧ after.kind = .num := fun value =>
    finishNumber_meets opens moved inert filled
  apply meets_ite
  · intro _
    exact ends _
  · intro _
    simp only [Meets.bind_iff, meets_get]
    apply meets_ite
    · intro _
      simp
    · intro _
      exact ends _

end Numbers

section Quotes

/-- A string is read from quote to quote. -/
theorem readString_meets {quote : Char} (opens : Opens setting state)
    (found : setting.source.charAt? state.pos = some quote) (narrow : Narrow quote)
    (other : quote ≠ '\\') :
    Meets (readString quote) setting state fun _ after =>
      Reads setting state after ∧ after.kind = .string := by
  have begun := opens.begun
  have opening := (Plain.single found narrow).moved state rfl
  have next := opening.boundary begun.here
  rw [readString, Meets.bind_iff, meets_advance, Meets.bind_iff, meets_remaining,
    Meets.bind_iff, meets_get]
  refine (gatherString_meets quote _ next (Nat.le_refl _) next).bind ?_
  rintro gathered middle ⟨⟨text, moved⟩, returns, closes⟩
  have closing := (Plain.single closes narrow).moved middle rfl
  have whole := (opening.trans moved).trans closing
  have counted : hiddenBreaks ([quote] ++ text ++ [quote]) = 0 + hiddenBreaks text + 0 := by
    have separate : Blank.isSeparator quote = false := by
      have inside := narrow.1
      rw [Blank.isLineBreak_eq, Bool.or_eq_false_iff] at inside
      exact inside.2
    rw [hiddenBreaks_concat separate, List.singleton_append, hiddenBreaks_cons other]
    omega
  rw [← counted] at whole
  rw [Meets.bind_iff, meets_advance]
  refine (finishToken_meets begun whole).mono ?_
  rintro _ after ⟨ends, here, -⟩
  have alone : ∀ character ∈ [quote], Blank.isLineBreak character = false := by
    simpa using narrow.1
  have returns := ((opening.returns alone).trans returns).trans (closing.returns alone)
  exact ⟨.literal ends (.inr rfl) (by simp) (fun _ => rfl) (.inl (returns.congr here)) opens.literal
    opens.beside opens.outside, ends.kind_eq⟩

/-- The text of an attribute is read from quote to quote. -/
theorem readAttributeText_meets {quote : Char} (begun : Begun setting.source state)
    (markup : setting.jsx = true) (inTag : state.context = .jsxOpenTag)
    (found : setting.source.charAt? state.pos = some quote) (narrow : Narrow quote)
    (opens : setting.source.literalAt state.pos = true) :
    Meets (readAttributeText quote) setting state fun _ after =>
      Reads setting state after ∧ after.kind = .string := by
  have opening := (Plain.single found narrow).moved state rfl
  have next := opening.boundary begun.here
  rw [readAttributeText, Meets.bind_iff, meets_advance, Meets.bind_iff, meets_remaining,
    Meets.bind_iff, meets_get]
  refine (gatherAttribute_meets quote _ next (Nat.le_refl _) next).bind ?_
  rintro gathered middle ⟨⟨text, moved⟩, closes⟩
  have closing := (Plain.single closes narrow).moved middle rfl
  rw [Meets.bind_iff, meets_advance]
  refine (finish_meets begun ((opening.trans moved).trans closing)).mono ?_
  intro _ after ends
  refine ⟨.literal ends (.inr rfl) (by simp) ?_ (.inr ⟨markup, inTag⟩) opens (by simp [inTag])
    (by simp [inTag]), ends.kind_eq⟩
  intro plain
  rw [markup] at plain
  simp at plain

/-- A token within a template fits there. -/
theorem readTemplate_meets {character : Char} (begun : Begun setting.source state)
    (inside : state.context = .quoteTemplate)
    (found : setting.source.charAt? state.pos = some character) :
    Meets readTemplate setting state fun _ after => Reads setting state after := by
  have chunk : (state.kind = .template →
        character ≠ '\x60' ∧ (setting.source.hasAt state.pos '$' &&
          setting.source.hasAt (state.pos + 1) '\x7b') = false) →
      Meets (do
        let gathered ← gatherChunk (← remaining) (← get).pos []
        finishToken .template (.text (String.ofList gathered.reverse))) setting state
        fun _ after => Reads setting state after := by
    intro goesOn
    rw [Meets.bind_iff, meets_remaining, Meets.bind_iff, meets_get]
    refine (gatherChunk_meets _ (Source.slice?_self begun.here)).bind ?_
    rintro gathered middle ⟨text, moved, filled, gathers⟩
    refine (finishToken_meets begun moved).mono ?_
    rintro _ after ⟨ends, -, value⟩
    refine .quoted .template (show Ends setting _ text (hiddenIn _ text) _ _ by
      simpa [hiddenIn] using ends) inside (.inl rfl) ?_ fun _ free single => by
        simpa [gathers free single] using value
    intro empty
    refine ⟨rfl, fun afterChunk => ?_⟩
    obtain ⟨unquoted, unmarked⟩ := goesOn afterChunk
    refine filled ?_ unmarked empty
    rw [found]
    simpa using unquoted
  simp only [readTemplate, atSubstitution, Meets.bind_iff, meets_get, meets_peekIs, meets_pure,
    Nat.add_zero]
  apply meets_ite
  · intro substitutes
    simp only [Bool.and_eq_true, beq_iff_eq] at substitutes
    obtain ⟨afterChunk, dollar, brace⟩ := substitutes
    have plain := (Plain.single (Source.hasAt_iff.mp dollar) (by decide)).push begun.here brace
      (by decide)
    refine (finishMark_meets begun plain).mono ?_
    intro _ after ends
    exact .quoted .dollarBraceL ends inside (.inr ⟨afterChunk, .inr rfl⟩) (by simp)
      fun chunk => by cases chunk
  intro goesOn
  apply meets_ite
  · intro closes
    simp only [Bool.and_eq_true, beq_iff_eq] at closes
    have plain : Plain setting.source ['\x60'] state.pos (state.pos + 1) :=
      .single closes.2 (by decide)
    refine (finishMark_meets begun plain).mono ?_
    intro _ after ends
    exact .quoted .backQuote ends inside (.inr ⟨closes.1, .inl rfl⟩) (by simp)
      fun chunk => by cases chunk
  · intro unclosed
    refine chunk fun afterChunk => ⟨?_, ?_⟩
    · rintro rfl
      simp [afterChunk, found] at unclosed
    · simpa [afterChunk] using goesOn

/-- A regular expression is read from slash to slash, with its flags. -/
theorem readRegExp_meets {first : State} (begun : Begun setting.source first)
    (outside : first.context ≠ .quoteTemplate)
    (moved : Moved setting.source ['/'] 0 first state) :
    Meets readRegExp setting state fun _ after => Reads setting first after := by
  have here := moved.boundary begun.here
  simp only [readRegExp, Meets.bind_iff, meets_get, meets_source, meets_remaining, meets_moveTo]
  obtain ⟨pattern, plain⟩ := findRegExpEnd_plain setting.source
    (setting.source.size - state.pos) state.pos false false
  apply meets_ite
  · intro closes
    have closing := Moved.one { state with pos := _ } (Source.hasAt_iff.mp closes) (by decide)
    have whole := (moved.trans (plain.moved state rfl)).trans closing
    rw [Meets.bind_iff, meets_slice]
    refine ⟨pattern, plain.slice? here, ?_⟩
    rw [Meets.bind_iff, meets_advance]
    refine (readWordText_meets (whole.boundary begun.here)).bind ?_
    rintro flags after ⟨text, movedFlags, -⟩
    apply meets_ite
    · intro _
      refine (finish_meets begun (whole.trans movedFlags)).mono ?_
      intro _ last ends
      exact .ordinary ends rfl (by simp) outside
    · intro _
      simp
  · intro _
    simp

end Quotes

end Lexer

end EcmaSyntax
