import EcmaSyntax.Grammar.Expression.Element
import EcmaSyntax.Proofs.Grammar.Sequence

namespace EcmaSyntax

namespace Grammar

open Lexer (View Frame)

/-- A token that may be passed stands in a frame. -/
def Setting.within (_ : Setting) (frame : Frame) : View := fun kind contexts =>
  kind.isPassable = true → frame.Covers contexts

variable {setting : Setting} {frame : Frame} {outer : List Context} {rules : Rules}

section Name

theorem within_of_over : ∀ kind contexts, setting.over frame kind contexts →
    setting.within frame kind contexts := by
  intro kind contexts passing passable
  obtain ⟨still, goesOn, noChunk⟩ := Kind.isPassable_iff.mp passable
  exact (passing.nests goesOn noChunk).enters.covers still

theorem within_of_nests : ∀ kind contexts, setting.nests frame kind contexts →
    setting.within frame kind contexts := fun _ _ nests => within_of_over _ _ (nests_over _ _ nests)

theorem within_of_enters : ∀ kind contexts, Lexer.Enters setting.jsx frame kind contexts →
    setting.within frame kind contexts := by
  intro kind contexts enters passable
  exact enters.covers (Kind.isPassable_iff.mp passable).1

/-- After a mark within a tag, the names of the tag are read. -/
theorem next_within {kind : Kind} (passable : kind.isPassable = true) :
    Leads setting (Here kind (setting.within frame)) next fun _ => setting.nests frame := by
  refine next_covers ?_
  rintro _ contexts ⟨rfl, within⟩
  obtain ⟨still, goesOn, noChunk⟩ := Kind.isPassable_iff.mp passable
  refine ⟨goesOn, noChunk, ?_, ?_, within passable⟩
  · rintro rfl
    exact absurd still (by decide)
  · rintro rfl
    exact absurd still (by decide)

/-- The names of a tag may be passed one by one. -/
theorem next_named {kind : Kind} (passable : kind.isPassable = true) :
    Leads setting (Here kind (setting.nests frame)) next fun _ => setting.nests frame :=
  (next_within passable).weaken fun _ _ here =>
    ⟨here.1, within_of_nests _ _ here.2⟩

/-- A name within a tag is read there. -/
theorem tagName_leads :
    Leads setting (setting.within frame) tagName fun _ => setting.nests frame := by
  refine .look fun mark => .onKind fun current => .ite (fun isName => ?_) fun _ => ?_
  · rw [beq_iff_eq] at isName
    subst isName
    exact .look fun _ => (next_within rfl).bind fun _ => finish_leads
  · split
    · next keyword known =>
        exact .bind .pure fun _ =>
          (next_within (Kind.isPassable_of_keyword? known)).bind fun _ => finish_leads
    · exact .fail

/-- A name with a prefix is read within its tag. -/
theorem spacedName_leads :
    Leads setting (setting.within frame) spacedName fun _ => setting.nests frame := by
  refine .look fun mark => tagName_leads.bind fun name => .ifEat (next_named rfl) ?_ .pure
  exact (tagName_leads.weaken within_of_nests).bind fun _ => finish_leads

/-- The name of an element is read within its tag. -/
theorem elementName_leads :
    Leads setting (setting.within frame) elementName fun _ => setting.nests frame := by
  refine .look fun start => spacedName_leads.bind fun name => .loops fun name => ?_
  refine .ifEat (next_named rfl) ?_ .done
  exact (tagName_leads.weaken within_of_nests).bind fun _ => finish_leads.bind fun _ => .more

end Name

section Attribute

/-- An empty hole is built without reading tokens. -/
theorem emptyHole_leads {view : View} : Leads setting view emptyHole fun _ => view :=
  .look fun _ => finishAt_made.plain

variable (sound : rules.Sound setting)

include sound

/-- A hole in braces keeps to the frame around it. -/
theorem expressionHole_leads :
    Leads setting (Here .braceL (setting.over frame)) (expressionHole rules)
      fun _ => setting.over frame := by
  refine .look fun mark => (next_open (.inr rfl)).bind fun _ => .test fun isEmpty => ?_
  refine .anyway (.choose (.ite (fun _ => emptyHole_leads) fun _ => ?_) fun _ => ?_)
  · exact expression_leads sound frame.calm_inner
  · exact (expect_close (.inr rfl)).bind fun _ => finish_leads

/-- A string or an element is read by the rule for atoms, though it stands in a tag. -/
theorem attributeAtom_leads {kind : Kind} (atom : kind = .string ∨ kind = .jsxTagStart) :
    Leads setting (Here kind (setting.over frame)) rules.atom fun _ => setting.over frame := by
  refine (Leads.bind ((sound.leads .atom frame).weaken ?_) fun _ => settle_leads).plain
  rintro _ contexts ⟨rfl, passing⟩
  exact ⟨.inr atom, passing⟩

/-- The value of an attribute keeps to its frame. -/
theorem attributeValue_leads :
    Leads setting (setting.over frame) (attributeValue rules) fun _ => setting.over frame := by
  refine .onKind fun current => ?_
  split
  · exact (expressionHole_leads sound).bind fun _ => .guard (fun _ => .raise) .pure
  · exact (attributeAtom_leads sound (.inr rfl)).bind fun _ => .pure
  · exact (attributeAtom_leads sound (.inl rfl)).bind fun _ => .pure
  · exact .look fun _ => .raise

/-- An attribute keeps to the frame of its tag. -/
theorem tagAttribute_leads :
    Leads setting (setting.over frame) (tagAttribute rules) fun _ => setting.over frame := by
  refine .look fun mark => .ifEat (next_open (.inr rfl)) ?_ ?_
  · exact (expect_leads rfl).bind fun _ => (assignment_leads sound frame.calm_inner).bind fun _ =>
      (expect_close (.inr rfl)).bind fun _ => finish_leads
  · refine (spacedName_leads.weaken within_of_over).bind fun name => ?_
    refine Leads.weaken ?_ nests_over
    refine .ifEat (next_here rfl) ?_ (.bind .pure fun _ => finish_leads)
    exact (attributeValue_leads sound).map.bind fun _ => finish_leads

end Attribute

section Tags

/-- The slash of an empty tag closes the element with the end of the tag. -/
theorem eatSlash_leads (covers : frame.Covers outer) :
    Leads setting (setting.over (.openTag outer)) (eat .slash) fun isEmpty kind contexts =>
      kind = .jsxTagEnd → (if isEmpty then frame else frame.inner).Covers contexts := by
  intro state held
  apply meets_eat
  · intro same
    have slash : Leads setting (Here .slash (setting.over (.openTag outer))) next
        fun _ kind contexts => kind = .jsxTagEnd → frame.Covers contexts := by
      refine .next (fun _ _ here => by rw [here.1]; decide) ?_
      rintro first last ⟨same, passing⟩ advances ending
      have nests := passing.nests (by rw [same]; decide) (by rw [same]; decide)
      rw [advances.covers_emptyEnd same ending nests]
      exact covers
    exact slash _ ⟨held.reached, ⟨same, held.here⟩, held.filled⟩
  · intro _
    refine held.mono fun passing ending => ?_
    rw [ending] at passing
    exact (passing.nests (by decide) (by decide)).covers_openEnd covers

/-- The end of a tag is passed. -/
theorem expectTagEnd_leads :
    Leads setting (fun kind contexts => kind = .jsxTagEnd → frame.Covers contexts)
      (expect .jsxTagEnd) fun _ => setting.over frame := by
  have passes : Leads setting
      (Here .jsxTagEnd fun kind contexts => kind = .jsxTagEnd → frame.Covers contexts) next
      fun _ => setting.nests frame := by
    refine next_covers ?_
    rintro _ contexts ⟨rfl, covers⟩
    exact ⟨by decide, by decide, by decide, by decide, covers rfl⟩
  exact (Leads.expect passes).strengthen fun _ => nests_over

/-- A closing tag ends in the frame around the element. -/
theorem closingTail_leads {mark : Mark} (covers : frame.inner.Covers outer) :
    Leads setting (setting.within (.closeTag outer)) (closingTail mark)
      fun _ => setting.over frame := by
  refine elementName_leads.bind fun name => Leads.weaken
    (expectTagEnd_leads.bind fun _ => finish_leads) ?_
  intro kind contexts nests ending
  rw [ending] at nests
  exact nests.covers_closeEnd covers

/-- Text between tags keeps to its frame. -/
theorem textChild_quiet :
    Leads setting (Here .jsxText (setting.over frame)) textChild (Quiet (setting.over frame)) :=
  .look fun _ => ((literal_quiet rfl).enter rfl).bind fun _ => .give fun _ _ met => met

/-- The slash after the mark of a tag is passed, which makes it a closing one. -/
theorem next_closing :
    Leads setting (Here .slash (Lexer.Tagged setting.jsx frame)) next
      fun _ kind contexts => ∃ outer, With (frame.Covers outer)
        (setting.within (.closeTag outer)) kind contexts := by
  refine .next (fun _ _ here => by rw [here.1]; decide) ?_
  rintro first last ⟨same, tagged⟩ advances
  rw [same] at tagged
  obtain ⟨outer, covers, opened⟩ := tagged.covers_slash
  refine ⟨outer, covers, within_of_enters _ _ (advances.enters ?_)⟩
  rw [opened]
  exact Frame.covers_closeTag outer

/-- After the mark that opens a tag, the tag opens or closes. -/
theorem next_tagged :
    Leads setting (Here .jsxTagStart (setting.over frame)) next
      fun _ => Lexer.Tagged setting.jsx frame := by
  refine .next (fun _ _ here => by rw [here.1]; decide) ?_
  rintro first last ⟨same, passing⟩ advances
  exact advances.tagged same (passing.nests (by rw [same]; decide) (by rw [same]; decide))

/-- Two tags are compared without reading tokens. -/
theorem checkClosing_leads {view : View} {opening closing : Node} :
    Leads setting view (checkClosing opening closing) fun _ => view :=
  .guard (fun _ => .raise) .pure

variable (sound : rules.Sound setting)

include sound

/-- An opening tag ends within the element, unless it closes itself. -/
theorem openingTail_leads {mark : Mark} (covers : frame.Covers outer) :
    Leads setting (setting.within (.openTag outer)) (openingTail rules mark)
      fun result => setting.over (if result.2 then frame else frame.inner) := by
  refine elementName_leads.bind fun name => Leads.weaken ?_ nests_over
  refine .via (setting.over (.openTag outer)) (.loops fun attributes => ?_) fun attributes => ?_
  · refine .look fun _ => .look fun _ => .ite (fun _ => .done) fun _ => ?_
    exact (tagAttribute_leads sound).bind fun _ => .more
  · exact (eatSlash_leads covers).bind fun isEmpty => expectTagEnd_leads.bind fun _ =>
      finish_leads.bind fun _ => .give fun _ _ passing => passing

/-- The children of an element end in the frame around it, at its closing tag. -/
theorem elementContent_leads :
    Leads setting (setting.over frame.inner) (elementContent rules)
      fun _ => setting.over frame := by
  refine .loops fun children => .onKind fun current => ?_
  split
  · refine .look fun mark => next_tagged.bind fun _ => .ifEat next_closing ?_ ?_
    · exact .obtained fun outer => .assume fun covers => (closingTail_leads covers).bind fun _ =>
        .done
    · exact (element_spelled sound).plain.bind fun _ => .more
  · exact textChild_quiet.plain.bind fun _ => .more
  · exact (expressionHole_leads sound).bind fun _ => .more
  · exact .unexpected

/-- An element keeps to its frame. -/
theorem elementRule_quiet {mark : Mark} :
    Leads setting (Lexer.Tagged setting.jsx frame) (element rules mark)
      (Quiet (setting.over frame)) := by
  have opened : ∀ outer, frame.Covers outer →
      Leads setting (setting.within (.openTag outer)) (element rules mark)
        (Quiet (setting.over frame)) := by
    intro outer covers
    refine .nested ((openingTail_leads sound covers).bind fun ⟨opening, isEmpty⟩ => ?_)
    have rest : ∀ children closing, Leads setting (setting.over frame)
        (do
          if ← atAngle "<" then raise (← get).lexer.start .adjacentElements
          finish mark (.jsxElement opening children closing)) (Quiet (setting.over frame)) :=
      fun _ _ => .ifAtAngle (.look fun _ => .bind .raise fun _ => finish_quiet rfl)
        (finish_quiet rfl)
    cases isEmpty with
    | true => exact .bind .pure fun ⟨_, _⟩ => rest _ _
    | false =>
        exact (elementContent_leads sound).bind fun ⟨children, closing⟩ =>
          checkClosing_leads.bind fun _ => .bind .pure fun ⟨_, _⟩ => rest _ _
  intro state held
  obtain ⟨outer, covers, enters⟩ := held.here.enters
  exact opened outer covers _ (held.mono fun _ => within_of_enters _ _ enters)

end Tags

end Grammar

end EcmaSyntax
