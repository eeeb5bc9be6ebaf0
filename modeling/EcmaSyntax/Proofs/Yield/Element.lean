import EcmaSyntax.Grammar.Expression.Element
import EcmaSyntax.Proofs.Yield.Line
import EcmaSyntax.Proofs.Yield.Sequence

namespace EcmaSyntax

namespace Grammar

variable {law : Law} {given : Prop} {rules : Rules} {mark : Mark} {node : Node}

/-- An opening tag has a name, and says whether it closes itself. -/
def Opening (selfClosing : Bool) (name tag : Node) : Prop :=
  (∃ attributes, tag.form = .jsxOpeningElement name attributes selfClosing) ∧ name.IsTagName

/-- A closing tag has a name. -/
def Ending (name tag : Node) : Prop := tag.form = .jsxClosingElement name ∧ name.IsTagName

section Names

variable {form : Form} {shape : Node → Prop}

/-- A node that is lawful has the shape that its form has. -/
theorem finish_shaped (plain : form.isPlain = true) (all : given → form.Lawful law)
    (shapes : given → ∀ node : Node, node.form = form → shape node) :
    Yields law given (finish mark form) fun node => node.Lawful law ∧ shape node :=
  (finish_lawful plain all).and (finish_made.refine fun node known made => shapes known node made.1)

/-- The text of a name within a tag is undivided. -/
theorem valueText_undivided {place : Option (List Enclosure)} :
    YieldsFrom law place (fun _ lexer => lexer.kind = .jsxName) given valueText Undivided :=
  (YieldsFrom.knowing (fun _ _ tracked name => gives_valueText.mpr (tracked.undivided name))
    (.ofYields .plain)).refine fun _ _ => And.right

/-- A name within a tag is a word. -/
theorem tagName_yields :
    Yields law given tagName fun node => node.Lawful law ∧ node.IsWord := by
  have rest : ∀ {given : Prop} (start : Mark) (name : String), (given → Undivided name) →
      Yields law given (do
        next
        finish start (.jsxIdentifier name)) fun node => node.Lawful law ∧ node.IsWord :=
    fun _ name undivided => .step fun _ =>
      finish_shaped rfl (fun _ => trivial) fun known _ same => ⟨name, same, undivided known⟩
  refine .ofFrom (.look fun start => .onKind fun current => .ite (fun name => ?_) fun _ => ?_)
  · exact .andThen (.mono valueText_undivided fun _ _ here => here.2.trans (beq_iff_eq.mp name))
      fun word => rest start word And.right
  · split
    · next spelled =>
        exact .ofYields (.value (rest start _ fun _ => Kind.undivided_of_keyword? spelled))
    · exact .ofYields .fail

/-- A name with a prefix consists of two words. -/
theorem spacedName_yields :
    Yields law given spacedName fun node => node.Lawful law ∧ node.IsSpaced :=
  .step fun _ => tagName_yields.bind fun _ => .step fun _ => .ite
    (fun _ => tagName_yields.bind fun _ => finish_shaped rfl
      (fun known => ⟨known.1.2.1, known.2.1⟩) fun known _ same =>
        .pair same known.1.2.2 known.2.2)
    fun _ => .pure fun known => ⟨known.2.1, .word known.2.2⟩

/-- The name of an element is made of words. -/
theorem elementName_yields :
    Yields law given elementName fun node => node.Lawful law ∧ node.IsTagName := by
  refine .step fun start => spacedName_yields.bind fun name => ?_
  refine .loop (fun node => node.Lawful law ∧ node.IsTagName)
    (fun known => ⟨known.2.1, .spaced known.2.2⟩) fun name => .step fun _ => .ite (fun _ => ?_)
      fun _ => .done And.right
  exact tagName_yields.bind fun _ => .bind (finish_shaped rfl
    (fun known => ⟨known.1.2.1, known.2.1⟩) fun known _ same =>
      .member same known.1.2.2 known.2.2) fun _ => .more And.right

theorem emptyHole_yields : Yields law given emptyHole (Node.Lawful law) :=
  .step fun _ => .lawful (finishAt_yields rfl fun _ => trivial)

/-- A closing tag is lawful and ends an element. -/
theorem closingTail_yields :
    Yields law given (closingTail mark) fun tag => tag.Lawful law ∧ ∃ name, Ending name tag :=
  elementName_yields.bind fun name => .step fun _ =>
    finish_shaped rfl (fun known => known.2.1) fun known _ same => ⟨name, same, known.2.2⟩

theorem textChild_yields : Yields law given textChild (Node.Apt law) := by
  refine .step fun value => literal_made.bind fun node => .pure fun ⟨_, same⟩ => ?_
  exact .ofPlain (show node.form.isPlain = true from same ▸ rfl) (same ▸ trivial)

/-- The names of tags that belong together are written alike, so that they are the same. -/
theorem checkClosing_yields {opening closing : Node} :
    Yields law given (checkClosing opening closing) fun _ => ∀ name other selfClosing,
      Opening selfClosing name opening → Ending other closing → name.SameName other := by
  refine .ite (fun _ => .raise) fun same => .pure fun _ name other selfClosing opens ends => ?_
  obtain ⟨⟨attributes, begins⟩, first⟩ := opens
  simp only [tagNameOf?, begins, ends.1] at same
  have written : writtenName other = writtenName name := by simpa using same
  exact sameName_of_written first ends.2 written.symm

end Names

variable (lawful : rules.Lawful law)

include lawful

/-- A hole is lawful. -/
theorem expressionHole_yields :
    Yields law given (expressionHole rules) (Node.Lawful law) :=
  .step fun _ => .step fun _ => .step fun _ => .choose (Node.Lawful law)
    (.ite (fun _ => emptyHole_yields) fun _ => expression_yields lawful)
    fun _ => .step fun _ => finish_lawful rfl And.right

/-- The value of an attribute is lawful. -/
theorem attributeValue_yields :
    Yields law given (attributeValue rules) (Node.Lawful law) := by
  refine .step fun current => ?_
  split
  · exact (expressionHole_yields lawful).bind fun _ => .guard (.pure And.right)
  · exact (atom_yields lawful).bind fun _ => .pure fun known => known.2.lawful.congr rfl rfl rfl
  · exact (atom_yields lawful).bind fun _ => .pure fun known => known.2.lawful.congr rfl rfl rfl
  · exact .step fun _ => .raise

/-- An attribute is lawful. -/
theorem tagAttribute_yields :
    Yields law given (tagAttribute rules) (Node.Lawful law) := by
  refine .step fun _ => .step fun _ => .ite (fun _ => ?_) fun _ => ?_
  · exact .step fun _ => (assignment_yields lawful).bind fun _ => .step fun _ =>
      finish_lawful rfl And.right
  · refine spacedName_yields.bind fun name => .step fun _ => ?_
    refine .choose (PartLawful law) (.ite (fun _ => ?_) fun _ => .pure fun _ => .none)
      fun value => finish_lawful rfl fun known => ⟨known.1.2.1, known.2⟩
    exact (attributeValue_yields lawful).map fun _ => .some

/-- An opening tag is lawful and begins an element. -/
theorem openingTail_yields :
    Yields law given (openingTail rules mark) fun tag =>
      tag.1.Lawful law ∧ ∃ name, Opening tag.2 name tag.1 := by
  refine elementName_yields.bind fun name => .via (AllLawful law)
    (.loop (AllLawful law) (fun _ => .nil) fun attributes => ?_) fun attributes => ?_
  · exact .step fun _ => .step fun _ => .ite (fun _ => .done fun known => known.2.reverse) fun _ =>
      (tagAttribute_yields lawful).bind fun _ => .more fun known => .cons known.2 known.1.2
  · exact .step fun _ => .step fun _ => .bind (finish_shaped rfl
      (fun known => ⟨known.1.2.1, known.2⟩) fun known _ same =>
        ⟨name, ⟨attributes, same⟩, known.1.2.2⟩) fun _ => .pure And.right

/-- The children of an element are lawful, and its closing tag ends it. -/
theorem elementContent_yields :
    Yields law given (elementContent rules) fun content =>
      AllLawful law content.1 ∧ content.2.Lawful law ∧ ∃ name, Ending name content.2 := by
  refine .loop (AllLawful law) (fun _ => .nil) fun children => .step fun current => ?_
  split
  · refine .step fun mark => .step fun _ => .step fun _ => .ite (fun _ => ?_) fun _ => ?_
    · exact closingTail_yields.bind fun _ => .done fun known => ⟨known.1.2.reverse, known.2⟩
    · exact .via (Node.Apt law) (.ofGiven (lawful.yields (.element mark) rfl)
        fun _ => trivial) fun _ => .more fun known => .cons known.2.lawful known.1.2
  · exact textChild_yields.bind fun _ => .more fun known => .cons known.2.lawful known.1.2
  · exact (expressionHole_yields lawful).bind fun _ => .more fun known => .cons known.2 known.1.2
  · exact .unexpected

/-- An element is lawful. -/
theorem element_yields :
    Yields law given (element rules mark) (Node.Apt law) := by
  refine .nested ((openingTail_yields lawful).bind ?_)
  rintro ⟨opening, selfClosing⟩
  have rest : ∀ {given : Prop} (children : List Node) (closing : Option Node),
      (given → opening.Lawful law ∧ ∃ name, Opening selfClosing name opening ∧
        Closing name selfClosing closing) → (given → AllLawful law children) →
      (given → PartLawful law closing) → Yields law given (do
        if ← atAngle "<" then raise (← get).lexer.start .adjacentElements
        finish mark (.jsxElement opening children closing)) (Node.Apt law) := by
    intro given children closing opened all closed
    have ends : Yields law given (finish mark (.jsxElement opening children closing))
        (Node.Apt law) := by
      refine finish_permitted rfl (fun known => Form.permitted_of_element ?_) fun known =>
        ⟨(opened known).1, all known, closed known⟩
      obtain ⟨-, name, ⟨⟨attributes, begins⟩, -⟩, closing⟩ := opened known
      exact ⟨name, attributes, selfClosing, begins, closing⟩
    exact .step fun _ => .ite (fun _ => .step fun _ => .step fun _ => ends) fun _ => ends
  refine .ite (fun self => ?_) fun tagged => ?_
  · refine .value (rest [] none ?_ (fun _ => .nil) fun _ => .none)
    rintro ⟨-, opened, name, opens⟩
    exact ⟨opened, name, opens, ⟨iff_of_true rfl self, nofun⟩⟩
  · refine (elementContent_yields lawful).bind ?_
    rintro ⟨children, closing⟩
    refine checkClosing_yields.bind fun _ => .value (rest children (some closing) ?_
      (fun known => known.1.2.1) fun known => .some known.1.2.2.1)
    rintro ⟨⟨⟨-, opened, name, opens⟩, -, -, other, ends⟩, same⟩
    refine ⟨opened, name, opens, ⟨iff_of_false nofun tagged, ?_⟩⟩
    rintro _ ⟨rfl⟩
    exact ⟨other, ends.1, same name other selfClosing opens ends⟩

end Grammar

end EcmaSyntax
