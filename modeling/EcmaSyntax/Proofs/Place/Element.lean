import EcmaSyntax.Grammar.Expression.Element
import EcmaSyntax.Proofs.Place.Sequence

namespace EcmaSyntax

namespace Grammar

variable {setting : Setting} {rules : Rules} {first : Nat} {mark : Mark} {node : Node}

section Names

/-- A node below which there are no elements. -/
def bare (node : Node) : Load := { given := [node], fact := node.tags = [] }

@[simp] theorem bare_eq : bare node = { given := [node], fact := node.tags = [] } := rfl

/-- A name within a tag has no parts. -/
theorem tagName_leaf : PlacesAs setting { first := first } tagName leaf := by
  have named (mark : Mark) (name : String) : PlacesAs setting { first := mark.pos } (do
      next
      finish mark (.jsxIdentifier name)) leaf := .pass fun _ => .finishLeaf
  refine .onMark fun mark => .step fun current => .ite (fun _ => .step fun name => named mark name)
    fun _ => ?_
  split
  · exact .value (named mark _)
  · exact .fail

/-- What consists of two names is bare if they are. -/
theorem bare_pair {form : Form} {name inner : Node} {past : List Nat}
    (formed : Formed mark form past node) (plain : form.tags? = none) (parts : form.parts = [name, inner]) (former : name.tags = [])
    (latter : inner.tags = []) : node.tags = [] := by
  rw [formed.tags_eq plain, parts, tags_cons, tags_cons, former, latter]
  rfl

/-- A name with a prefix is made in its place. -/
theorem spacedName_bare : PlacesAs setting { first := first } spacedName bare :=
  .onMark fun _ => .read tagName_leaf fun name known => .step fun _ => .ite
    (fun _ => .read tagName_leaf fun inner further =>
      .forget (.finishAs (further.extend (.single name) (.single inner))) fun _ formed =>
        bare_pair formed rfl rfl (tags_leaf known.fact) (tags_leaf further.fact))
    fun _ => .conclude (tags_leaf known.fact)

/-- The name of an element is made in its place. -/
theorem elementName_bare : PlacesAs setting { first := first } elementName bare :=
  .onMark fun _ => .read spacedName_bare fun _ known => .loopAs bare (fun name former => .step
    fun _ => .ite (fun _ => .read tagName_leaf fun inner further =>
      .bind (.finishAs (further.extend (.single name) (.single inner))) fun _ made =>
        .conclude (bare_pair made.fact rfl rfl former (tags_leaf further.fact)))
      fun _ => .conclude former) known.fact

/-- There are no elements below a closing tag, but there is something in it. -/
theorem closingTail_places : PlacesAs setting { first := mark.pos } (closingTail mark) fun node =>
    { given := [node], fact := node.tags = [] ∧ node.start < node.stop } :=
  .read elementName_bare fun name known => .passFilled nofun nofun <|
    PlacesAs.forget .finishAs fun node formed => by
      refine ⟨?_, ?_⟩
      · rw [formed.tags_eq rfl]
        simpa [Form.parts, Form.fields] using known.fact
      · exact formed.start ▸ formed.past _ List.mem_cons_self

/-- Text between tags is made in its place. -/
theorem textChild_places : Places setting { first := first } textChild :=
  .step fun _ => .bind (literal_places rfl) fun node _ =>
    .note [] (⟨rfl, rfl, rfl, rfl⟩ : node.Like { node with extra := none }) nofun .pure

/-- Tags that do not match are refused in their places. -/
theorem checkClosing_places {opening : Node} (sits : node.Sits setting.source) :
    Places setting { first := first } (checkClosing opening node) :=
  .ite (fun _ => .raise sits.here.start) fun _ => .pure

end Names

section Hole

variable {frame : List Finished} {state : State}

/-- The node of an empty place ends where the second brace begins, which has not been passed yet. -/
theorem emptyHole_gives
    (holds : ({ first := first, past := [first] } : Hand).In setting frame state) :
    Gives emptyHole setting state fun node after =>
      (node.Sits setting.source ∧ first ≤ node.start ∧ node.stop ≤ after.lexer.start ∧
        node.tags = []) ∧
        after.Keeps setting (frame ++ spans [node]) ∧ state.Onward after := by
  simp only [emptyHole, Gives.bind_iff, gives_get]
  have sited := holds.keeps.sited
  have fills : Hand.Fills setting { first := first, past := [first] }
      ⟨state.lexer.lastStop, state.lexer.lastStopLoc⟩ .jsxEmptyExpression state.lexer.start :=
    ⟨.refl _, List.nil_subperm, .nil, holds.past first List.mem_cons_self, sited.lastStop,
      sited.posted.start, sited.sound.ordered, by simp, fun pair inside => by cases inside⟩
  refine (finishAt_keeps fills holds).mono fun node after met => ?_
  obtain ⟨⟨same, begins, none, ends⟩, keeps, onward⟩ := met
  exact ⟨⟨fills.sits holds same begins ends none, begins ▸ fills.first, ends ▸ onward.start,
    tags_leaf (by rw [Node.parts, same]; rfl)⟩, keeps, onward⟩

/-- The place between two braces that hold nothing, and the second brace. -/
def closedHole : Parse Node := do
  let inner ← emptyHole
  expect .braceR
  return inner

/-- A hole without an expression lies between its braces. -/
theorem closedHole_places :
    PlacesAs setting { first := first, past := [first] } closedHole (Bears.load setting.source) where
  gives frame state holds := by
    have closes : Passing (expect .braceR) := inferInstance
    simp only [closedHole, Gives.bind_iff]
    refine (emptyHole_gives holds).mono fun node middle met _ after closed => ?_
    obtain ⟨⟨sits, begins, ends, leaf⟩, keeps, begun⟩ := met
    have onward := begun.trans (closes.onward keeps.sited _ after closed)
    have passed := closes.passes _ _ keeps.sited _ after closed
    refine gives_pure.mpr ⟨trivial, holds.renewOld onward (closes.keeps keeps _ after closed) ?_ ?_
      (by simp [leaf])⟩
    · exact List.forall_mem_singleton.mpr ⟨sits, Nat.le_trans ends passed⟩
    · exact List.forall_mem_singleton.mpr begins
  fails frame state holds :=
    .bind (.bind (.never ⟨_, _, rfl⟩) (gives_get.mpr ⟨.refl _, finishAt_strays⟩))
      ((emptyHole_gives holds).mono fun _ _ met =>
        ⟨met.2.2.toGrown, .reads met.2.1.sited⟩)

/-- What stands in braces, and the second brace. -/
def holed (rules : Rules) : Parse Node := do
  if ← atKind .braceR then closedHole
  else
    let inner ← expression rules false
    expect .braceR
    return inner

/-- A hole is what stands in braces. -/
theorem expressionHole_eq (rules : Rules) : expressionHole rules = (do
    let mark ← Grammar.mark
    next
    let inner ← holed rules
    finish mark (.jsxExpressionContainer inner)) := by
  simp only [expressionHole, holed, closedHole, ite_bind, bind_assoc, pure_bind]

end Hole

section Tags

/-- What is known of an opening tag: there is something in it, and the elements below it lie in it
or before it. -/
structure Opens (mark : Mark) (tag : Node) : Prop where
  start : tag.start = mark.pos
  filled : tag.start < tag.stop
  within : ∀ pair ∈ tag.tags,
    pair.stop ≤ tag.start ∨ (tag.start ≤ pair.start ∧ pair.stop ≤ tag.stop)

/-- What stands between two tags, and the second one: the elements end before it. -/
structure Closes (children : List Node) (closing : Node) : Prop where
  row : InRow (children ++ [closing])
  filled : closing.start < closing.stop
  none : closing.tags = []
  before : ∀ pair ∈ tags children, pair.stop ≤ closing.start

/-- The tags of an element go around what has been read. -/
theorem rounds_element {opening closing : Node} {children : List Node} {past : List Nat}
    (opens : Opens mark opening) (closes : Closes children closing)
    (between : ∀ pair ∈ tags children, pair.stop ≤ mark.pos ∨ opening.stop ≤ pair.start)
    (row : opening.stop ≤ closing.start) :
    ∀ pair ∈ (Form.jsxElement opening children (some closing)).tags?,
      Hand.Rounds {
        first := mark.pos
        given := opening :: (children ++ [closing])
        past := past
        begun := true } pair := by
  rintro _ ⟨rfl⟩
  refine ⟨⟨opens.filled, row, closes.filled⟩, rfl, opens.start.symm,
    ⟨closing, by simp, Nat.le_refl _⟩, fun other inside => ?_⟩
  have below : other ∈ opening.tags ∨ other ∈ tags children := by
    simpa [closes.none] using inside
  rcases below with inTag | inContent
  · rcases opens.within other inTag with before | within
    · exact .inr (.inl before)
    · exact .inr (.inr (.inl (.inl within)))
  · rcases between other inContent with before | within
    · exact .inr (.inl (opens.start ▸ before))
    · exact .inr (.inr (.inl (.inr ⟨within, closes.before other inContent⟩)))

end Tags

section Element

variable (placed : rules.Placed setting)

include placed

/-- What stands in a hole is made in its place. -/
theorem holed_places :
    PlacesAs setting { first := first, past := [first] } (holed rules) (Bears.load setting.source) :=
  .step fun _ => .ite (fun _ => closedHole_places) fun _ =>
    .read (expression_places placed) fun _ _ => .step fun _ => .pure

/-- A hole is made in its place. -/
theorem expressionHole_places : Places setting { first := first } (expressionHole rules) := by
  rw [expressionHole_eq]
  exact .onMark fun _ => .pass fun _ => .bind (holed_places placed) fun _ _ => .finish

/-- The value of an attribute is made in its place. -/
theorem attributeValue_places : Places setting { first := first } (attributeValue rules) := by
  refine .step fun _ => ?_
  split
  · exact .read (expressionHole_places placed) fun node known => .guard
      (fun _ => .raise (known.sits node List.mem_cons_self).here.start) .pure
  · exact .bind (atom_places placed) fun node _ =>
      .note [] (⟨rfl, rfl, rfl, rfl⟩ : node.Like { node with extra := none }) nofun .pure
  · exact .bind (atom_places placed) fun node _ =>
      .note [] (⟨rfl, rfl, rfl, rfl⟩ : node.Like { node with extra := none }) nofun .pure
  · exact .onGet fun _ sited => .raise sited.posted.start

/-- An attribute is made in its place. -/
theorem tagAttribute_places : Places setting { first := first } (tagAttribute rules) :=
  have value {first : Nat} : Places setting { first := first } (some <$> attributeValue rules) :=
    .map (attributeValue_places placed)
  .onMark fun _ => .step fun _ => .ite
    (fun _ => .step fun _ => .read (assignment_places placed) fun _ _ => .step fun _ => .finish)
    fun _ => .read spacedName_bare fun _ _ => .step fun _ => .ite
      (fun _ => .read value fun annot known => .finish (known.extend (.single _) (.option annot)))
      fun _ => .value (.finish (.single _))

/-- An opening tag is made in its place. -/
theorem openingTail_places : PlacesAs setting { first := mark.pos } (openingTail rules mark)
    fun tag => { given := [tag.1], fact := Opens mark tag.1 } := by
  have attributes {first : Nat} : PlacesAs setting { first := first }
      (loop [] fun attributes => do
        if (← atKind .slash) || (← atKind .jsxTagEnd) then return .done attributes.reverse
        else return .more ((← tagAttribute rules) :: attributes)) row :=
    .loopAs backward (fun attributes gathered => .step fun _ => .step fun _ =>
      .ite (fun _ => .conclude gathered) fun _ => .read (tagAttribute_places placed) fun node known =>
        .conclude (gathered.gather (known.after node List.mem_cons_self))) InRow.nil
  refine .read elementName_bare fun name named => .read attributes fun attributes known => .step
    fun _ => .passFilled nofun nofun <|
      .bind (.finishAs (known.extend (.single _) known.fact)) fun tag made => ?_
  have formed := made.fact
  refine .conclude ⟨formed.start, ?_, fun pair inside => ?_⟩
  · exact formed.start ▸ formed.past _ List.mem_cons_self
  · have ends := formed.tags pair
    rw [formed.tags_eq rfl] at inside
    rw [Node.parts, formed.form] at ends
    have below : pair ∈ tags attributes := by
      simpa [Form.parts, Form.fields, show name.tags = [] from named.fact] using inside
    exact (known.sprouts pair below).imp (formed.start ▸ ·)
      fun later => ⟨formed.start ▸ later.1, ends inside⟩

/-- A tag between the tags of an element, with what follows if it opens another one. It may close
the element. -/
def innerTag (rules : Rules) : Parse (Node × Bool) := do
  let mark ← Grammar.mark
  next
  if ← eat .slash then
    let closing ← closingTail mark
    return (closing, true)
  else
    let child ← rules (.element mark)
    return (child, false)

/-- A tag within an element opens a child, or closes the element. -/
theorem innerTag_places : PlacesAs setting { first := first } (innerTag rules) fun tag =>
    { given := [tag.1], fact := tag.2 = true → tag.1.tags = [] ∧ tag.1.start < tag.1.stop } :=
  .onMarkBegun fun mark => .step fun _ => .step fun _ => .ite
    (fun _ => .take closingTail_places fun _ made => .conclude fun _ => made.fact)
    fun _ => .bind (placed.element mark) fun _ _ => .conclude nofun

/-- The children of an element are made in their places. -/
theorem elementContent_places : PlacesAs setting { first := first } (elementContent rules)
    fun content => { given := content.1 ++ [content.2], fact := Closes content.1 content.2 } := by
  refine .loopAs backward (fun children gathered => .step fun _ => ?_) InRow.nil
  have tagged : PlacesAs setting { first := first, given := children } (do
      let tag ← innerTag rules
      if tag.2 then return Turn.done (children.reverse, tag.1) else return .more (tag.1 :: children))
      (Turn.load backward fun content =>
        { given := content.1 ++ [content.2], fact := Closes content.1 content.2 }) := by
    refine .read (innerTag_places placed) fun tag known => .ite (fun ends => ?_) fun _ => ?_
    · obtain ⟨none, filled⟩ := known.fact ends
      refine .conclude ⟨gathered.concat fun other inside => ?_, filled, none, fun pair inside => ?_⟩
      · exact known.after tag.1 List.mem_cons_self other (List.mem_reverse.mp inside)
      · exact known.closed tag.1 List.mem_cons_self pair
          ((tags_perm (List.reverse_perm children)).subset inside)
    · exact .conclude (gathered.gather (known.after tag.1 List.mem_cons_self))
  split
  · simp only [innerTag, ite_bind, bind_assoc, pure_bind, if_true, Bool.false_eq_true, if_false]
      at tagged
    exact tagged
  · exact .read textChild_places fun child known =>
      .conclude (gathered.gather (known.after child List.mem_cons_self))
  · exact .read (expressionHole_places placed) fun child known =>
      .conclude (gathered.gather (known.after child List.mem_cons_self))
  · exact .unexpected

/-- An element is made in its place. -/
theorem element_places :
    Places setting { first := mark.pos, begun := true } (element rules mark) := by
  have rest (opening : Node) (children : List Node) (closing : Option Node)
      (row : InRow (opening :: (children ++ closing.toList)))
      (rounds : ∀ pair ∈ (Form.jsxElement opening children closing).tags?, Hand.Rounds {
        first := mark.pos, given := opening :: (children ++ closing.toList), begun := true } pair) :
      Places setting {
        first := mark.pos, given := opening :: (children ++ closing.toList), begun := true } (do
        if ← atAngle "<" then raise (← get).lexer.start .adjacentElements
        finish mark (.jsxElement opening children closing)) :=
    .step fun _ => .ite (fun _ => .onGet fun _ sited => .raised sited.posted.start)
      fun _ => .finish row rfl (by simp [Form.parts, Form.fields]) (by simp) (by simp) rounds
  refine .nested (.take (openingTail_places placed) fun (opening, selfClosing) opened => .ite
    (fun _ => .value (.arrange (rest opening [] none (.single opening) nofun))) fun _ => ?_)
  refine .read (elementContent_places placed) fun (children, closing) known => .check
    (checkClosing_places (known.sits closing (by simp))) fun _ => .value (.arrange
      (rest opening children (some closing) (known.extend (.single _) known.fact.row)
        (rounds_element opened.fact known.fact (fun pair inside => ?_) ?_)))
  · refine (known.sprouts pair ?_).imp_right fun later => later.2 opening List.mem_cons_self
    rw [tags_append]
    exact List.mem_append_left _ inside
  · exact known.after closing (by simp) opening List.mem_cons_self

end Element

end Grammar

end EcmaSyntax
