import EcmaSyntax.Proofs.Grammar.Program
import EcmaSyntax.Proofs.Lexer.Markup
import EcmaSyntax.Proofs.StringLiteral

namespace EcmaSyntax

open Lexer (Stage)

namespace Lexer.Stage

/-- From one stage the next token leads to another. -/
def Next (setting : Lexer.Setting) (stage after : Stage) : Prop :=
  ∀ state : Lexer.State, state.On setting stage →
    Succeeds Lexer.next setting state fun _ last => last.On setting after

/-- A token leads to the next stage that begins behind what is passed over. -/
theorem Next.of {setting : Lexer.Setting} {stage after : Stage} {character : Char} {rest : List Char}
    (leads : stage.Leads character rest) (outside : stage.context ≠ .quoteTemplate)
    (reads : ∀ (begun : Lexer.State) (resume : Lexer.Scan Unit),
      begun.Stands setting { stage with rest := character :: rest } → begun.start = begun.pos →
        Succeeds (Lexer.readToken character resume) setting begun
          fun _ last => last.On setting after) : stage.Next setting after := by
  intro state on
  rw [Lexer.next, Succeeds.bind_iff, succeeds_modify]
  exact Lexer.nextToken_succeeds on.passed leads outside reads

end Lexer.Stage

namespace Grammar

variable {setting : Setting} {state : State} {stage after : Stage} {depth : Nat} {α β : Type}

/-- A parse is at a stage, at a depth and outside of generators, and no comment has been given to a
node. -/
structure State.At (setting : Setting) (stage : Stage) (depth : Nat) (state : State) : Prop where
  lexer : state.lexer.On setting.toSetting stage
  uncommented : state.attachments = {}
  inGenerator : state.inGenerator = false
  depth : state.depth = depth

namespace State.At

theorem kind (here : state.At setting stage depth) : state.lexer.kind = stage.kind :=
  here.lexer.kind

theorem value (here : state.At setting stage depth) : state.lexer.value = stage.value :=
  here.lexer.value

end State.At

section Steps

variable {post : α → State → Prop} {form : Form} {mark : Mark}

/-- The current token is passed. -/
theorem next_succeeds (here : state.At setting stage depth)
    (next : stage.Next setting.toSetting after) :
    Succeeds Grammar.next setting state fun _ last => last.At setting after depth :=
  succeeds_lex.mpr ((next _ here.lexer).mono fun _ _ on => { here with lexer := on })

/-- A token of the kind that is asked for is passed. -/
theorem eat_succeeds (here : state.At setting stage depth)
    (next : stage.Next setting.toSetting after) :
    Succeeds (eat stage.kind) setting state
      fun eaten last => eaten = true ∧ last.At setting after depth := by
  have same : (state.lexer.kind == stage.kind) = true := by simp [here.kind]
  rw [eat, succeeds_lex]
  simp only [Lexer.eat, Lexer.atKind, Succeeds.bind_iff, succeeds_get, succeeds_pure, same, if_true]
  exact (next _ here.lexer).mono fun _ _ on => ⟨trivial, { here with lexer := on }⟩

/-- Another token than the one that is asked for stays where it is. -/
theorem eat_misses (here : state.At setting stage depth) {expected : Kind}
    (other : stage.kind ≠ expected) {post : Bool → State → Prop} :
    Succeeds (eat expected) setting state post ↔ post false state := by
  have differs : (state.lexer.kind == expected) = false := by simpa [here.kind] using other
  rw [eat, succeeds_lex]
  simp only [Lexer.eat, Lexer.atKind, Succeeds.bind_iff, succeeds_get, succeeds_pure, differs,
    Bool.false_eq_true, if_false]

theorem expect_succeeds (here : state.At setting stage depth)
    (next : stage.Next setting.toSetting after) :
    Succeeds (expect stage.kind) setting state fun _ last => last.At setting after depth := by
  rw [expect, Succeeds.bind_iff]
  refine (eat_succeeds here next).mono fun eaten last met => ?_
  obtain ⟨same, on⟩ := met
  subst same
  exact on

/-- Where no comment has been read and none belongs to a node, a node is given none. -/
theorem attach_succeeds (here : state.At setting stage depth) (id : NodeId) (start stop : Nat) :
    Succeeds (attach id start stop) setting state fun _ last => last.At setting stage depth := by
  have free (kept : List Finished) (other : NodeId) :
      ({ state with finished := kept } : State).attached? other = none := by
    simp [State.attached?, here.uncommented]
  have trailing : state.takeTrailing stop = .ok (none, state) := by
    unfold State.takeTrailing
    rw [here.lexer.trailing]
    cases state.finished.head? with
    | none => rfl
    | some last =>
        have unknown := free state.finished last.id
        simp only [unknown]
  have attached : ∃ kept, state.attach id start stop = .ok { state with finished := kept } := by
    simp only [State.attach, trailing, State.dropWithin, bind, Except.bind]
    split
    · simp only [State.takeFromPart, free, pure, Except.pure, State.giveComments]
      exact ⟨_, rfl⟩
    · simp only [State.takeRead, here.lexer.leading, List.getLast?_nil, pure, Except.pure,
        State.giveComments]
      exact ⟨_, rfl⟩
  obtain ⟨kept, attached⟩ := attached
  simp only [attach, Succeeds, attached]
  exact { here with }

theorem finishAt_succeeds (here : state.At setting stage depth) (mark : Mark) (form : Form)
    (stop : Nat) (stopLoc : Position) :
    Succeeds (finishAt mark form stop stopLoc) setting state
      fun node last => node.form = form ∧ last.At setting stage depth := by
  simp only [finishAt, freshId, Succeeds.bind_iff, succeeds_get, succeeds_modify, succeeds_pure]
  have later : State.At setting stage depth { state with identities := state.identities.advance } :=
    { here with }
  split
  · rw [Succeeds.bind_iff]
    exact (attach_succeeds later _ _ _).mono fun _ _ on => ⟨rfl, on⟩
  · exact ⟨rfl, later⟩

theorem finish_succeeds (here : state.At setting stage depth) (mark : Mark) (form : Form) :
    Succeeds (finish mark form) setting state
      fun node last => node.form = form ∧ last.At setting stage depth := by
  rw [finish, Succeeds.bind_iff, succeeds_get]
  exact finishAt_succeeds here mark form _ _

end Steps

section Loops

variable {turn : α → Parse (Turn α β)} {start : α} {post : β → State → Prop}

/-- A loop takes its first turn. -/
theorem succeeds_loopWithin {count : Nat} :
    Succeeds (loopWithin turn (count + 1) start) setting state post ↔
      Succeeds (turn start) setting state fun turned last =>
        match turned with
        | .more next => Succeeds (loopWithin turn count next) setting last post
        | .done result => post result last := by
  rw [loopWithin, Succeeds.bind_iff]
  constructor <;> intro succeeds <;> refine succeeds.mono fun turned last held => ?_ <;>
    cases turned <;> exact held

/-- A loop takes at least four turns, if it does not end before. -/
theorem succeeds_loop :
    Succeeds (loop start turn) setting state post ↔
      Succeeds (loopWithin turn (2 * setting.source.size + 3 + 1) start) setting state post := by
  rw [loop, Succeeds.bind_iff, succeeds_read]

/-- The first turn of a loop is its last. -/
theorem loop_succeeds
    (first : Succeeds (turn start) setting state fun turned last =>
      ∃ result, turned = .done result ∧ post result last) :
    Succeeds (loop start turn) setting state post := by
  rw [succeeds_loop, succeeds_loopWithin]
  refine first.mono fun _ _ met => ?_
  obtain ⟨_, rfl, held⟩ := met
  exact held

end Loops

section Tags

variable {name : String}

/-- A name is the current token, and no mark that goes on with a name follows it. -/
structure Naming (setting : Setting) (name : String) (stage after : Stage) : Prop where
  kind : stage.kind = .jsxName
  value : stage.value = .text name
  next : stage.Next setting.toSetting after
  apart : after.kind ≠ .colon ∧ after.kind ≠ .dot

theorem tagName_succeeds (here : state.At setting stage depth)
    (naming : Naming setting name stage after) :
    Succeeds tagName setting state
      fun node last => node.form = .jsxIdentifier name ∧ last.At setting after depth := by
  simp only [tagName, mark, Grammar.kind, Succeeds.bind_iff, succeeds_get, succeeds_pure, here.kind,
    naming.kind]
  rw [if_pos (by decide)]
  simp only [valueText, Succeeds.bind_iff, succeeds_get, succeeds_pure, here.value, naming.value]
  refine (next_succeeds here naming.next).mono fun _ last on => ?_
  exact finish_succeeds on _ _

theorem spacedName_succeeds (here : state.At setting stage depth)
    (naming : Naming setting name stage after) :
    Succeeds spacedName setting state
      fun node last => node.form = .jsxIdentifier name ∧ last.At setting after depth := by
  simp only [spacedName, mark, Succeeds.bind_iff, succeeds_get, succeeds_pure]
  refine (tagName_succeeds here naming).mono fun node last met => ?_
  obtain ⟨same, on⟩ := met
  rw [eat_misses on naming.apart.1]
  exact ⟨same, on⟩

theorem elementName_succeeds (here : state.At setting stage depth)
    (naming : Naming setting name stage after) :
    Succeeds elementName setting state
      fun node last => node.form = .jsxIdentifier name ∧ last.At setting after depth := by
  simp only [elementName, mark, Succeeds.bind_iff, succeeds_get, succeeds_pure]
  refine (spacedName_succeeds here naming).mono fun node last met => loop_succeeds ?_
  obtain ⟨same, on⟩ := met
  rw [Succeeds.bind_iff, eat_misses on naming.apart.2]
  exact ⟨node, rfl, same, on⟩

/-- A tag without attributes. -/
theorem openingTail_succeeds {middle : Stage} (here : state.At setting stage depth) (rules : Rules)
    (mark : Mark) (naming : Naming setting name stage middle) (ends : middle.kind = .jsxTagEnd)
    (next : middle.Next setting.toSetting after) :
    Succeeds (openingTail rules mark) setting state fun tag last =>
      (∃ written, tag.1.form = .jsxOpeningElement written [] false ∧
        written.form = .jsxIdentifier name) ∧ tag.2 = false ∧ last.At setting after depth := by
  rw [openingTail, Succeeds.bind_iff]
  refine (elementName_succeeds here naming).mono fun written last met => ?_
  obtain ⟨same, on⟩ := met
  rw [Succeeds.bind_iff, succeeds_loop, succeeds_loopWithin]
  simp only [atKind, Grammar.kind, Succeeds.bind_iff, succeeds_get, succeeds_pure, on.kind, ends]
  rw [if_pos (by decide), succeeds_pure]
  dsimp only
  rw [eat_misses on (by rw [ends]; decide), ← ends]
  refine (expect_succeeds on next).mono fun _ reached on => ?_
  refine (finish_succeeds on mark _).mono fun tag reached met => ?_
  obtain ⟨form, on⟩ := met
  exact ⟨⟨written, form, same⟩, rfl, on⟩

theorem closingTail_succeeds {middle : Stage} (here : state.At setting stage depth) (mark : Mark)
    (naming : Naming setting name stage middle) (ends : middle.kind = .jsxTagEnd)
    (next : middle.Next setting.toSetting after) :
    Succeeds (closingTail mark) setting state fun tag last =>
      (∃ written, tag.form = .jsxClosingElement written ∧ written.form = .jsxIdentifier name) ∧
        last.At setting after depth := by
  rw [closingTail, Succeeds.bind_iff]
  refine (elementName_succeeds here naming).mono fun written last met => ?_
  obtain ⟨same, on⟩ := met
  rw [Succeeds.bind_iff, ← ends]
  refine (expect_succeeds on next).mono fun _ reached on => ?_
  refine (finish_succeeds on mark _).mono fun tag _ met => ?_
  exact ⟨⟨written, met.1, same⟩, met.2⟩

/-- A text between tags. -/
theorem textChild_succeeds {value : String} (here : state.At setting stage depth)
    (spelled : stage.value = .text value) (next : stage.Next setting.toSetting after) :
    Succeeds textChild setting state
      fun node last => node.form = .jsxText value ∧ last.At setting after depth := by
  obtain ⟨raw, sliced⟩ := here.lexer.spelled
  simp only [textChild, valueText, literal, mark, rawText, Succeeds.bind_iff, succeeds_get,
    succeeds_pure, here.value, spelled, succeeds_lex, Lexer.succeeds_slice]
  refine ⟨raw, sliced, (next_succeeds here next).mono fun _ last on => ?_⟩
  exact finish_succeeds on _ _

end Tags

/-- A construct one level deeper succeeds as far as the depth is in bounds. -/
theorem nested_succeeds {action : Parse α} {held : α → Prop} (here : state.At setting stage depth)
    (shallow : depth < depthLimit)
    (inner : ∀ begun : State, begun.At setting stage (depth + 1) → Succeeds action setting begun
      fun value last => held value ∧ last.At setting after (depth + 1)) :
    Succeeds (nested action) setting state
      fun value last => held value ∧ last.At setting after depth := by
  have begun : State.At setting stage (depth + 1) { state with depth := state.depth + 1 } :=
    { here with depth := congrArg (· + 1) here.depth }
  simp only [nested, Succeeds.bind_iff, succeeds_modify, succeeds_get]
  rw [if_neg (by simp only [here.depth]; omega)]
  rw [Succeeds.bind_iff]
  refine (inner _ begun).mono fun value last met => ?_
  obtain ⟨holds, on⟩ := met
  rw [Succeeds.bind_iff, succeeds_modify]
  exact ⟨holds, { on with depth := by simp [on.depth] }⟩

section Elements

variable {name : String}

theorem writtenName_identifier {node : Node} {word : String} (same : node.form = .jsxIdentifier word) :
    writtenName node = word := by
  rw [writtenName]
  split <;> simp_all

/-- The stages of an element that holds a text and nothing else: the name of its opening tag, the
end of that, the text, the start of the closing tag, its slash, its name and its end, and what
follows. -/
structure Enclosing (setting : Setting) (name value : String) (stages : Fin 8 → Stage) : Prop where
  opening : Naming setting name (stages 0) (stages 1)
  opened : (stages 1).kind = .jsxTagEnd
  text : (stages 1).Next setting.toSetting (stages 2)
  isText : (stages 2).kind = .jsxText
  value : (stages 2).value = .text value
  start : (stages 2).Next setting.toSetting (stages 3)
  isStart : (stages 3).kind = .jsxTagStart
  slash : (stages 3).Next setting.toSetting (stages 4)
  isSlash : (stages 4).kind = .slash
  called : (stages 4).Next setting.toSetting (stages 5)
  closing : Naming setting name (stages 5) (stages 6)
  closed : (stages 6).kind = .jsxTagEnd
  after : (stages 6).Next setting.toSetting (stages 7)
  apart : (stages 7).kind ≠ .relational

variable {value : String} {stages : Fin 8 → Stage}

/-- The content of an element is one text. -/
theorem elementContent_succeeds (enclosing : Enclosing setting name value stages)
    (here : state.At setting (stages 2) depth) (rules : Rules) :
    Succeeds (elementContent rules) setting state fun content last =>
      (∃ child, content.1 = [child] ∧ child.form = .jsxText value) ∧
        (∃ written, content.2.form = .jsxClosingElement written ∧
          written.form = .jsxIdentifier name) ∧ last.At setting (stages 7) depth := by
  rw [elementContent, succeeds_loop, succeeds_loopWithin]
  simp only [Grammar.kind, Succeeds.bind_iff, succeeds_get, succeeds_pure, here.kind,
    enclosing.isText]
  refine (textChild_succeeds here enclosing.value enclosing.start).mono fun child last met => ?_
  obtain ⟨form, on⟩ := met
  rw [succeeds_loopWithin]
  simp only [Succeeds.bind_iff, succeeds_get, succeeds_pure, on.kind, enclosing.isStart, mark]
  refine (next_succeeds on enclosing.slash).mono fun _ last on => ?_
  have eats := eat_succeeds on enclosing.called
  rw [enclosing.isSlash] at eats
  refine eats.mono fun _ last met => ?_
  obtain ⟨same, on⟩ := met
  subst same
  rw [if_pos rfl, Succeeds.bind_iff]
  refine (closingTail_succeeds on _ enclosing.closing enclosing.closed enclosing.after).mono ?_
  rintro closing last ⟨tag, on⟩
  exact ⟨⟨child, rfl, form⟩, tag, on⟩

/-- An element that has one text between its tags. -/
def Encloses (name value : String) (node : Node) : Prop :=
  ∃ opening child closing written again,
    node.form = .jsxElement opening [child] (some closing) ∧
      opening.form = .jsxOpeningElement written [] false ∧ written.form = .jsxIdentifier name ∧
        child.form = .jsxText value ∧ closing.form = .jsxClosingElement again ∧
          again.form = .jsxIdentifier name

/-- An element is read with the text between its tags. -/
theorem element_encloses (enclosing : Enclosing setting name value stages)
    (here : state.At setting (stages 0) depth) (shallow : depth < depthLimit) (rules : Rules)
    (start : Mark) :
    Succeeds (element rules start) setting state fun node last =>
      Encloses name value node ∧ last.At setting (stages 7) depth := by
  refine nested_succeeds here shallow fun begun here => ?_
  rw [Succeeds.bind_iff]
  refine (openingTail_succeeds here rules start enclosing.opening enclosing.opened
    enclosing.text).mono ?_
  rintro ⟨opening, _⟩ last ⟨⟨written, tag, same⟩, rfl, on⟩
  simp only [Bool.false_eq_true, if_false, Succeeds.bind_iff, succeeds_pure]
  refine (elementContent_succeeds enclosing on rules).mono ?_
  rintro ⟨_, closing⟩ last ⟨⟨child, rfl, form⟩, ⟨again, closes, named⟩, on⟩
  dsimp only at tag closes
  have opens : tagNameOf? opening = some written := by simp only [tagNameOf?, tag]
  have ends : tagNameOf? closing = some again := by simp only [tagNameOf?, closes]
  simp only [checkClosing, opens, ends, Option.map_some, Option.getD_some,
    writtenName_identifier same, writtenName_identifier named]
  rw [if_neg (by simp), succeeds_pure, atAngle]
  simp only [Succeeds.bind_iff, succeeds_get, succeeds_pure, on.kind]
  rw [if_neg (by simp [enclosing.apart])]
  refine (finish_succeeds on start _).mono fun node last met => ?_
  obtain ⟨form', on⟩ := met
  exact ⟨⟨opening, child, closing, written, again, form', tag, same, form, closes, named⟩, on⟩

/-- The stages of an empty element that has one attribute and nothing else: its name, the name of
the attribute, the sign for its value, the value, the slash and the end of the tag, and what
follows. -/
structure Attributing (setting : Setting) (name key value : String) (stages : Fin 7 → Stage) :
    Prop where
  named : Naming setting name (stages 0) (stages 1)
  keyed : Naming setting key (stages 1) (stages 2)
  isEq : (stages 2).kind = .eq
  given : (stages 2).Next setting.toSetting (stages 3)
  isString : (stages 3).kind = .string
  value : (stages 3).value = .text value
  slash : (stages 3).Next setting.toSetting (stages 4)
  isSlash : (stages 4).kind = .slash
  ends : (stages 4).Next setting.toSetting (stages 5)
  isEnd : (stages 5).kind = .jsxTagEnd
  after : (stages 5).Next setting.toSetting (stages 6)
  apart : (stages 6).kind ≠ .relational

variable {key : String} {tokens : Fin 7 → Stage}

/-- A string is an expression of its own. -/
theorem atom_string (here : state.At setting stage depth) (isString : stage.kind = .string)
    (spelled : stage.value = .text value) (next : stage.Next setting.toSetting after) (count : Nat) :
    Succeeds (rulesWithin (count + 1)).atom setting state
      fun node last => node.form = .stringLiteral value ∧ last.At setting after depth := by
  obtain ⟨raw, sliced⟩ := here.lexer.spelled
  simp only [Rules.atom, rulesWithin, rule, primary, plainPrimary, stringLiteral, literal, mark,
    Grammar.kind, valueText, rawText, Succeeds.bind_iff, succeeds_get, succeeds_pure, here.kind,
    here.value, isString, spelled, succeeds_lex, Lexer.succeeds_slice]
  refine ⟨raw, sliced, (next_succeeds here next).mono fun _ last on => ?_⟩
  exact finish_succeeds on _ _

/-- The value of an attribute is a string. -/
def Assigns (key value : String) (node : Node) : Prop :=
  ∃ written given, node.form = .jsxAttribute written (some given) ∧
    written.form = .jsxIdentifier key ∧ given.form = .stringLiteral value

theorem tagAttribute_assigns (attributing : Attributing setting name key value tokens)
    (here : state.At setting (tokens 1) depth) (count : Nat) :
    Succeeds (tagAttribute (rulesWithin (count + 1))) setting state
      fun node last => Assigns key value node ∧ last.At setting (tokens 4) depth := by
  have other : (tokens 1).kind ≠ .braceL := by
    rw [attributing.keyed.kind]
    decide
  simp only [tagAttribute, mark, Succeeds.bind_iff, succeeds_get, succeeds_pure]
  rw [eat_misses here other]
  simp only [Bool.false_eq_true, if_false, Succeeds.bind_iff]
  refine (spacedName_succeeds here attributing.keyed).mono fun written last met => ?_
  obtain ⟨named, on⟩ := met
  have eats := eat_succeeds on attributing.given
  rw [attributing.isEq] at eats
  refine eats.mono fun _ last met => ?_
  obtain ⟨same, on⟩ := met
  subst same
  simp only [if_true, Succeeds.map_iff, attributeValue, Grammar.kind, Succeeds.bind_iff, succeeds_get,
    succeeds_pure, on.kind, attributing.isString]
  refine (atom_string on attributing.isString attributing.value attributing.slash count).mono ?_
  rintro given last ⟨string, on⟩
  refine (finish_succeeds on _ _).mono fun node _ met => ?_
  exact ⟨⟨written, { given with extra := none }, met.1, named, string⟩, met.2⟩

/-- An empty element that has one attribute. -/
def Attributes (name key value : String) (node : Node) : Prop :=
  ∃ opening given written, node.form = .jsxElement opening [] none ∧
    opening.form = .jsxOpeningElement written [given] true ∧ written.form = .jsxIdentifier name ∧
      Assigns key value given

theorem element_attributes (attributing : Attributing setting name key value tokens)
    (here : state.At setting (tokens 0) depth) (shallow : depth < depthLimit) (count : Nat)
    (start : Mark) :
    Succeeds (element (rulesWithin (count + 1)) start) setting state fun node last =>
      Attributes name key value node ∧ last.At setting (tokens 6) depth := by
  refine nested_succeeds here shallow fun begun here => ?_
  simp only [openingTail, Succeeds.bind_iff]
  refine (elementName_succeeds here attributing.named).mono fun written last met => ?_
  obtain ⟨named, on⟩ := met
  rw [succeeds_loop, succeeds_loopWithin]
  simp only [atKind, Grammar.kind, Succeeds.bind_iff, succeeds_get, succeeds_pure, on.kind,
    attributing.keyed.kind]
  rw [if_neg (by decide), Succeeds.bind_iff]
  refine (tagAttribute_assigns attributing on count).mono fun given last met => ?_
  obtain ⟨assigns, on⟩ := met
  simp only [succeeds_pure, succeeds_loopWithin, Succeeds.bind_iff, succeeds_get, on.kind,
    attributing.isSlash]
  rw [if_pos (by decide), succeeds_pure]
  have eats := eat_succeeds on attributing.ends
  rw [attributing.isSlash] at eats
  refine eats.mono fun _ last met => ?_
  obtain ⟨same, on⟩ := met
  subst same
  have expects := expect_succeeds on attributing.after
  rw [attributing.isEnd] at expects
  refine expects.mono fun _ last on => ?_
  refine (finish_succeeds on start _).mono fun opening last met => ?_
  obtain ⟨tag, on⟩ := met
  simp only [if_true, Succeeds.bind_iff, succeeds_pure, atAngle, succeeds_get, on.kind]
  rw [if_neg (by simp [attributing.apart])]
  refine (finish_succeeds on start _).mono fun node last met => ?_
  obtain ⟨form, on⟩ := met
  exact ⟨⟨opening, given, written, form, tag, named, assigns⟩, on⟩

end Elements

section Statements

variable {first : Stage} {held : Node → Prop}

/-- The current token begins an element, which ends with the text. -/
structure Alone (setting : Setting) (held : Node → Prop) (stage first last : Stage) : Prop where
  isStart : stage.kind = .jsxTagStart
  next : stage.Next setting.toSetting first
  element : ∀ (count depth : Nat) (mark : Mark) (begun : State), begun.At setting first depth →
    depth < depthLimit → Succeeds (element (rulesWithin (count + 1)) mark) setting begun
      fun node after => held node ∧ after.At setting last depth
  shape : ∀ node, held node → ∃ opening children closing,
    node.form = .jsxElement opening children closing
  ended : last.kind = .eof
  stays : last.Next setting.toSetting last

variable {last : Stage}

/-- An element is an expression that nothing takes apart. -/
theorem primary_alone (alone : Alone setting held stage first last)
    (here : state.At setting stage depth) (shallow : depth < depthLimit) (count : Nat) :
    Succeeds (primary (rulesWithin (count + 2))) setting state fun cover after =>
      (held cover.value ∧ cover.pending = none) ∧ after.At setting last depth := by
  simp only [primary, mark, Grammar.kind, Succeeds.bind_iff, succeeds_get, succeeds_pure, here.kind,
    alone.isStart]
  refine (next_succeeds here alone.next).mono fun _ begun on => ?_
  refine (alone.element count depth _ begun on shallow).mono fun node after met => ?_
  exact ⟨⟨met.1, trivial⟩, met.2⟩

/-- At the end of the text nothing is taken of an expression. -/
theorem access_ended (ended : stage.kind = .eof) (here : state.At setting stage depth) (rules : Rules)
    (mark : Mark) (base : Node) {post : Node → State → Prop} :
    Succeeds (access rules mark base) setting state post ↔ post base state := by
  simp only [access, accessTurn, succeeds_loop, succeeds_loopWithin, Grammar.kind, memberTail?,
    Succeeds.bind_iff, succeeds_get, succeeds_pure, here.kind, ended]

theorem stepsAfter_ended (ended : stage.kind = .eof) (here : state.At setting stage depth)
    (mark : Mark) (operand : Node) {post : Node → State → Prop} :
    Succeeds (stepsAfter mark operand) setting state post ↔ post operand state := by
  have plain : Kind.eof.isPostfixOp = false := by decide
  simp [stepsAfter, succeeds_loop, succeeds_loopWithin, Grammar.kind, mayEndStatement, here.kind, ended,
    plain]

theorem operators_ended (ended : stage.kind = .eof) (here : state.At setting stage depth)
    (rules : Rules) (left : Node) (mark : Mark) (level : Nat) (noIn : Bool)
    {post : Node → State → Prop} :
    Succeeds (operators rules left mark level noIn) setting state post ↔ post left state := by
  have plain : Kind.eof.precedence? = none := by decide
  simp [operators, succeeds_loop, succeeds_loopWithin, Grammar.kind, here.kind, ended, plain]

theorem accessChain_alone (alone : Alone setting held stage first last)
    (here : state.At setting stage depth) (shallow : depth < depthLimit) (count : Nat) :
    Succeeds (accessChain (rulesWithin (count + 3))) setting state fun cover after =>
      (held cover.value ∧ cover.pending = none) ∧ after.At setting last depth := by
  simp only [accessChain, mark, Succeeds.bind_iff, succeeds_get, succeeds_pure]
  refine (primary_alone alone here shallow count).mono fun cover after met => ?_
  obtain ⟨⟨holds, settled⟩, on⟩ := met
  obtain ⟨opening, children, closing, form⟩ := alone.shape _ holds
  have element : isBareArrow cover.value state.arrowAt = false := by simp only [isBareArrow, form]
  rw [if_neg (by simp [element, settled]), Succeeds.bind_iff, access_ended alone.ended on]
  exact ⟨⟨holds, rfl⟩, on⟩

/-- Such an element is an operand. -/
theorem unary_alone (alone : Alone setting held stage first last)
    (here : state.At setting stage depth) (shallow : depth < depthLimit) (count : Nat) :
    Succeeds (unary (rulesWithin (count + 3))) setting state fun cover after =>
      (held cover.value ∧ cover.pending = none) ∧ after.At setting last depth := by
  simp only [unary, Grammar.kind, mark, Succeeds.bind_iff, succeeds_get, succeeds_pure, here.kind,
    alone.isStart]
  rw [if_neg (by decide)]
  simp only [Succeeds.bind_iff, succeeds_get, succeeds_pure]
  refine (accessChain_alone alone here shallow count).mono fun cover after met => ?_
  obtain ⟨⟨holds, settled⟩, on⟩ := met
  rw [if_neg (by simp [settled])]
  rw [Succeeds.bind_iff, stepsAfter_ended alone.ended on]
  exact ⟨⟨holds, rfl⟩, on⟩

/-- Such an operand stands in no operation. -/
theorem binary_alone (alone : Alone setting held stage first last)
    (here : state.At setting stage depth) (shallow : depth < depthLimit) (noIn : Bool) (count : Nat) :
    Succeeds (binary (rulesWithin (count + 4)) noIn) setting state fun cover after =>
      (held cover.value ∧ cover.pending = none) ∧ after.At setting last depth := by
  simp only [binary, mark, Succeeds.bind_iff, succeeds_get, succeeds_pure]
  refine (unary_alone alone here shallow count).mono fun cover after met => ?_
  obtain ⟨⟨holds, settled⟩, on⟩ := met
  rw [if_neg (by simp [settled]), Succeeds.bind_iff]
  refine (operators_ended alone.ended on _ _ _ _ _).mpr ?_
  exact ⟨⟨holds, rfl⟩, on⟩

/-- Nor does it decide between two others. -/
theorem conditional_alone (alone : Alone setting held stage first last)
    (here : state.At setting stage depth) (shallow : depth < depthLimit) (noIn : Bool) (count : Nat) :
    Succeeds (conditional (rulesWithin (count + 4)) noIn) setting state fun cover after =>
      (held cover.value ∧ cover.pending = none) ∧ after.At setting last depth := by
  simp only [conditional, mark, Succeeds.bind_iff, succeeds_get, succeeds_pure]
  refine (binary_alone alone here shallow noIn count).mono fun cover after met => ?_
  obtain ⟨⟨holds, settled⟩, on⟩ := met
  rw [if_neg (by simp [settled]), Succeeds.bind_iff, eat_misses on (by simp [alone.ended])]
  exact ⟨⟨holds, settled⟩, on⟩

/-- Such an expression is assigned to nothing. -/
theorem assignment_alone (alone : Alone setting held stage first last)
    (here : state.At setting stage depth) (shallow : depth + 1 < depthLimit) (noIn : Bool)
    (count : Nat) :
    Succeeds (assignment (rulesWithin (count + 4)) noIn false) setting state fun cover after =>
      (held cover.value ∧ cover.pending = none) ∧ after.At setting last depth := by
  refine nested_succeeds here (Nat.lt_of_succ_lt shallow) fun begun here => ?_
  simp only [atKind, Grammar.kind, mark, Succeeds.bind_iff, succeeds_get, succeeds_pure, here.kind,
    alone.isStart]
  rw [if_neg (by simp)]
  simp only [Succeeds.bind_iff, succeeds_get, succeeds_pure, here.kind, alone.isStart]
  rw [if_neg (by decide), Succeeds.bind_iff]
  refine (conditional_alone alone here shallow noIn count).mono ?_
  rintro cover after ⟨⟨holds, settled⟩, on⟩
  simp only [Bool.false_eq_true, if_false, Succeeds.bind_iff, succeeds_get, succeeds_pure, on.kind,
    alone.ended]
  rw [if_neg (by decide)]
  exact ⟨⟨holds, settled⟩, on⟩

/-- Such an expression stands by itself, without commas. -/
theorem expression_alone (alone : Alone setting held stage first last)
    (here : state.At setting stage depth) (shallow : depth + 1 < depthLimit) (noIn : Bool)
    (count : Nat) :
    Succeeds (expression (rulesWithin (count + 5)) noIn) setting state fun node after =>
      held node ∧ after.At setting last depth := by
  simp only [expression, mark, Rules.assignment, Rules.cover, Succeeds.bind_iff, succeeds_get,
    succeeds_pure]
  refine (assignment_alone alone here shallow noIn count).mono fun cover after met => ?_
  obtain ⟨⟨holds, settled⟩, on⟩ := met
  simp only [Cover.settle, settled, succeeds_pure, atKind, Grammar.kind, Succeeds.bind_iff, succeeds_get,
    on.kind, alone.ended]
  rw [if_neg (by decide)]
  exact ⟨holds, on⟩

/-- A statement that is nothing but an expression. -/
def IsStatementOf (held : Node → Prop) (node : Node) : Prop :=
  ∃ inner, node.form = .expressionStatement inner ∧ held inner

/-- What has no name declares nothing. -/
theorem wordDeclaration?_unnamed {rules : Rules} {mark : Mark} {word : Node}
    (unnamed : word.name? = none) {post : Option Node → State → Prop} :
    Succeeds (wordDeclaration? rules mark word) setting state post ↔ post none state := by
  simp only [wordDeclaration?, hasTypes, unnamed, Succeeds.bind_iff, succeeds_read, succeeds_pure]
  split <;> simp [Grammar.kind]

/-- A statement ends at the end of the text. -/
theorem endStatement_ended (ended : stage.kind = .eof) (here : state.At setting stage depth)
    {post : Unit → State → Prop} : Succeeds endStatement setting state post ↔ post () state := by
  simp only [endStatement, endsStatement, Succeeds.bind_iff]
  rw [eat_misses here (by simp [ended])]
  simp [mayEndStatement, Grammar.kind, here.kind, ended]

/-- An expression that stands alone is a statement. -/
theorem plainStatement_alone (alone : Alone setting held stage first last)
    (here : state.At setting stage depth) (shallow : depth + 1 < depthLimit) (count : Nat)
    (mark : Mark) :
    Succeeds (plainStatement (rulesWithin (count + 5)) mark) setting state fun node after =>
      IsStatementOf held node ∧ after.At setting last depth := by
  simp only [plainStatement, atKind, Grammar.kind, valueText, Succeeds.bind_iff, succeeds_get,
    succeeds_pure, here.kind, alone.isStart]
  refine (expression_alone alone here shallow false count).mono fun inner after met => ?_
  obtain ⟨holds, on⟩ := met
  obtain ⟨opening, children, closing, form⟩ := alone.shape _ holds
  have unnamed : inner.name? = none := by simp only [Node.name?, form]
  rw [if_neg (by simp), Succeeds.bind_iff, succeeds_pure, if_neg (by decide), expressionStatement,
    Succeeds.bind_iff, wordDeclaration?_unnamed unnamed]
  dsimp only
  rw [Succeeds.bind_iff, endStatement_ended alone.ended on]
  refine (finish_succeeds on mark _).mono fun node _ met => ?_
  exact ⟨⟨inner, met.1, holds⟩, met.2⟩

/-- This statement needs no decorators. -/
theorem statement_alone (alone : Alone setting held stage first last)
    (here : state.At setting stage depth) (shallow : depth + 2 < depthLimit)
    (declaration topLevel : Bool) (count : Nat) :
    Succeeds (statement (rulesWithin (count + 5)) declaration topLevel) setting state
      fun node after => IsStatementOf held node ∧ after.At setting last depth := by
  refine nested_succeeds here (by omega) fun begun here => ?_
  simp only [hasTypes, isStrict, atWord, atKind, Grammar.kind, Succeeds.bind_iff, succeeds_get,
    succeeds_read, succeeds_pure, here.kind, alone.isStart]
  rw [if_neg (by simp)]
  simp only [Succeeds.bind_iff, succeeds_get, succeeds_pure, here.kind, alone.isStart]
  rw [if_neg (by simp)]
  simp only [undecoratedStatement, mark, Grammar.kind, asyncDeclaration?, atWord, Succeeds.bind_iff,
    succeeds_get, succeeds_pure, here.kind, alone.isStart]
  rw [if_neg (by simp), succeeds_pure]
  exact plainStatement_alone alone here (by omega) count _

/-- A block takes this statement, which is no directive. -/
theorem takeStatement_alone (alone : Alone setting held stage first last)
    (here : state.At setting stage depth) (shallow : depth + 2 < depthLimit)
    (allowDirectives topLevel : Bool) (count : Nat) :
    Succeeds (takeStatement (rulesWithin (count + 6)) allowDirectives topLevel {}) setting state
      fun parts after => (∃ node, parts.statements = [node] ∧ IsStatementOf held node) ∧
        parts.directives = [] ∧ parts.before = none ∧ after.At setting last depth := by
  simp only [takeStatement, Rules.statement, Succeeds.bind_iff, succeeds_get]
  refine (statement_alone alone here shallow true topLevel count).mono ?_
  rintro node after ⟨⟨inner, form, holds⟩, on⟩
  obtain ⟨opening, children, closing, element⟩ := alone.shape _ holds
  have plain : stringStatement? node = none := by simp only [stringStatement?, form, element]
  simp only [plain, ite_self, succeeds_pure]
  exact ⟨⟨node, rfl, inner, form, holds⟩, trivial, trivial, on⟩

/-- A block consists of this statement. -/
theorem blockParts_alone (alone : Alone setting held stage first last)
    (here : state.At setting stage depth) (shallow : depth + 2 < depthLimit)
    (allowDirectives topLevel : Bool) (count : Nat) :
    Succeeds (blockParts (rulesWithin (count + 6)) allowDirectives topLevel .eof) setting state
      fun parts after => parts.1 = [] ∧ (∃ node, parts.2 = [node] ∧ IsStatementOf held node) ∧
        after.At setting last depth := by
  rw [blockParts, Succeeds.bind_iff, succeeds_loop, succeeds_loopWithin, Succeeds.bind_iff,
    eat_misses here (by simp [alone.isStart]), if_neg (by decide), Succeeds.bind_iff]
  refine (takeStatement_alone alone here shallow allowDirectives topLevel count).mono ?_
  rintro parts after ⟨⟨node, statements, holds⟩, directives, before, on⟩
  have eats := eat_succeeds on alone.stays
  rw [alone.ended] at eats
  rw [succeeds_pure]
  dsimp only
  rw [succeeds_loopWithin, Succeeds.bind_iff]
  refine eats.mono fun _ after met => ?_
  obtain ⟨same, on⟩ := met
  subst same
  rw [if_pos rfl, succeeds_pure]
  dsimp only
  rw [before, if_neg (by decide), succeeds_pure, statements, directives]
  exact ⟨rfl, ⟨node, rfl, holds⟩, on⟩

/-- A program is one statement, which is one expression. -/
def IsProgramOf (sourceType : SourceType) (held : Node → Prop) (node : Node) : Prop :=
  ∃ statement, node.form = .program sourceType [] [statement] ∧ IsStatementOf held statement

/-- A program consists of this statement. -/
theorem program_alone (alone : Alone setting held stage first last)
    (begins : Succeeds Lexer.nextToken setting.toSetting state.lexer
      fun _ lexer => lexer.On setting.toSetting stage)
    (uncommented : state.attachments = {}) (inGenerator : state.inGenerator = false)
    (flat : state.depth = 0) :
    Succeeds program setting state
      fun file _ => IsProgramOf setting.options.sourceType held file.program := by
  have rules : ruleLimit setting.source.size = 16 * setting.source.size + 58 + 6 := rfl
  simp only [program, programNode, closeFile, mark, Succeeds.bind_iff, succeeds_get, succeeds_read,
    succeeds_pure, succeeds_lex, rules]
  refine begins.mono fun _ lexer on => ?_
  have here : State.At setting stage 0 { state with lexer := lexer } :=
    ⟨on, uncommented, inGenerator, flat⟩
  refine (blockParts_alone alone here (by decide) true true _).mono ?_
  rintro ⟨_, _⟩ after ⟨rfl, ⟨statement, rfl, holds⟩, on⟩
  refine (finish_succeeds on _ _).mono fun node after met => ?_
  obtain ⟨form, on⟩ := met
  have taken : State.At setting last 0
      { after with
        lexer := { after.lexer with entries := [], comments := [] }
        identities := after.identities.advance } := { on with lexer := { on.lexer with } }
  simp only [Lexer.takeRecord, freshId, Succeeds.bind_iff, succeeds_get, succeeds_modify, succeeds_pure]
  exact (attach_succeeds taken _ _ _).mono fun _ _ _ => ⟨statement, form, holds⟩

/-- A text without line breaks of two characters is parsed as an element. -/
theorem parseText_alone {text : List Char} {options : Options}
    (alone : Alone (.ofText text options) held stage first last)
    (begins : ∀ begun : Lexer.State, begun.Stands (Setting.ofText text options).toSetting
      ⟨.eof, .none, [.braceStatement], true, text⟩ →
      Succeeds Lexer.nextToken (Setting.ofText text options).toSetting begun
        fun _ lexer => lexer.On (Setting.ofText text options).toSetting stage)
    (unmarked : text.head? ≠ some '#') :
    ∃ file, parseText text options = .ok file ∧ IsProgramOf options.sourceType held file.program := by
  let setting := Setting.ofText text options
  let initial := State.initial options.startsStrict
  have parted : setting.source.At 0 [] text := .start _
  have stands : initial.lexer.Stands setting.toSetting ⟨.eof, .none, [.braceStatement], true, text⟩ :=
    ⟨rfl, rfl, rfl, rfl, ⟨[], parted⟩, Nat.le_refl _, rfl, rfl, rfl⟩
  have unmarked : Lexer.skipShebang setting.toSetting initial.lexer = .ok () initial.lexer :=
    Lexer.skipShebang_eq (by rwa [show setting.source.charAt? initial.lexer.pos = _ from parted.charAt?])
  have reads : Succeeds (do lex Lexer.skipShebang; program) setting initial
      fun file _ => IsProgramOf options.sourceType held file.program := by
    rw [Succeeds.bind_iff, succeeds_lex, succeeds_of_eq_ok unmarked]
    exact program_alone alone (begins _ stands) rfl rfl rfl
  obtain ⟨file, after, parsed, holds⟩ := succeeds_iff.mp reads
  refine ⟨file, ?_, holds⟩
  exact conclude_eq_ok.mpr ⟨after, parsed, nofun⟩

end Statements

section Texts

/-- A character as it is written between tags. -/
def textSpelling : Char → List Char
  | '&' => ['&', 'a', 'm', 'p', ';']
  | '<' => ['&', 'l', 't', ';']
  | '\x7b' => ['&', '#', '1', '2', '3', ';']
  | character => [character]

/-- The stages of an element that holds a text. -/
def textStages (value : String) (written : List Char) : Fin 8 → Stage
  | 0 => ⟨.jsxName, .text "a", [.jsxOpenTag, .jsxExpression, .braceStatement], false,
      '>' :: (written ++ ['<', '/', 'a', '>'])⟩
  | 1 => ⟨.jsxTagEnd, .none, [.jsxExpression, .braceStatement], true,
      written ++ ['<', '/', 'a', '>']⟩
  | 2 => ⟨.jsxText, .text value, [.jsxExpression, .braceStatement], true, ['<', '/', 'a', '>']⟩
  | 3 => ⟨.jsxTagStart, .none,
      [.jsxOpenTag, .jsxExpression, .jsxExpression, .braceStatement], false, ['/', 'a', '>']⟩
  | 4 => ⟨.slash, .text "/", [.jsxCloseTag, .jsxExpression, .braceStatement], false, ['a', '>']⟩
  | 5 => ⟨.jsxName, .text "a", [.jsxCloseTag, .jsxExpression, .braceStatement], false, ['>']⟩
  | 6 => ⟨.jsxTagEnd, .none, [.braceStatement], false, []⟩
  | 7 => ⟨.eof, .none, [.braceStatement], false, []⟩

open Lexer in
/-- Text that is written between two tags is enclosed in them. -/
theorem enclosing_text {setting : Setting} {parts : List (List Char)} {value : List Char}
    (markup : setting.jsx = true) (writes : List.Forall₂ (Writes endsMarkup) parts value)
    (filled : value ≠ []) (single : ¬LineEnding.Paired (parts.flatten ++ ['<', '/', 'a', '>'])) :
    Enclosing setting "a" (String.ofList value)
      (textStages (String.ofList value) parts.flatten) where
  opening :=
    { kind := rfl
      value := rfl
      next := .of (.directly rfl (.mark (by decide) (by decide))) nofun
        fun _ _ stands starts => readTagEnd_succeeds stands starts rfl (.inl rfl) markup
          (shifts_tagEnd markup rfl nofun)
      apart := ⟨nofun, nofun⟩ }
  opened := rfl
  text := by
    obtain ⟨character, rest, same, goesOn⟩ := exists_flatten_eq writes filled (by decide)
    have heads : parts.flatten ++ ['<', '/', 'a', '>'] = character :: (rest ++ ['<', '/', 'a', '>']) := by
      rw [same]
      rfl
    refine .of (.inside rfl heads) nofun fun _ _ stands starts => ?_
    exact readText_succeeds stands starts writes heads.symm goesOn ⟨'<', rfl, rfl⟩
      (by rwa [← heads]) rfl markup
  isText := rfl
  value := rfl
  start := .of (.directly rfl (.mark (by decide) (by decide))) nofun
    fun _ _ stands starts => readTagStart_succeeds stands starts rfl rfl markup
  isStart := rfl
  slash := .of (.directly rfl ⟨by decide, by decide⟩) nofun
    fun _ _ stands starts => readSlash_succeeds stands starts rfl (.inl rfl) (by decide) rfl markup
      (shifts_closing markup rfl)
  isSlash := rfl
  called := .of (.directly rfl (.mark (by decide) (by decide))) nofun
    fun _ _ stands starts => readName_succeeds stands starts rfl (.inr rfl) (by decide +kernel) (by simp)
      (by simp; decide +kernel) markup
  closing :=
    { kind := rfl
      value := rfl
      next := .of (.directly rfl (.mark (by decide) (by decide))) nofun
        fun _ _ stands starts => readTagEnd_succeeds stands starts rfl (.inr rfl) markup
          (shifts_elementEnd markup rfl (.inr rfl))
      apart := ⟨nofun, nofun⟩ }
  closed := rfl
  after := fun _ on => next_end on rfl rfl markup
  apart := nofun

/-- The value of an attribute as it is written between double quotes. -/
def attributeSpelling : Char → List Char
  | '&' => ['&', 'a', 'm', 'p', ';']
  | '"' => ['&', 'q', 'u', 'o', 't', ';']
  | character => [character]

/-- The stages of an empty element that has one attribute. -/
def attributeStages (value : String) (written : List Char) : Fin 7 → Stage
  | 0 => ⟨.jsxName, .text "a", [.jsxOpenTag, .jsxExpression, .braceStatement], false,
      ' ' :: 'b' :: '=' :: '"' :: (written ++ ['"', '/', '>'])⟩
  | 1 => ⟨.jsxName, .text "b", [.jsxOpenTag, .jsxExpression, .braceStatement], false,
      '=' :: '"' :: (written ++ ['"', '/', '>'])⟩
  | 2 => ⟨.eq, .text "=", [.jsxOpenTag, .jsxExpression, .braceStatement], true,
      '"' :: (written ++ ['"', '/', '>'])⟩
  | 3 => ⟨.string, .text value, [.jsxOpenTag, .jsxExpression, .braceStatement], false, ['/', '>']⟩
  | 4 => ⟨.slash, .text "/", [.jsxOpenTag, .jsxExpression, .braceStatement], true, ['>']⟩
  | 5 => ⟨.jsxTagEnd, .none, [.braceStatement], false, []⟩
  | 6 => ⟨.eof, .none, [.braceStatement], false, []⟩

open Lexer in
/-- Text that is written between quotes is the value of an attribute. -/
theorem attributing_text {setting : Setting} {parts : List (List Char)} {value : List Char}
    (markup : setting.jsx = true) (writes : List.Forall₂ (Writes (· == '"')) parts value)
    (single : ¬LineEnding.Paired ('"' :: (parts.flatten ++ ['"', '/', '>']))) :
    Attributing setting "a" "b" (String.ofList value)
      (attributeStages (String.ofList value) parts.flatten) where
  named :=
    { kind := rfl
      value := rfl
      next := .of (.blank rfl rfl (.mark (by decide) (by decide))) nofun
        fun _ _ stands starts => readName_succeeds stands starts rfl (.inl rfl) (by decide +kernel)
          (by simp) (by simp; decide +kernel) markup
      apart := ⟨nofun, nofun⟩ }
  keyed :=
    { kind := rfl
      value := rfl
      next := .of (.directly rfl (.mark (by decide) (by decide))) nofun
        fun _ _ stands starts => readEq_succeeds stands starts rfl (.inl rfl) ⟨by simp, by simp⟩ markup
      apart := ⟨nofun, nofun⟩ }
  isEq := rfl
  given := .of (.directly rfl (.mark (by decide) (by decide))) nofun
    fun _ _ stands starts => readAttribute_succeeds stands starts writes rfl (.inl rfl) single rfl markup
  isString := rfl
  value := rfl
  slash := .of (.directly rfl ⟨by decide, by decide⟩) nofun
    fun _ _ stands starts => readSlash_succeeds stands starts rfl (.inl rfl) (by decide) rfl markup
      (shifts_plain markup (.inr ⟨rfl, nofun⟩))
  isSlash := rfl
  ends := .of (.directly rfl (.mark (by decide) (by decide))) nofun
    fun _ _ stands starts => readTagEnd_succeeds stands starts rfl (.inl rfl) markup
      (shifts_elementEnd markup rfl (.inl ⟨rfl, rfl⟩))
  isEnd := rfl
  after := fun _ on => next_end on rfl rfl markup
  apart := nofun

/-- A text as it is written between tags is one that stands for it. -/
theorem writes_textSpelling (text : List Char) :
    List.Forall₂ (Lexer.Writes Lexer.endsMarkup) (text.map textSpelling) text := by
  rw [List.forall₂_map_left_iff, List.forall₂_same]
  intro character _
  have references : Lexer.Refers ['a', 'm', 'p'] '&' ∧ Lexer.Refers ['l', 't'] '<' ∧
      Lexer.Refers ['#', '1', '2', '3'] '\x7b' :=
    ⟨⟨by decide, by decide, by simp⟩, ⟨by decide, by decide, by simp⟩,
      ⟨by decide, by decide, by simp⟩⟩
  unfold textSpelling
  split
  · exact .reference references.1
  · exact .reference references.2.1
  · exact .reference references.2.2
  · next amp tag brace => exact .itself (by simp_all [Lexer.endsMarkup]) (by simpa using amp)

/-- The value of an attribute as it is written is a text that stands for it. -/
theorem writes_attributeSpelling (text : List Char) :
    List.Forall₂ (Lexer.Writes (· == '"')) (text.map attributeSpelling) text := by
  rw [List.forall₂_map_left_iff, List.forall₂_same]
  intro character _
  have references : Lexer.Refers ['a', 'm', 'p'] '&' ∧ Lexer.Refers ['q', 'u', 'o', 't'] '"' :=
    ⟨⟨by decide, by decide, by simp⟩, ⟨by decide, by decide, by simp⟩⟩
  unfold attributeSpelling
  split
  · exact .reference references.1
  · exact .reference references.2
  · next amp quote => exact .itself (by simpa using quote) (by simpa using amp)

/-- A character is written as itself or without line terminators. -/
def Unbroken (spelling : Char → List Char) : Prop :=
  ∀ character, spelling character = [character] ∨
    spelling character ≠ [] ∧ ∀ part ∈ spelling character, part ≠ '\r' ∧ part ≠ '\n'

/-- The spelling of a text has no line ending of two characters. -/
theorem unbroken_textSpelling : Unbroken textSpelling := by
  intro character
  unfold textSpelling
  split
  iterate 3 exact .inr (by simp)
  exact .inl rfl

/-- Nor has the spelling of the text of an attribute. -/
theorem unbroken_attributeSpelling : Unbroken attributeSpelling := by
  intro character
  unfold attributeSpelling
  split
  iterate 2 exact .inr (by simp)
  exact .inl rfl

/-- A text that is written begins with a line feed only where it does. -/
theorem head?_spelling {spelling : Char → List Char} {text rest : List Char}
    (unbroken : Unbroken spelling) (apart : rest.head? ≠ some '\n')
    (feeds : (text.flatMap spelling ++ rest).head? = some '\n') : text.head? = some '\n' := by
  cases text with
  | nil => exact absurd feeds apart
  | cons character text =>
      rcases unbroken character with same | ⟨filled, plain⟩
      · simpa [same] using feeds
      · obtain ⟨part, parts, same⟩ := List.exists_cons_of_ne_nil filled
        have feed : part = '\n' := by simpa [same] using feeds
        exact absurd feed (plain part (by simp [same])).2

/-- A text that is written has a line break of two characters only where it has one. -/
theorem unpaired_spelling {spelling : Char → List Char} {text rest : List Char}
    (unbroken : Unbroken spelling) (single : ¬LineEnding.Paired text)
    (apart : rest.head? ≠ some '\n') (behind : ¬LineEnding.Paired rest) :
    ¬LineEnding.Paired (text.flatMap spelling ++ rest) := by
  induction text with
  | nil => exact behind
  | cons character text inductionHypothesis =>
      rw [LineEnding.paired_cons, not_or] at single
      have others := inductionHypothesis single.2
      rw [List.flatMap_cons, List.append_assoc]
      rcases unbroken character with same | ⟨-, plain⟩
      · rw [same, List.singleton_append, LineEnding.paired_cons, not_or]
        refine ⟨fun paired => ?_, others⟩
        exact single.1 ⟨paired.1, head?_spelling unbroken apart paired.2⟩
      · rwa [LineEnding.paired_append_iff fun among => (plain _ among).1 rfl]

end Texts

/-- A text as it is written between tags: an ampersand, the start of a tag and a brace are referred
to. -/
def escapedText (text : String) : String := String.ofList (text.toList.flatMap textSpelling)

/-- A text as it is written between double quotes as the value of an attribute: an ampersand and a
double quote are referred to. -/
def escapedAttribute (text : String) : String :=
  String.ofList (text.toList.flatMap attributeSpelling)

/-- The first token of a text that begins with a tag. -/
theorem begins_tag {setting : Setting} {rest : List Char} (markup : setting.jsx = true)
    {begun : Lexer.State}
    (stands : begun.Stands setting.toSetting ⟨.eof, .none, [.braceStatement], true, '<' :: rest⟩) :
    Succeeds Lexer.nextToken setting.toSetting begun fun _ lexer => lexer.On setting.toSetting
      ⟨.jsxTagStart, .none, [.jsxOpenTag, .jsxExpression, .braceStatement], false, rest⟩ :=
  Lexer.nextToken_succeeds stands (.directly rfl (.mark (by decide) (by decide))) nofun
    fun _ _ stands starts => Lexer.readTagStart_succeeds stands starts rfl rfl markup

/-- The name of a tag comes first in it. -/
theorem next_name {setting : Setting} {rest : List Char} (markup : setting.jsx = true)
    (stops : ∀ other ∈ rest.head?, (Identifier.isPart other || other == '-') = false) :
    Stage.Next setting.toSetting
      ⟨.jsxTagStart, .none, [.jsxOpenTag, .jsxExpression, .braceStatement], false, 'a' :: rest⟩
      ⟨.jsxName, .text "a", [.jsxOpenTag, .jsxExpression, .braceStatement], false, rest⟩ :=
  .of (.directly rfl (.mark (by decide) (by decide))) nofun
    fun _ _ stands starts => Lexer.readName_succeeds stands starts rfl (.inl rfl) (by decide +kernel)
      (by simp) stops markup

/-- A text is read back from between two tags. -/
theorem parseText_encloses {options : Options} (markup : options.hasDialect .jsx = true)
    {text : List Char} (filled : text ≠ []) (single : ¬LineEnding.Paired text) :
    ∃ file, parseText ('<' :: 'a' :: '>' :: (text.flatMap textSpelling ++ ['<', '/', 'a', '>']))
        options = .ok file ∧
      IsProgramOf options.sourceType (Encloses "a" (String.ofList text)) file.program := by
  have written : ¬LineEnding.Paired ((text.map textSpelling).flatten ++ ['<', '/', 'a', '>']) :=
    unpaired_spelling unbroken_textSpelling single (by decide) (by decide)
  have enclosing (source : List Char) : Enclosing (.ofText source options) "a" (String.ofList text)
      (textStages (String.ofList text) (text.map textSpelling).flatten) :=
    enclosing_text markup (writes_textSpelling text) filled written
  exact parseText_alone
    { isStart := rfl
      next := next_name markup (by simp; decide +kernel)
      element := fun count _ mark _ here shallow => element_encloses (enclosing _) here shallow _ mark
      shape := by
        rintro _ ⟨_, _, _, _, _, form, _⟩
        exact ⟨_, _, _, form⟩
      ended := rfl
      stays := fun _ on => Lexer.next_end on rfl rfl markup }
    (fun _ stands => begins_tag markup stands) (by simp)

/-- The value of an attribute is read back from between two quotes. -/
theorem parseText_attributes {options : Options} (markup : options.hasDialect .jsx = true)
    {text : List Char} (single : ¬LineEnding.Paired text) :
    ∃ file, parseText ('<' :: 'a' :: ' ' :: 'b' :: '=' :: '"' ::
        (text.flatMap attributeSpelling ++ ['"', '/', '>'])) options = .ok file ∧
      IsProgramOf options.sourceType (Attributes "a" "b" (String.ofList text)) file.program := by
  have written : ¬LineEnding.Paired
      ('"' :: ((text.map attributeSpelling).flatten ++ ['"', '/', '>'])) := by
    rw [LineEnding.paired_cons, not_or]
    exact ⟨by simp, unpaired_spelling unbroken_attributeSpelling single (by decide) (by decide)⟩
  have attributing (source : List Char) : Attributing (.ofText source options) "a" "b" (String.ofList text)
      (attributeStages (String.ofList text) (text.map attributeSpelling).flatten) :=
    attributing_text markup (writes_attributeSpelling text) written
  exact parseText_alone
    { isStart := rfl
      next := next_name markup (by simp; decide +kernel)
      element := fun count _ mark _ here shallow => element_attributes (attributing _) here shallow _ mark
      shape := by
        rintro _ ⟨_, _, _, form, _⟩
        exact ⟨_, _, _, form⟩
      ended := rfl
      stays := fun _ on => Lexer.next_end on rfl rfl markup }
    (fun _ stands => begins_tag markup stands) (by simp)

end Grammar

open Grammar

/-- Under the dialect of markup a text between tags, and the value of an attribute, is read back
where it has been written with references, if no line break of two characters stands in it. -/
theorem parse_unescapes {options : Options} (markup : options.hasDialect .jsx = true) {text : String}
    (single : ¬LineEnding.Paired text.toList) :
    (text ≠ "" → ∃ file, parse ("<a>" ++ escapedText text ++ "</a>") options = .ok file ∧
      IsProgramOf options.sourceType (Encloses "a" text) file.program) ∧
    ∃ file, parse ("<a b=\"" ++ escapedAttribute text ++ "\"/>") options = .ok file ∧
      IsProgramOf options.sourceType (Attributes "a" "b" text) file.program := by
  have normal {source : String} {front back : List Char} {spelling : Char → List Char}
      (same : source.toList = front ++ (text.toList.flatMap spelling ++ back))
      (unbroken : Unbroken spelling) (free : '\r' ∉ front) (apart : back.head? ≠ some '\n')
      (behind : ¬LineEnding.Paired back) : (LineEnding.normalize source).toList = source.toList := by
    rw [LineEnding.normalize, String.toList_ofList, LineEnding.unify_eq_self_iff, same,
      LineEnding.paired_append_iff free]
    exact unpaired_spelling unbroken single apart behind
  constructor
  · intro filled
    have same : ("<a>" ++ escapedText text ++ "</a>").toList =
        ['<', 'a', '>'] ++ (text.toList.flatMap textSpelling ++ ['<', '/', 'a', '>']) := by
      simp [escapedText]
    obtain ⟨file, parsed, holds⟩ := parseText_encloses markup (by simpa using filled) single
    rw [String.ofList_toList] at holds
    refine ⟨file, ?_, holds⟩
    rw [parse, normal same unbroken_textSpelling (by decide) (by decide) (by decide), same]
    exact parsed
  · have same : ("<a b=\"" ++ escapedAttribute text ++ "\"/>").toList =
        ['<', 'a', ' ', 'b', '=', '"'] ++ (text.toList.flatMap attributeSpelling ++ ['"', '/', '>']) := by
      simp [escapedAttribute]
    obtain ⟨file, parsed, holds⟩ := parseText_attributes markup single
    rw [String.ofList_toList] at holds
    refine ⟨file, ?_, holds⟩
    rw [parse, normal same unbroken_attributeSpelling (by decide) (by decide) (by decide), same]
    exact parsed

/-- What looks like a reference, a carriage return alone and characters of several bytes are read
back. -/
theorem parse_unescapes_references :
    let options : Options := { dialects := [.jsx] }
    let text := "&lt;\r<b> \x7bé\x7d \"&amp\n\u2028;"
    options.hasDialect .jsx = true ∧ ¬LineEnding.Paired text.toList ∧ text ≠ "" ∧
      (∃ file, parse ("<a>" ++ escapedText text ++ "</a>") options = .ok file ∧
        IsProgramOf .script (Encloses "a" text) file.program) ∧
      ∃ file, parse ("<a b=\"" ++ escapedAttribute text ++ "\"/>") options = .ok file ∧
        IsProgramOf .script (Attributes "a" "b" text) file.program := by
  intro options text
  have single : ¬LineEnding.Paired text.toList := by decide
  have filled : text ≠ "" := by decide
  have markup : options.hasDialect .jsx = true := rfl
  have read := parse_unescapes markup single
  exact ⟨markup, single, filled, read.1 filled, read.2⟩

end EcmaSyntax
