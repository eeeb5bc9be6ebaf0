import EcmaSyntax.Grammar.Block
import EcmaSyntax.Proofs.Grammar.Attachment
import EcmaSyntax.Proofs.Grammar.Token

namespace EcmaSyntax

/-- A form that is neither a string nor a statement that may be one. -/
def Form.isQuiet : Form → Bool
  | .stringLiteral _ => false
  | .expressionStatement _ => false
  | _ => true

namespace Grammar

open Lexer (View Frame)

/-- The text of a node can be taken from the source. -/
structure Spans (source : Source) (node : Node) : Prop where
  start : source.isBoundary node.start = true
  stop : source.isBoundary node.stop = true
  ordered : node.start ≤ node.stop

/-- A string that is not in parentheses can be quoted. -/
def Spelled (source : Source) (node : Node) : Prop :=
  ∀ text, node.form = .stringLiteral text → node.isParenthesized = false → Spans source node

/-- A statement that is a string can be quoted. -/
def Directs (source : Source) (statement : Node) : Prop :=
  ∀ literal, stringStatement? statement = some literal → Spans source literal

/-- A node is neither a string nor a statement that may be one. -/
def Quiet (view : View) : Node → View := fun node => With (node.form.isQuiet = true) view

variable {setting : Setting} {frame : Frame} {view before : View} {node : Node}

/-- A node is an expression. -/
def Setting.spelled (setting : Setting) (view : View) : Node → View := fun node =>
  With (Spelled setting.source node) view

/-- A node is a statement. -/
def Setting.directs (setting : Setting) (view : View) : Node → View := fun node =>
  With (Directs setting.source node) view

/-- A quiet form holds no string that would have to be quoted. -/
theorem spelled_of_quiet {source : Source} (quiet : node.form.isQuiet = true) :
    Spelled source node := by
  intro text string
  rw [string] at quiet
  exact absurd quiet (by simp [Form.isQuiet])

/-- A quiet statement is no string, so that it directs nothing. -/
theorem directs_of_quiet {source : Source} (quiet : node.form.isQuiet = true) :
    Directs source node := by
  intro literal same
  unfold stringStatement? at same
  split at same
  · next inner statement =>
      rw [statement] at quiet
      exact absurd quiet (by simp [Form.isQuiet])
  · simp at same

/-- A statement that is an expression can be quoted if the expression can. -/
theorem Spelled.directs {source : Source} {statement inner : Node} (spelled : Spelled source inner)
    (form : statement.form = .expressionStatement inner) : Directs source statement := by
  intro literal same
  unfold stringStatement? at same
  rw [form] at same
  simp only at same
  split at same
  · next text string =>
      split at same
      · simp at same
      · next free =>
          rw [← Option.some.inj same]
          exact spelled text string (Bool.not_eq_true _ ▸ free)
  · simp at same

/-- A string in parentheses need not be quoted. -/
theorem Spelled.parenthesized {source : Source} (grouped : node.isParenthesized = true) :
    Spelled source node := fun _ _ free => absurd grouped (by simp [free])

section Quiet

variable {action : Parse Node}

theorem Leads.spelled (leads : Leads setting before action (Quiet view)) :
    Leads setting before action (setting.spelled view) :=
  leads.strengthen fun _ _ _ met => ⟨spelled_of_quiet met.1, met.2⟩

theorem Leads.directs (leads : Leads setting before action (Quiet view)) :
    Leads setting before action (setting.directs view) :=
  leads.strengthen fun _ _ _ met => ⟨directs_of_quiet met.1, met.2⟩

/-- The node does not matter. -/
theorem Leads.plain {α : Type} {action : Parse α} {fact : α → Prop}
    (leads : Leads setting before action fun value => With (fact value) view) :
    Leads setting before action fun _ => view :=
  leads.strengthen fun _ _ _ met => met.2

end Quiet

section Finish

variable {mark : Mark} {form : Form}

@[simp] theorem meets_mark {state : State} {post : Mark → State → Prop} :
    Meets Grammar.mark setting state post ↔
      post ⟨state.lexer.start, state.lexer.startLoc⟩ state := Iff.rfl

/-- An identity is given without reading tokens. -/
theorem freshId_leads : Leads setting view freshId fun _ => view :=
  .look fun _ => .change (fun _ => rfl) (fun _ => rfl) .pure

/-- A node is finished with its form and its place. -/
theorem finishAt_made {stop : Nat} {stopLoc : Position} :
    Leads setting view (finishAt mark form stop stopLoc) fun node =>
      With (node.form = form ∧ node.start = mark.pos ∧ node.stop = stop) view :=
  freshId_leads.bind fun _ =>
    .guard (fun _ => attach_leads) (.give fun _ _ here => ⟨⟨rfl, rfl, rfl⟩, here⟩)

/-- A node has the form that it is finished with. -/
theorem finish_form :
    Leads setting view (finish mark form) fun node => With (node.form = form) view :=
  .look fun _ => finishAt_made.strengthen fun _ _ _ met => ⟨met.1.1, met.2⟩

/-- A node of a quiet form is quiet. -/
theorem finish_quiet (quiet : form.isQuiet = true) :
    Leads setting view (finish mark form) (Quiet view) :=
  finish_form.strengthen fun _ _ _ met => ⟨met.1 ▸ quiet, met.2⟩

/-- A node is finished without reading tokens. -/
theorem finish_leads : Leads setting view (finish mark form) fun _ => view := finish_form.plain

/-- A node can be finished wherever comments can be given to it. -/
theorem finish_moved {state : State} (filled : state.attachments.Filled) :
    Meets (finish mark form) setting state fun _ after => state.Moved after := by
  simp only [finish, finishAt, freshId, Meets.bind_iff, meets_get, meets_modify, meets_pure]
  have named : state.Moved { state with identities := state.identities.advance } := ⟨⟨_, _, rfl⟩, filled⟩
  apply meets_ite
  · intro _
    rw [Meets.bind_iff]
    exact (attach_meets named.filled).mono fun _ _ moved => named.trans moved
  · intro _
    exact named

/-- A node is finished once more without reading tokens. -/
theorem refinish_leads : Leads setting view (refinish node) fun _ => view :=
  .look fun _ => attach_leads.bind fun _ => .pure

/-- A node that is repeated keeps its form and its place. -/
theorem duplicate_leads : Leads setting view (duplicate node) fun _ => view := by
  refine freshId_leads.bind fun id => ?_
  refine .via view ?_ fun _ => .pure
  intro state held
  rw [meets_modify]
  split
  · next attached found =>
      exact held.mark ⟨⟨_, _, _, _, rfl⟩, fun _ strict => strict⟩
        (held.filled.insert (held.filled _ _ found))
  · exact held

end Finish

section Words

variable {form : Form}

/-- A name is passed and becomes a node. -/
theorem identifierTail_leads {mark : Mark} {liberal : Bool} {name : String} {current : Kind}
    (passable : current.isPassable = true) :
    Leads setting (Here current (setting.over frame))
      (do
        if !liberal && name == "await" && (← get).inAsync then raise mark.pos .awaitInAsync
        next
        finish mark (.identifier name none false))
      (Quiet (setting.over frame)) :=
  .look fun _ => .guard (fun _ => .raise) ((next_here passable).bind fun _ => finish_quiet rfl)

/-- An identifier is a name or a keyword. -/
theorem identifier_quiet {liberal : Bool} :
    Leads setting (setting.over frame) (identifier liberal) (Quiet (setting.over frame)) := by
  refine .look fun mark => .onKind fun current => .look fun name => ?_
  refine .ite (fun isName => ?_) fun other => ?_
  · rw [beq_iff_eq] at isName
    subst isName
    exact .look fun _ => .guard (fun _ => .raise) (.bind .pure fun _ => identifierTail_leads rfl)
  · split
    · next keyword known =>
        refine .ite (fun _ => .bind .pure fun _ => ?_) fun _ => .fail
        exact identifierTail_leads (Kind.isPassable_of_keyword? known)
    · exact .fail

/-- A name is read within its frame. -/
theorem identifier_leads {liberal : Bool} :
    Leads setting (setting.over frame) (identifier liberal) fun _ => setting.over frame :=
  identifier_quiet.plain

/-- A literal other than a string is quiet. -/
theorem literal_quiet {rawValue : Option RawValue} (quiet : form.isQuiet = true) :
    Leads setting (setting.passable frame) (literal form rawValue)
      (Quiet (setting.over frame)) := by
  refine .look fun mark => rawText_leads.bind fun raw => next_leads.bind fun _ => ?_
  refine (finish_quiet quiet).bind fun node => .give fun _ _ met => ?_
  exact met

/-- A literal for a string spans the string. -/
theorem stringLiteral_spelled :
    Leads setting (Here .string (setting.over frame)) stringLiteral
      (setting.spelled (setting.over frame)) := by
  intro state held
  have sound := held.sound
  obtain ⟨raw, sliced⟩ := Source.slice?_isSome sound.boundary sound.closing sound.within
  simp only [stringLiteral, literal, rawText, Meets.bind_iff, meets_valueText, meets_mark,
    meets_get, meets_lex, Lexer.meets_slice]
  refine ⟨raw, sliced, ?_⟩
  rw [meets_pure]
  have goesOn : state.lexer.kind ≠ .eof := by
    rw [held.here.1]
    decide
  rw [Grammar.next, meets_lex]
  refine (Lexer.next_meets sound).and_ok.mono ?_
  rintro _ lexer ⟨⟨advances, -⟩, step⟩
  have passed : Held setting (setting.over frame) { state with lexer := lexer } :=
    ⟨held.reached.next goesOn step,
      over_of_passable (Setting.passable_of_here rfl _ _ held.here) advances, held.filled⟩
  simp only [finish, Meets.bind_iff, meets_get]
  refine (finishAt_made _ passed).mono ?_
  intro node after made
  obtain ⟨⟨form, start, stop⟩, passing⟩ := made.here
  refine ⟨made.reached, ⟨?_, passing⟩, made.filled⟩
  intro text same free
  refine ⟨?_, ?_, ?_⟩
  · show setting.source.isBoundary node.start = true
    rw [start]
    exact sound.boundary
  · show setting.source.isBoundary node.stop = true
    rw [stop, advances.lastStop]
    exact sound.closing
  · show node.start ≤ node.stop
    rw [start, stop, advances.lastStop]
    exact sound.within

/-- A number is quiet. -/
theorem numberLiteral_quiet :
    Leads setting (Here .num (setting.over frame)) numberLiteral
      (Quiet (setting.over frame)) :=
  .look fun _ => (literal_quiet rfl).enter rfl

/-- The name of a property is read within its frame. -/
theorem propertyLabel_leads :
    Leads setting (setting.over frame) propertyLabel fun _ => setting.over frame := by
  refine .onKind fun current => ?_
  split
  · exact numberLiteral_quiet.plain
  · exact stringLiteral_spelled.plain
  · exact identifier_leads.here

end Words

end Grammar

end EcmaSyntax
