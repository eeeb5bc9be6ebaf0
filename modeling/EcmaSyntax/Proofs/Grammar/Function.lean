import EcmaSyntax.Grammar.Function
import EcmaSyntax.Proofs.Grammar.Target
import EcmaSyntax.Proofs.Grammar.Type

namespace EcmaSyntax

namespace Lexer

variable {markup : Bool} {frame : Frame} {kind other : Kind} {contexts : List Context}

/-- Where a number or a string stands, another one may stand. -/
theorem Over.literal (passing : Over markup frame kind contexts)
    (literal : kind = .num ∨ kind = .string) (again : other = .num ∨ other = .string) :
    Over markup frame other contexts := by
  have nests : Nests markup frame kind contexts := by
    rcases literal with rfl | rfl <;> exact passing.nests (by decide) (by decide)
  obtain ⟨previous, block, outer, covers, follows, same⟩ := nests
  rw [nested_literal literal] at same
  refine .inr (.inr ⟨previous, block, outer, covers, ?_, by rw [nested_literal again, same]⟩)
  refine ⟨follows.chunk, follows.tag, follows.slash, ?_, ?_, ?_, ?_⟩
  · intro inside
    have kinds := follows.quoted inside
    rcases literal with rfl | rfl <;> exact absurd kinds (by decide)
  · intro _
    rcases again with rfl | rfl <;> decide
  · rintro rfl
    exact absurd again (by decide)
  · rintro rfl
    exact absurd again (by decide)

end Lexer

namespace Grammar

open Lexer (View Frame)

variable {setting : Setting} {frame : Frame} {view : View} {rules : Rules}

section Strict

/-- Strict code may begin or end where no tag is read. -/
theorem setStrict_leads {strict : Bool} (calm : frame.Calm)
    (allowed : setting.options.startsStrict = true → strict = true) :
    Leads setting (setting.over frame) (lex (Lexer.setStrict strict))
      fun _ => setting.over frame := by
  intro state held
  have outside : state.lexer.kind = .num ∨ state.lexer.kind = .string → setting.jsx = true →
      state.lexer.context ≠ .jsxOpenTag := by
    intro literal _ inTag
    have tagless := held.here.calm calm literal
    change state.lexer.context.isTag = false at tagless
    rw [inTag] at tagless
    exact absurd tagless (by decide)
  rw [meets_lex]
  refine (Lexer.setStrict_meets held.sound outside).and_ok.mono ?_
  rintro _ lexer ⟨⟨restricts, -⟩, step⟩
  refine ⟨held.reached.restrict allowed outside step, ?_, held.filled⟩
  show Lexer.Over setting.jsx frame lexer.kind lexer.contexts
  rw [restricts.contexts]
  rcases restricts.kind_eq_iff with same | ⟨literal, again⟩
  · rw [same]
    exact held.here
  · exact held.here.literal literal again

/-- A step that only takes the code to be strict or not. -/
theorem markStrict_leads {strict : Bool}
    (allowed : setting.options.startsStrict = true → strict = true) :
    Leads setting view
      (modify fun state => { state with lexer := { state.lexer with strict := strict } })
      fun _ => view := fun _ held =>
  held.mark ⟨⟨_, _, _, _, rfl⟩, fun strictly _ => allowed strictly⟩ held.filled

end Strict

section Pattern

/-- Whether a name may stand for a yield is seen without reading tokens. -/
theorem allowsYieldName_leads : Leads setting view allowsYieldName fun _ => view :=
  .look fun _ => .look fun _ => .look fun _ => .pure

/-- The rest of a list keeps to its frame. -/
theorem restElement_leads :
    Leads setting (setting.passable frame) restElement fun _ => setting.over frame :=
  .look fun _ => next_leads.bind fun _ => identifier_leads.bind fun _ => finish_leads

variable (sound : rules.Sound setting) (calm : frame.Calm)

include sound calm

/-- A default keeps to its frame. -/
theorem withDefault_leads {mark : Mark} {left : Node} :
    Leads setting (setting.over frame) (withDefault rules mark left)
      fun _ => setting.over frame :=
  .ifEat (next_here rfl) ((assignment_leads sound calm).bind fun _ => finish_leads) .pure

/-- An element of a pattern keeps to its frame. -/
theorem bindingElement_leads :
    Leads setting (setting.over frame) (bindingElement rules) fun _ => setting.over frame :=
  .look fun _ => (binding_leads sound calm).bind fun _ => withDefault_leads sound calm

/-- The type of a parameter keeps to its frame. -/
theorem withParameterType_leads {param : Node} :
    Leads setting (setting.over frame) (withParameterType rules param)
      fun _ => setting.over frame := by
  refine .look fun _ => .ite (fun _ => ?_) fun _ => .pure
  refine (eat_leads rfl).bind fun isOptional => ?_
  have rest : ∀ marked : Node, Leads setting (setting.over frame)
      (do
        if ← atKind .colon then annotate marked (← typeAnnotation rules)
        else if isOptional then refinish marked
        else return marked) fun _ => setting.over frame := by
    intro marked
    refine .ifAt (.here (( typeAnnotation_leads sound calm).bind fun _ => annotate_leads)) ?_
    exact .ite (fun _ => refinish_leads) fun _ => .pure
  refine .ite (fun _ => ?_) fun _ => .bind .pure fun _ => rest _
  split
  · exact .bind .pure fun _ => rest _
  · exact .look fun _ => .failAt

/-- The last token of a list may lead out of its frame. -/
theorem bindingList_leads {close : Kind} {allowHoles : Bool}
    (closes : Leads setting (Here close (setting.over frame)) next fun _ => view) :
    Leads setting (setting.over frame) (bindingList rules close allowHoles) fun _ => view := by
  refine .loops fun ⟨first, elements⟩ => .ifEat closes .done ?_
  refine .guard (fun _ => expect_leads rfl) ?_
  refine .look fun _ => .ite (fun _ => .more) fun _ => .ifEat closes .done ?_
  refine .ifAt ?_ ?_
  · refine (restElement_leads.enter rfl).bind fun _ => ?_
    exact (withParameterType_leads sound calm).bind fun _ => (Leads.expect closes).bind fun _ =>
      .done
  · refine (bindingElement_leads sound calm).bind fun _ => ?_
    exact (withParameterType_leads sound calm).bind fun _ =>
      (withDefault_leads sound calm).bind fun _ => .more

omit calm in
/-- The parameters stand in a bracket. -/
theorem parameters_leads :
    Leads setting (setting.over frame) (parameters rules) fun _ => setting.over frame :=
  (expect_open (.inl rfl)).bind fun _ =>
    (bindingList_leads sound frame.calm_inner (next_closed (.inl rfl))).bind fun _ => .pure

end Pattern

section Block

/-- A string that spans its text becomes a directive without a fault. -/
theorem toDirective_leads {statement literal : Node} (spans : Spans setting.source literal) :
    Leads setting view (toDirective statement literal) fun _ => view := by
  refine Leads.via view ?_ fun raw => finishAt_made.plain.bind fun _ => finishAt_made.plain
  intro state held
  rw [meets_lex, Lexer.meets_slice]
  obtain ⟨text, sliced⟩ := Source.slice?_isSome spans.start spans.stop spans.ordered
  exact ⟨text, sliced, held⟩

/-- The code around a block is not taken for loose if all code is strict. -/
def Guarded (setting : Setting) (parts : BlockParts) : Prop :=
  setting.options.startsStrict = true → parts.before ≠ some false

/-- A directive is taken into a block, whose octal numbers stay guarded. -/
theorem takeDirective_leads {parts : BlockParts} {statement literal : Node} (calm : frame.Calm)
    (spans : Spans setting.source literal) (guarded : Guarded setting parts) :
    Leads setting (setting.over frame) (takeDirective parts statement literal)
      fun parts => With (Guarded setting parts) (setting.over frame) := by
  refine (toDirective_leads spans).bind fun directive => .ite (fun _ => ?_) fun _ => ?_
  · refine .onStrict fun strict known => (setStrict_leads calm fun _ => rfl).bind fun _ => ?_
    split
    · exact .raise
    · refine .give fun _ _ passing => ⟨fun strictly loose => ?_, passing⟩
      have same : strict = false := Option.some.inj loose
      rw [known strictly] at same
      exact absurd same (by decide)
  · exact .give fun _ _ passing => ⟨guarded, passing⟩

/-- A statement is taken into a block, whose octal numbers stay guarded. -/
theorem takeStatement_leads {parts : BlockParts} {allowDirectives topLevel : Bool}
    (sound : rules.Sound setting) (calm : frame.Calm) (guarded : Guarded setting parts) :
    Leads setting (setting.over frame) (takeStatement rules allowDirectives topLevel parts)
      fun parts => With (Guarded setting parts) (setting.over frame) := by
  refine .look fun state => (statement_directs sound calm).bind fun statement => ?_
  refine .assume fun directs => ?_
  split
  · next literal found =>
      obtain ⟨-, same⟩ := Option.ite_none_right_eq_some.mp found
      exact takeDirective_leads calm (directs literal same) guarded
  · exact .give fun _ _ passing => ⟨guarded, passing⟩

/-- Where the closing token of a block leads is up to what the block stands in. -/
theorem blockParts_meets {allowDirectives topLevel : Bool} {close : Kind} {ends : State → Prop}
    (sound : rules.Sound setting) (calm : frame.Calm)
    (closes : ∀ state, Held setting (Here close (setting.over frame)) state →
      Meets next setting state fun _ state => ends state)
    (loosens : setting.options.startsStrict = false → ∀ state, ends state →
      Meets (lex (Lexer.setStrict false)) setting state fun _ state => ends state)
    {state : State} (held : Held setting (setting.over frame) state) :
    Meets (blockParts rules allowDirectives topLevel close) setting state
      fun _ state => ends state := by
  refine (Leads.loopUntil
    (fun parts => Held setting (With (Guarded setting parts) (setting.over frame)))
    (fun parts state => Guarded setting parts ∧ ends state) ?_ ?_).bind ?_
  · intro parts state held
    obtain ⟨guarded, passing⟩ := held.here
    rw [Meets.bind_iff]
    apply meets_eat
    · intro same
      refine (closes state (held.mono fun _ => ⟨same, passing⟩)).mono ?_
      intro _ state ended
      exact ⟨guarded, ended⟩
    · intro _
      refine (takeStatement_leads sound calm guarded _ (held.mono And.right)).bind ?_
      intro parts state held
      exact held
  · exact held.mono fun passing => ⟨fun _ loose => absurd loose (by decide), passing⟩
  · rintro parts state ⟨guarded, ended⟩
    apply meets_ite
    · intro loose
      rw [beq_iff_eq] at loose
      have allowed : setting.options.startsStrict = false := by
        by_contra strictly
        exact guarded (Bool.not_eq_false _ ▸ strictly) loose
      exact (loosens allowed state ended).bind fun _ _ met => met
    · intro _
      exact ended

/-- The statements of a block stand between its braces. -/
theorem block_quiet {allowDirectives : Bool} (sound : rules.Sound setting) (calm : frame.Calm) :
    Leads setting (setting.over frame) (block rules allowDirectives)
      (Quiet (setting.over frame)) := by
  refine .look fun mark => (expect_open (.inr rfl)).bind fun _ => ?_
  refine .via (setting.over frame) ?_ fun _ => finish_quiet rfl
  intro state held
  refine blockParts_meets sound frame.calm_inner (next_closed (.inr rfl)) ?_ held
  intro loose state held
  exact setStrict_leads calm (fun strictly => by simp [loose] at strictly) _ held

/-- A block keeps to its frame. -/
theorem enclosed_leads {inFunction inGenerator allowDirectives : Bool}
    (sound : rules.Sound setting) (calm : frame.Calm) :
    Leads setting (setting.over frame) (enclosed rules inFunction inGenerator allowDirectives)
      fun _ => setting.over frame :=
  .look fun _ => .change (fun _ => rfl) (fun _ => rfl) <|
    (block_quiet sound calm).plain.bind fun _ => .change (fun _ => rfl) (fun _ => rfl) .pure

end Block

section Function

/-- The name and the parameters of a function are checked without reading tokens. -/
theorem checkHead_leads {head : FunctionHead} {strict : Bool} :
    Leads setting view (checkHead head strict) fun _ => view := by
  refine .look fun _ => ?_
  split
  · exact orRaise_leads.bind fun _ => orRaise_leads.bind fun _ => .pure
  · exact orRaise_leads.bind fun _ => .pure

variable (sound : rules.Sound setting) (calm : frame.Calm)

include sound calm

/-- A function keeps to its frame from its parameters or its arrow on. -/
theorem functionRest_leads {head : FunctionHead} {isArrow : Bool} :
    Leads setting (setting.over frame) (functionRest rules head isArrow)
      fun _ => setting.over frame := by
  refine .look fun _ => .look fun _ => .change (fun _ => rfl) (fun _ => rfl) ?_
  refine .choose (.ite (fun _ => assignment_leads sound calm) fun _ =>
    enclosed_leads sound calm) fun body => .change (fun _ => rfl) (fun _ => rfl) ?_
  refine .ite (fun _ => ?_) fun _ => ?_
  · split
    · exact .guard (fun _ => .raise) (.look fun _ => .guard (fun _ => checkHead_leads) .pure)
    · exact .look fun _ => .guard (fun _ => checkHead_leads) .pure
  · exact .look fun _ => .guard (fun _ => checkHead_leads) .pure

/-- The body of a function keeps to its frame. -/
theorem functionBody_leads {head : FunctionHead} {isArrow : Bool} :
    Leads setting (setting.over frame) (functionBody rules head isArrow)
      fun _ => setting.over frame := by
  refine .ite (fun _ => .bind .pure fun _ => functionRest_leads sound calm) fun _ => ?_
  refine ( typeAnnotation?_leads sound calm).bind fun annot => ?_
  split
  · exact .bind .pure fun _ => functionRest_leads sound calm
  · exact .bind .pure fun _ => functionRest_leads sound calm

/-- A method keeps to its frame. -/
theorem method_leads {head : FunctionHead} {kind : MethodKind} :
    Leads setting (setting.over frame) (method rules head kind) fun _ => setting.over frame :=
  .look fun _ => .change (fun _ => rfl) (fun _ => rfl) <|
    (parameters_leads sound).bind fun _ => (functionBody_leads sound calm).bind fun _ =>
      .change (fun _ => rfl) (fun _ => rfl) .pure

/-- A function keeps to its frame from its word on. -/
theorem functionTail_quiet {mark : Mark} {isAsync isStatement optionalId : Bool} :
    Leads setting (setting.over frame) (functionTail rules mark isAsync isStatement optionalId)
      (Quiet (setting.over frame)) := by
  have rest : ∀ before generator (id : Option Node), Leads setting (setting.over frame)
      (do
        let typeParameters ← genericHead? rules
        let params ← parameters rules
        let function ←
          functionBody rules { id, generator, isAsync, params, typeParameters } false
        modify fun state => { state with inMethod := before }
        finish mark
          (if isStatement then .functionDeclaration function
            else .functionExpression function)) (Quiet (setting.over frame)) := by
    intro before generator id
    refine (genericHead?_leads sound calm).bind fun _ => (parameters_leads sound).bind fun _ => ?_
    refine (functionBody_leads sound calm).bind fun _ =>
      .change (fun _ => rfl) (fun _ => rfl) <| finish_quiet ?_
    split <;> rfl
  refine .look fun state => .change (fun _ => rfl) (fun _ => rfl) <|
    (eat_leads rfl).bind fun generator => ?_
  refine .look fun _ => .look fun _ => .guard (fun _ => .unexpected) ?_
  exact .choose (.ite (fun _ => identifier_leads.map) fun _ => .pure) fun _ => rest _ _ _

/-- An arrow function keeps to its frame from its arrow on. -/
theorem arrowTail_quiet {mark : Mark} {expressions : List Node} {isAsync : Bool}
    {returnType : Option Node} :
    Leads setting (setting.over frame) (arrowTail rules mark expressions isAsync returnType)
      (Quiet (setting.over frame)) :=
  toParameters_leads.bind fun _ => (functionBody_leads sound calm).bind fun _ =>
    finish_quiet rfl

end Function

end Grammar

end EcmaSyntax
