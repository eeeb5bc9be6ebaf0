import EcmaSyntax.Grammar.Function
import EcmaSyntax.Proofs.Yield.Rules

namespace EcmaSyntax

namespace Grammar

variable {law : Law} {enclosures : List Enclosure} {given : Prop} {rules : Rules}
  {setting : Setting} {first state : State}

section Goes

/-- A parse has gone on from one state to another as the law asks. -/
structure Goes (law : Law) (setting : Setting) (first last : State) : Prop where
  extends_ : first.lexer.Extends last.lexer
  traces : first.lexer.Traces setting.toSetting last.lexer
  kept : law.within last.lexer → Waiting law last ∧ last.labels = first.labels

theorem Goes.refl (waiting : Waiting law first) : Goes law setting first first :=
  ⟨.refl _, .refl _, fun _ => ⟨waiting, rfl⟩⟩

theorem Goes.trans {middle last : State} (begins : Goes law setting first middle)
    (ends : Goes law setting middle last) (tracked : first.lexer.Tracked setting.toSetting) :
    Goes law setting first last where
  extends_ := begins.extends_.trans ends.extends_
  traces := begins.traces.trans ends.traces
  kept within := by
    have before := law.earlier ends.traces (begins.traces.tracked tracked) within
    exact ⟨(ends.kept within).1, (ends.kept within).2.trans (begins.kept before).2⟩

theorem YieldsAt.goes {α : Type} {action : Parse α} {good : α → Prop}
    {place : Option (List Enclosure)}
    (yields : YieldsAt (law.under (state.mode setting.flow)) place given action good)
    (speaks : law.speaks setting.toSetting) (tracked : state.lexer.Tracked setting.toSetting)
    (stands : law.within state.lexer → Stands place state)
    (waiting : law.within state.lexer → Waiting law state)
    (known : law.within state.lexer → given) :
    Gives action setting state fun value after =>
      Goes law setting state after ∧ (law.within after.lexer → good value) := by
  intro value after ends
  have grown := yields.steps.extends_ setting state
  rw [ends] at grown
  have traces := yields.steps.traces setting state value after ends
  have met : law.within after.lexer → _ := fun within =>
    have before := law.earlier traces tracked within
    yields.good setting state ⟨speaks, tracked, rfl⟩ value after ends within (stands before)
      (waiting before) (known before)
  exact ⟨⟨grown, traces, fun within => (met within).2⟩, fun within => (met within).1⟩

theorem setStrict_goes {strict : Bool} (waiting : law.within state.lexer → Waiting law state)
    (tracked : state.lexer.Tracked setting.toSetting) :
    Gives (lex (Lexer.setStrict strict)) setting state fun _ after =>
      Goes law setting state after := by
  intro value after ends
  have advances := setStrict_advances strict
  have grown := advances.extends_ setting state
  have traces := advances.traces setting state value after ends
  have ⟨_, decorators, labels⟩ := setStrict_keeps value after ends
  rw [ends] at grown
  refine ⟨grown, traces, fun within => ⟨?_, labels⟩⟩
  rw [Waiting, decorators]
  exact waiting (law.earlier traces tracked within)

end Goes

section Directive

variable {parts : BlockParts} {statement literal directive : Node} {before now : Flags}

instance : Plain (toDirective statement literal) :=
  inferInstanceAs (Plain (lex (Lexer.slice _ _) >>= _))

/-- A directive is lawful in code of any mode if it ends as a statement has to. -/
theorem toDirective_yields (ends : given → law.layout.ends statement.stop) :
    Yields law given (toDirective statement literal) fun directive =>
      ∀ mode, directive.Lawful (law.under mode) := by
  refine .step fun raw => finishAt_formed.bind fun content =>
    (finishAt_formed.and finishAt_stops).refine ?_
  rintro directive known ⟨made, stop⟩ mode
  have inner : content.Lawful (law.under mode) :=
    .ofPlain (known.2.1 ▸ rfl) (known.2.1 ▸ trivial)
  refine .ofUniform (made.1 ▸ rfl) (made.1 ▸ Form.permitted_of_isFree rfl) ?_
    (made.1 ▸ inner.congr rfl rfl rfl)
  exact ⟨.ofEnds (made.1 ▸ rfl) (stop ▸ ends known.1) (made.1 ▸ nofun), made.1 ▸ trivial,
    .ofUnspelled (made.1 ▸ rfl)⟩

/-- A statement that is a string is an expression. -/
theorem isExpression_of_string {condition : Bool}
    (found : (if condition then stringStatement? statement else none) = some literal) :
    ∃ expression, statement.form = .expressionStatement expression := by
  cases condition with
  | false => cases found
  | true =>
      rw [if_pos rfl, stringStatement?] at found
      split at found
      · next expression same => exact ⟨expression, same⟩
      · cases found

/-- What the directives of a block have made of the code after them, and what the code is to be
after the block. -/
structure BlockParts.Marks (parts : BlockParts) (before now : Flags) : Prop where
  flags : now = { before with strict := before.strict || parts.directives.any isUseStrict }
  before : parts.before =
    if parts.directives.any isUseStrict then some before.strict else none

theorem BlockParts.Marks.mode (marks : parts.Marks first.flags state.flags)
    (under : first.Under law setting) :
    state.mode setting.flow = law.mode.after parts.directives := by
  rw [← under.mode]
  exact congrArg (Flags.mode · _) marks.flags

/-- The first directive that makes the code strict. -/
theorem BlockParts.Marks.strictly (marks : parts.Marks before now)
    (declares : isUseStrict directive = true) (fresh : parts.before.isNone = true) :
    BlockParts.Marks
      { parts with directives := directive :: parts.directives, before := some now.strict }
      before { now with strict := true } := by
  have sloppy : parts.directives.any isUseStrict = false := by simpa [marks.before] using fresh
  refine ⟨?_, ?_⟩
  · rw [marks.flags]
    simp [declares]
  · rw [marks.flags]
    simp [declares, sloppy]

/-- Any other directive. -/
theorem BlockParts.Marks.kept (marks : parts.Marks before now)
    (other : ¬(isUseStrict directive && parts.before.isNone) = true) :
    BlockParts.Marks { parts with directives := directive :: parts.directives } before now := by
  have same : (directive :: parts.directives).any isUseStrict =
      parts.directives.any isUseStrict := by
    cases known : parts.directives.any isUseStrict with
    | true => simp [known]
    | false => simpa [marks.before, known] using other
  exact ⟨by rw [same]; exact marks.flags, by rw [same]; exact marks.before⟩

/-- After a block the code is what it was before. -/
theorem BlockParts.Marks.ended (marks : parts.Marks before now) :
    if parts.before == some false then { now with strict := false } = before
    else now = before := by
  rw [marks.flags, marks.before]
  obtain ⟨⟨strict, inType⟩, inMethod, inFunction, inGenerator, inAsync, depth⟩ := before
  cases parts.directives.any isUseStrict <;> cases strict <;> simp

theorem takeDirective_marks (marks : parts.Marks before state.flags) :
    Gives (takeDirective parts statement literal) setting state fun parts after =>
      parts.Marks before after.flags := by
  rw [takeDirective, Gives.bind_iff]
  refine (Steps.plain.flags setting state).mono fun directive middle flags => ?_
  rw [← flags] at marks
  refine gives_ite (fun declares => ?_) fun other => gives_pure.mpr (marks.kept other)
  simp only [isStrict, Gives.bind_iff, gives_get, gives_pure]
  refine setStrict_keeps.mono fun _ last kept => ?_
  split
  · exact fun _ _ absent => by cases absent
  · obtain ⟨declares, fresh⟩ := Bool.and_eq_true_iff.mp declares
    exact gives_pure.mpr (kept.1 ▸ marks.strictly declares fresh)

theorem takeDirective_advances : Advances (takeDirective parts statement literal) := by
  refine .step fun directive => .ite ?_ .plain
  refine .step fun _ => (setStrict_advances true).bind fun _ => ?_
  split <;> exact .plain

/-- What has been read of a block follows the law. -/
structure BlockParts.Follows (law : Law) (enclosures : List Enclosure) (parts : BlockParts) :
    Prop where
  directives : Every (fun node => ∀ mode, node.Lawful (law.under mode)) parts.directives
  statements : Every (Node.Follows (law.under (law.mode.after parts.directives)) enclosures)
    parts.statements
  fresh : parts.past = false → parts.statements = []

/-- A parse has come from where a block begins to a state, and what it has read of the block
follows the law. -/
structure BlockParts.Reaches (law : Law) (setting : Setting) (enclosures : List Enclosure)
    (first : State) (parts : BlockParts) (now : State) : Prop where
  goes : Goes law setting first now
  follows : law.within now.lexer → parts.Follows law enclosures

theorem takeDirective_reaches (under : first.Under law setting)
    (reached : parts.Reaches law setting enclosures first state) (fresh : parts.past = false)
    (ends : law.within state.lexer → law.layout.ends statement.stop) :
    Gives (takeDirective parts statement literal) setting state fun parts after =>
      parts.Reaches law setting enclosures first after := by
  have tracked := reached.goes.traces.tracked under.tracked
  rw [takeDirective, Gives.bind_iff]
  refine ((toDirective_yields id).goes under.speaks tracked (fun _ => .anywhere)
    (fun within => (reached.goes.kept within).1) ends).mono ?_
  rintro directive middle ⟨goes, lawful⟩
  have gone : Goes law setting first middle := reached.goes.trans goes under.tracked
  have follows : ∀ before octal, law.within middle.lexer → BlockParts.Follows law enclosures
      { parts with directives := directive :: parts.directives, before, octal } := by
    intro before octal within
    have known := reached.follows (law.earlier goes.traces tracked within)
    exact ⟨.cons (lawful within) known.directives, by simp [known.fresh fresh, Every],
      known.fresh⟩
  refine gives_ite (fun _ => ?_) fun _ => gives_pure.mpr ⟨gone, follows _ _⟩
  simp only [isStrict, Gives.bind_iff, gives_get, gives_pure]
  refine (setStrict_goes (fun within => (gone.kept within).1)
    (gone.traces.tracked under.tracked)).mono fun _ last ends => ?_
  split
  · exact fun _ _ absent => by cases absent
  · exact gives_pure.mpr ⟨gone.trans ends under.tracked, fun within =>
      follows _ _ (law.earlier ends.traces (gone.traces.tracked under.tracked) within)⟩

end Directive

variable (lawful : rules.Lawful law)

include lawful

section Statement

variable {allowDirectives topLevel : Bool} {parts : BlockParts} {before : Flags}

theorem takeStatement_marks (marks : parts.Marks before state.flags) :
    Gives (takeStatement rules allowDirectives topLevel parts) setting state fun parts after =>
      parts.Marks before after.flags := by
  rw [takeStatement, Gives.bind_iff, gives_get, Gives.bind_iff]
  refine ((lawful.steps _).flags setting state).mono fun statement middle flags => ?_
  rw [← flags] at marks
  split
  · exact takeDirective_marks ⟨marks.flags, marks.before⟩
  · exact gives_pure.mpr ⟨marks.flags, marks.before⟩

theorem takeStatement_advances :
    Advances (takeStatement rules allowDirectives topLevel parts) := by
  refine .step fun _ => (lawful.steps _).toAdvances.bind fun statement => ?_
  split
  · exact takeDirective_advances
  · exact .plain

/-- A statement follows the law in the place of the block, and what has been taken before it stays
lawful. -/
theorem takeStatement_reaches (under : first.Under law setting)
    (stands : Stands (some enclosures) first) (marks : parts.Marks first.flags state.flags)
    (reached : parts.Reaches law setting enclosures first state) :
    Gives (takeStatement rules allowDirectives topLevel parts) setting state fun parts after =>
      parts.Reaches law setting enclosures first after := by
  have tracked := reached.goes.traces.tracked under.tracked
  have standing : law.within state.lexer → Stands (some enclosures) state := fun within =>
    stands.later reached.goes.extends_ (reached.goes.kept within).2
  rw [takeStatement, Gives.bind_iff, gives_get, Gives.bind_iff]
  refine ((statement_yields (lawful.under (state.mode setting.flow))).goes under.speaks tracked
    standing (fun within => (reached.goes.kept within).1) fun _ => trivial).mono ?_
  rintro statement middle ⟨goes, follows⟩
  have gone : Goes law setting first middle := reached.goes.trans goes under.tracked
  have earlier : law.within middle.lexer → parts.Follows law enclosures := fun within =>
    reached.follows (law.earlier goes.traces tracked within)
  split
  · next literal found =>
      have fresh : parts.past = false := by
        by_contra past
        simp [past] at found
      obtain ⟨expression, same⟩ := isExpression_of_string found
      exact takeDirective_reaches under ⟨gone, fun within =>
        ⟨(earlier within).directives, (earlier within).statements, (earlier within).fresh⟩⟩ fresh
        fun within => (law.lined (follows within)).ends (same ▸ rfl)
  · refine gives_pure.mpr ⟨gone, fun within => ?_⟩
    rw [marks.mode under] at follows
    exact ⟨(earlier within).directives, .cons (follows within) (earlier within).statements, nofun⟩

end Statement

section Parts

variable {allowDirectives topLevel : Bool} {close : Kind}

theorem blockParts_steps : Steps (blockParts rules allowDirectives topLevel close) where
  toAdvances := by
    refine .bind (.loop fun parts => .step fun _ => .ite .plain ?_) fun parts => .ite ?_ .plain
    · exact (takeStatement_advances lawful).bind fun _ => .plain
    · exact (setStrict_advances false).bind fun _ => .plain
  flags setting state := by
    rw [blockParts, Gives.bind_iff]
    refine (gives_loop (fun parts now => parts.Marks state.flags now.flags)
      (fun parts now => parts.Marks state.flags now.flags) ?_ ⟨by simp, rfl⟩).mono ?_
    · intro parts now marks
      rw [Gives.bind_iff]
      refine (Steps.plain.flags setting now).mono fun closes after same => ?_
      rw [← same] at marks
      refine gives_ite (fun _ => gives_pure.mpr marks) fun _ => ?_
      rw [Gives.bind_iff]
      exact (takeStatement_marks lawful marks).mono fun _ _ marks => gives_pure.mpr marks
    · intro parts now marks
      have ended := marks.ended
      split at ended
      · next closes =>
          rw [if_pos closes, Gives.bind_iff]
          exact setStrict_keeps.mono fun _ _ kept => gives_pure.mpr (kept.1.trans ended)
      · next open_ =>
          rw [if_neg open_]
          exact gives_pure.mpr ended

/-- All statements of a block follow the law in its place. -/
theorem blockParts_reaches (under : state.Under law setting)
    (stands : Stands (some enclosures) state) (waiting : Waiting law state) :
    Gives (blockParts rules allowDirectives topLevel close) setting state fun parts after =>
      Goes law setting state after ∧ (law.within after.lexer →
        AllLawful law parts.1 ∧
          Every (Node.Follows (law.under (law.mode.after parts.1)) enclosures) parts.2) := by
  rw [blockParts, Gives.bind_iff]
  refine (gives_loop
    (fun parts now => parts.Marks state.flags now.flags ∧
      parts.Reaches law setting enclosures state now)
    (fun parts now => parts.Reaches law setting enclosures state now) ?_
    ⟨⟨by simp, rfl⟩, .refl waiting, fun _ => ⟨.nil, .nil, fun _ => rfl⟩⟩).mono ?_
  · rintro parts now ⟨marks, reached⟩
    have tracked := reached.goes.traces.tracked under.tracked
    rw [Gives.bind_iff]
    intro closes after ends
    have same := Steps.plain.flags setting now closes after ends
    obtain ⟨goes, -⟩ := YieldsAt.plain.goes under.speaks tracked (fun _ => .anywhere)
      (fun within => (reached.goes.kept within).1) (fun _ => trivial) closes after ends
    have still : parts.Reaches law setting enclosures state after :=
      ⟨reached.goes.trans goes under.tracked, fun within =>
        reached.follows (law.earlier goes.traces tracked within)⟩
    rw [← same] at marks
    refine gives_ite (fun _ => gives_pure.mpr still) fun _ => ?_
    rw [Gives.bind_iff]
    intro next last ends
    exact gives_pure.mpr ⟨takeStatement_marks lawful marks next last ends,
      takeStatement_reaches lawful under stands marks still next last ends⟩
  · rintro parts now ⟨goes, follows⟩
    have good : law.within now.lexer → AllLawful law parts.directives.reverse ∧
        Every (Node.Follows (law.under (law.mode.after parts.directives.reverse)) enclosures)
          parts.statements.reverse := fun within => by
      have known := follows within
      have same : law.mode.after parts.directives.reverse = law.mode.after parts.directives := by
        simp [Mode.after]
      rw [same]
      exact ⟨.reverse fun node inside => known.directives node inside law.mode,
        known.statements.reverse⟩
    refine gives_ite (fun _ => ?_) fun _ => gives_pure.mpr ⟨goes, good⟩
    rw [Gives.bind_iff]
    have tracked := goes.traces.tracked under.tracked
    refine (setStrict_goes (fun within => (goes.kept within).1) tracked).mono fun _ _ ends => ?_
    exact gives_pure.mpr ⟨goes.trans ends under.tracked, fun within =>
      good (law.earlier ends.traces tracked within)⟩

/-- The directives of a block are lawful, and its statements are in the mode after them. -/
theorem blockParts_yields : YieldsIn law enclosures given
    (blockParts rules allowDirectives topLevel close) fun parts =>
      AllLawful law parts.1 ∧
        Every (Node.Follows (law.under (law.mode.after parts.1)) enclosures) parts.2 where
  steps := blockParts_steps lawful
  good _ _ under value after ends within stands waiting _ :=
    have reached := blockParts_reaches lawful under stands waiting value after ends
    ⟨reached.2 within, reached.1.kept within⟩

end Parts

/-- A block follows the law in its place. -/
theorem block_yields {allowDirectives : Bool} :
    YieldsIn law enclosures given (block rules allowDirectives) (Node.Follows law enclosures) :=
  .step fun _ => .step fun _ => (blockParts_yields lawful).bind fun _ =>
    .ofAnywhere (finish_made.refine fun _ known made =>
      .ofBlock made.1 (fun node inside => known.2.1 node inside enclosures) known.2.2)

omit lawful in
theorem enclosed_eq (rules : Rules) (inFunction inGenerator allowDirectives : Bool) :
    enclosed rules inFunction inGenerator allowDirectives = within
      (fun state =>
        { state with inFunction := inFunction, inGenerator := inGenerator, labels := [] })
      (fun before state => { state with
        inFunction := before.inFunction
        inGenerator := before.inGenerator
        labels := before.labels })
      (block rules allowDirectives) := rfl

omit lawful in
/-- The body of a function is a scope of its own. -/
theorem Scope.enclosed {inFunction inGenerator : Bool} : Scope
    (fun state => { state with inFunction := inFunction, inGenerator := inGenerator, labels := [] })
    (fun before state => { state with
      inFunction := before.inFunction
      inGenerator := before.inGenerator
      labels := before.labels }) where
  entered _ := ⟨⟨_, _, rfl⟩, rfl, rfl⟩
  left _ _ := ⟨⟨_, _, rfl⟩, rfl, rfl⟩
  flags before after same := by
    rw [State.flags_eq_iff] at same ⊢
    simp_all
  decorators _ := rfl
  decorated _ _ := rfl
  labels _ _ _ := rfl

/-- Nothing stands around a block that no label reaches into. -/
theorem enclosed_yields {inFunction inGenerator allowDirectives : Bool} :
    Yields law given (enclosed rules inFunction inGenerator allowDirectives)
      (Node.Enclosed (law.under { law.mode with inGenerator })) := by
  rw [enclosed_eq]
  refine .within .enclosed (fun state _ same => ?_) (fun _ _ => (Settled.unlabeled rfl).stands)
    (block_yields (lawful.under _))
  rw [← same]
  rfl

/-- A block lies where it is read. -/
theorem enclosed_bounded {first : Nat} {known : List Node}
    {inFunction inGenerator allowDirectives : Bool} :
    Bounded first given known (enclosed rules inFunction inGenerator allowDirectives) ([·]) := by
  have block : YieldsIn law [] False (block rules allowDirectives) (Node.Follows law []) :=
    block_yields lawful
  rw [enclosed_eq]
  refine .within .enclosed (.marked block.advances fun mark => .last fun _ => .last fun parts => ?_)
  cases parts
  exact .finish

end Grammar

end EcmaSyntax
