import EcmaSyntax.Proofs.Yield.Label

namespace EcmaSyntax

namespace Grammar

variable {law : Law} {enclosures : List Enclosure} {given : Prop} {rules : Rules} {mark : Mark}
  {node : Node} (lawful : rules.Lawful law)

section Loop

include lawful

/-- A loop that counts follows the law in its place. -/
theorem countingLoop_yields {init : Option Node} (begins : given → Maybe (Node.Heads law) init) :
    YieldsIn law (.loop :: enclosures) given (countingLoop rules mark init)
      (Node.Follows law enclosures) :=
  .step fun _ => .read (expressionBefore_yields lawful) fun _ => .step fun _ =>
    .read (expressionBefore_yields lawful) fun _ => .step fun _ =>
      (statement_yields lawful).bind fun _ => .ofAnywhere (finish_loop rfl
        (fun _ => Form.permitted_of_isFree rfl) rfl trivial fun ⟨⟨⟨known, test⟩, update⟩, body⟩ =>
          Form.headed_for.mpr ⟨fun node inside => begins known node inside _, fun node inside => test node inside _,
            fun node inside => update node inside _, body⟩)

/-- A loop through something follows the law in its place. -/
theorem throughLoop_yields
    (target : given → node.Heads law ∧ (law.untyped → node.isHead = true)) :
    YieldsIn law (.loop :: enclosures) given (throughLoop rules mark node)
      (Node.Follows law enclosures) := by
  refine .step fun keys => .step fun _ => .read (expression_yields lawful) fun right =>
    .step fun _ => (statement_yields lawful).bind fun body => .ofAnywhere ?_
  split
  · exact finish_loop rfl (fun known => Form.permitted_of_assigns rfl (target known.1.1).2) rfl
      trivial fun known => Form.headed_forIn.mpr ⟨(target known.1.1).1 _, known.1.2 _, known.2⟩
  · exact finish_loop rfl (fun known => Form.permitted_of_assigns rfl (target known.1.1).2) rfl
      trivial fun known => Form.headed_forOf.mpr ⟨(target known.1.1).1 _, known.1.2 _, known.2⟩

/-- The declaration in the head of a loop needs no semicolon of its own. -/
theorem declaringLoop_yields {kind : VariableKind} :
    YieldsIn law (.loop :: enclosures) given (declaringLoop rules mark kind)
      (Node.Follows law enclosures) :=
  .step fun _ => .step fun _ => .read (commaSeparated_yields (declarator_yields lawful)) fun _ =>
    .read (finish_made.refine fun _ known made => And.intro
      (Node.Heads.ofDeclaration made.1 known.2) (Node.isHead_of_declaration made.1)) fun _ =>
        .step fun _ => .ite (fun _ => throughLoop_yields lawful fun known => known.2.imp_right
          fun head _ => head) fun _ => countingLoop_yields lawful fun known => .some known.2.1

/-- A loop whose head begins with an expression follows the law in its place. -/
theorem expressionLoop_yields (expressing : rules.Expressing) :
    YieldsIn law (.loop :: enclosures) given (expressionLoop rules mark)
      (Node.Follows law enclosures) := by
  refine .read (YieldsAt.also (coverExpression_expresses expressing) (coverExpression_yields lawful))
    fun init => .step fun _ => .ite (fun _ => ?_) fun _ => ?_
  · refine .read (((toTarget_yields false init.value).ofGiven fun known =>
      known.2.1.covers).learnUntyped
      fun known _ _ => toTarget_targets known.2.2) fun _ => .step fun _ =>
        throughLoop_yields lawful fun known => ⟨known.2.1.heads, fun untyped => ?_⟩
    exact Node.isHead_of_target ((known.2.2 untyped).imp_right And.left)
  · exact .read (settle_yields fun known => known.2.1.settled) fun _ =>
      countingLoop_yields lawful fun known => .some (Node.Lawful.heads known.2)

omit lawful in
/-- A loop that counts is a loop. -/
theorem countingLoop_loops {init : Option Node} :
    Ends (countingLoop rules mark init) fun node => node.isLoop = true :=
  .last fun _ => .last fun _ => .last fun _ => .last fun _ => .last fun _ => .last fun _ =>
    Ends.finish.mono fun _ same => Node.isLoop_of_form (same ▸ rfl)

omit lawful in
/-- A loop through something is a loop. -/
theorem throughLoop_loops : Ends (throughLoop rules mark node) fun node => node.isLoop = true := by
  refine .last fun _ => .last fun _ => .last fun _ => .last fun _ => .last fun _ =>
    Ends.finish.mono fun _ same => Node.isLoop_of_form (same ▸ ?_)
  split <;> rfl

omit lawful in
/-- Whatever its head, a loop is one. -/
theorem forStatement_loops : Ends (forStatement rules mark) fun node => node.isLoop = true := by
  refine .last fun _ => .last fun _ => Ends.bind ?_ fun _ loops => .last fun _ => .give loops
  refine .last fun _ => .last fun kind => .ite countingLoop_loops ?_
  split
  · exact .last fun _ => .last fun _ => .last fun _ => .last fun _ => .last fun _ =>
      .ite throughLoop_loops countingLoop_loops
  · exact .last fun _ => .last fun _ => .ite
      (.last fun _ => .last fun _ => throughLoop_loops) (.last fun _ => countingLoop_loops)

omit lawful in
theorem doWhileStatement_loops :
    Ends (doWhileStatement rules mark) fun node => node.isLoop = true :=
  .last fun _ => .last fun _ => .last fun _ => .last fun _ => .last fun _ =>
    Ends.finish.mono fun _ same => Node.isLoop_of_form (same ▸ rfl)

omit lawful in
theorem whileStatement_loops : Ends (whileStatement rules mark) fun node => node.isLoop = true :=
  .last fun _ => .last fun _ => .last fun _ =>
    Ends.finish.mono fun _ same => Node.isLoop_of_form (same ▸ rfl)

/-- A loop with a head begins behind its labels. -/
theorem forStatement_begins (expressing : rules.Expressing) :
    Begins law (fun lexer => lexer.kind = .kwFor) (forStatement rules mark) := by
  refine .enterLoop rfl (next_passes (by decide)) forStatement_loops fun _ enclosures => ?_
  refine withinLoop_yields (.step fun _ => .step fun kind => .ite
    (fun _ => countingLoop_yields lawful fun _ => .none) fun _ => ?_)
  split
  · exact declaringLoop_yields lawful
  · exact expressionLoop_yields lawful expressing

/-- A loop whose condition comes last begins behind its labels. -/
theorem doWhileStatement_begins :
    Begins law (fun lexer => lexer.kind = .kwDo) (doWhileStatement rules mark) :=
  .enterLoop rfl (next_passes (by decide)) doWhileStatement_loops fun _ _ =>
    (withinLoop_yields (statement_yields lawful)).bind fun _ => .step fun _ =>
      .read (parenExpression_yields lawful) fun _ => .step fun _ =>
        .ofAnywhere (finish_stated rfl rfl rfl rfl (fun _ => trivial) fun known =>
          ⟨known.1.2, known.2 _⟩)

/-- A loop with a condition begins behind its labels. -/
theorem whileStatement_begins :
    Begins law (fun lexer => lexer.kind = .kwWhile) (whileStatement rules mark) :=
  .enterLoop rfl (next_passes (by decide)) whileStatement_loops fun _ _ =>
    .read (parenExpression_yields lawful) fun _ =>
      (withinLoop_yields (statement_yields lawful)).bind fun _ =>
        .ofAnywhere (finish_stated rfl rfl rfl rfl (fun _ => trivial) fun known =>
          ⟨known.1.2 _, known.2⟩)

end Loop

section Choice

include lawful

/-- A choice begins behind its labels. -/
theorem ifStatement_begins :
    Begins law (fun lexer => lexer.kind = .kwIf) (ifStatement rules mark) := by
  refine .enterPlain rfl (next_passes (by decide)) fun _ enclosures =>
    .read (parenExpression_yields lawful) fun _ => (statement_yields lawful).bind fun _ =>
      .step fun _ => ?_
  refine .choose (Maybe (Node.Follows law enclosures))
    (.ite (fun _ => ?_) fun _ => .pure fun _ => .none)
    fun _ => .ofAnywhere (finish_follows rfl fun known => ⟨known.1.1.2 _, known.1.2, known.2⟩)
  exact (statement_yields lawful).map fun _ => .some

/-- A statement within an object begins behind its labels. -/
theorem withStatement_begins :
    Begins law (fun lexer => lexer.kind = .kwWith) (withStatement rules mark) :=
  .look fun _ => .ite (fun _ => .ofYields .raised) fun _ =>
    .enterPlain rfl (next_passes (by decide)) fun _ _ => .read (parenExpression_yields lawful)
      fun _ => (statement_yields lawful).bind fun _ =>
        .ofAnywhere (finish_follows rfl fun known => ⟨known.1.2 _, known.2⟩)

/-- A block begins behind its labels. -/
theorem blockStatement_begins :
    Begins law (fun lexer => lexer.kind = .braceL) (block rules false) :=
  .look fun _ => .enterPlain rfl (expect_passes (by decide)) fun _ _ =>
    (blockParts_yields lawful).bind fun _ => .ofAnywhere (finish_made.refine fun _ known made =>
      .ofBlock made.1 (fun node inside => known.2.1 node inside _) known.2.2)

end Choice

section Switch

/-- A case of a switch follows the law. -/
structure CaseParts.Follows (law : Law) (enclosures : List Enclosure) (parts : CaseParts) :
    Prop where
  test : PartLawful law parts.test
  consequent : Every (Node.Follows law enclosures) parts.consequent

/-- What has been read of a switch follows the law. -/
structure SwitchParts.Follows (law : Law) (enclosures : List Enclosure) (parts : SwitchParts) :
    Prop where
  cases : Every (Node.Follows law enclosures) parts.cases
  current : ∀ current ∈ parts.current, current.Follows law enclosures

omit lawful in
/-- A case follows the law in its place. -/
theorem finishCase_yields {parts : CaseParts} (holds : given → parts.Follows law enclosures) :
    Yields law given (finishCase parts) (Node.Follows law enclosures) :=
  finish_follows rfl fun known => ⟨fun node inside => (holds known).test node inside _,
    (holds known).consequent.reverse⟩

omit lawful in
/-- The cases still follow the law when one is closed. -/
theorem closeCase_yields {parts : SwitchParts} (holds : given → parts.Follows law enclosures) :
    Yields law given (closeCase parts) (SwitchParts.Follows law enclosures) := by
  unfold closeCase
  split
  · next current same =>
      exact (finishCase_yields fun known => (holds known).current current same).bind fun _ =>
        .pure fun known => ⟨.cons known.2 (holds known.1).cases, nofun⟩
  · exact .pure holds

include lawful

/-- The cases still follow the law when one is opened. -/
theorem openCase_yields {parts : SwitchParts} (holds : given → parts.Follows law enclosures) :
    Yields law given (openCase rules parts) (SwitchParts.Follows law enclosures) := by
  refine (closeCase_yields holds).bind fun closed => .step fun mark => .step fun isCase =>
    .step fun _ => .choose (PartLawful law) (.ite (fun _ => ?_) fun _ => .pure fun _ => .none)
      fun test => ?_
  · exact (expression_yields lawful).map fun _ => .some
  have rest : Yields law
      ((given ∧ closed.Follows law enclosures) ∧ PartLawful law test) (do
        expect .colon
        return { closed with
          current := some { mark, test }, hasDefault := closed.hasDefault || !isCase })
      (SwitchParts.Follows law enclosures) := by
    refine .step fun _ => .pure fun ⟨⟨_, before⟩, tested⟩ => ⟨before.cases, ?_⟩
    rintro _ ⟨rfl⟩
    exact ⟨tested, .nil⟩
  exact .ite (fun _ => .step fun _ => .step fun _ => rest) fun _ => rest

/-- All cases of a switch follow the law in its place. -/
theorem switchCases_yields :
    YieldsIn law enclosures given (switchCases rules) (Every (Node.Follows law enclosures)) := by
  refine .via (SwitchParts.Follows law enclosures)
    (.loop (SwitchParts.Follows law enclosures) (fun _ => ⟨.nil, nofun⟩) fun parts =>
      .step fun kind => ?_)
    fun parts => .step fun _ => .pure fun known => known.2.cases.reverse
  split
  · exact .read (closeCase_yields And.right) fun _ => .done And.right
  · exact .read (openCase_yields lawful And.right) fun _ => .more And.right
  · exact .read (openCase_yields lawful And.right) fun _ => .more And.right
  · split
    · next current same =>
        refine (statement_yields lawful).bind fun statement => .more fun known => ?_
        refine ⟨known.1.2.cases, ?_⟩
        rintro _ ⟨rfl⟩
        have before := known.1.2.current current same
        exact ⟨before.test, .cons known.2 before.consequent⟩
    · exact .unexpected

/-- A switch begins behind its labels. -/
theorem switchStatement_begins :
    Begins law (fun lexer => lexer.kind = .kwSwitch) (switchStatement rules mark) := by
  refine .enterAny (next_passes (by decide)) nofun fun _ enclosures => ?_
  change YieldsIn law (.switch :: enclosures) True _ (Node.Follows law enclosures)
  have cases : ∀ {given : Prop}, YieldsIn law (.switch :: enclosures) given
      (labeled ⟨none, some .switch, none⟩ (switchCases rules)) (Every (Node.Follows law _)) :=
    labeled_yields (List.mem_cons_self ..) (switchCases_yields lawful)
  exact .read (parenExpression_yields lawful) fun _ => .step fun _ => cases.bind fun _ =>
    .ofAnywhere (finish_stated rfl rfl rfl rfl (fun _ => trivial) fun known =>
      ⟨known.1.2 _, known.2⟩)

end Switch

section Try

include lawful

/-- The handler of a trial follows the law in its place. -/
theorem catchClause?_yields :
    YieldsIn law enclosures given (catchClause? rules) (Maybe (Node.Follows law enclosures)) := by
  refine .step fun _ => .ite (fun _ => .step fun mark => .step fun _ => .step fun _ => ?_)
    fun _ => .pure fun _ => .none
  refine .read (binding_yields lawful) fun _ => .read checkBoundOnce_yields fun _ =>
    .step fun _ => (block_yields lawful).bind fun _ => .bind (.ofAnywhere ?_) fun _ =>
      .pure fun known => .some known.2
  exact finish_made.refine fun _ known made => .ofSimple (made.1 ▸ rfl)
    (made.1 ▸ Form.permitted_of_binds rfl known.1.2.bindable
      ⟨known.1.1.2.pattern, known.1.2.names⟩)
    (made.1 ▸ ⟨known.1.1.2.lawful _, known.2⟩)

/-- A trial begins behind its labels. -/
theorem tryStatement_begins :
    Begins law (fun lexer => lexer.kind = .kwTry) (tryStatement rules mark) := by
  refine .enterPlain rfl (next_passes (by decide)) fun _ enclosures =>
    (block_yields lawful).bind fun body => (catchClause?_yields lawful).bind fun handler =>
      .step fun _ => ?_
  refine .choose (Maybe (Node.Follows law enclosures))
    (.ite (fun _ => ?_) fun _ => .pure fun _ => .none)
    fun finalizer => .guard (.ofAnywhere (finish_follows rfl fun known =>
      ⟨known.1.1.2, known.1.2, nofun, known.2⟩))
  exact (block_yields lawful).map fun _ => .some

end Try

end Grammar

end EcmaSyntax
