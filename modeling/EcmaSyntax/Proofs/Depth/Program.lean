import EcmaSyntax.Proofs.Depth.Expression

namespace EcmaSyntax

namespace Grammar

set_option synthInstance.maxSize 1024

variable {α : Type} {setting : Setting} {rest : Nat} {here : Option Kind} {mark : Mark}
  {form : Form} {node : Node} {kind : Kind} {rules : Rules} {action : Parse α}

section Label

instance {label : Label} [Suffices setting rest none always action] :
    Suffices setting rest here always (labeled label action) :=
  inferInstanceAs (Suffices _ _ _ _ (modify _ >>= _))

instance {label : Label} [Suffices setting rest none never action] :
    Suffices setting rest here never (labeled label action) :=
  inferInstanceAs (Suffices _ _ _ _ (modify _ >>= _))

instance [Suffices setting rest none always action] :
    Suffices setting rest here always (withinLoop action) :=
  inferInstanceAs (Suffices _ _ _ _ (labeled _ _))

instance [Suffices setting rest none never action] :
    Suffices setting rest here never (withinLoop action) :=
  inferInstanceAs (Suffices _ _ _ _ (labeled _ _))

instance [Is kind.isFilled] {isBreak : Bool} :
    Suffices setting rest (some kind) always (jumpStatement mark isBreak) :=
  inferInstanceAs (Suffices _ _ _ _ (next >>= _))

instance : Suffices setting rest here never labelTarget :=
  inferInstanceAs (Suffices _ _ _ _ (Grammar.kind >>= _))

instance [Sated setting rest rules] {name : String} {id : Node} :
    Suffices setting rest none never (labeledStatement rules mark name id) := by
  unfold labeledStatement
  infer_instance

end Label

section Variable

instance : Suffices setting rest here never goesThrough :=
  inferInstanceAs (Suffices _ _ _ _ (atKind _ >>= _))

section

variable [Sated setting rest rules] {inLoop : Bool} {variableKind : VariableKind}

instance : Suffices setting rest none always (variableHead rules) := by
  refine .step fun id => .after fun _ => .after fun annot => ?_
  split <;> infer_instance

instance : Suffices setting rest none always (declarator rules inLoop variableKind) :=
  inferInstanceAs (Suffices _ _ _ _ (Grammar.mark >>= _))

instance : Suffices setting rest none always (declarators rules inLoop variableKind) :=
  inferInstanceAs (Suffices _ _ _ _ (commaSeparated _))

instance {close : Kind} : Suffices setting rest none never (expressionBefore rules close) :=
  inferInstanceAs (Suffices _ _ _ _ (atKind _ >>= _))

instance {left : Node} : Suffices setting rest none never (throughLoop rules mark left) :=
  inferInstanceAs (Suffices _ _ _ _ (atKind _ >>= _))

end

variable [Sated setting (rest - 1) rules] {variableKind : VariableKind}

instance [Is kind.isFilled] :
    Suffices setting rest (some kind) always (variableStatement rules mark variableKind) :=
  inferInstanceAs (Suffices _ _ _ _ (next >>= _))

instance {init : Option Node} : Suffices setting rest here always (countingLoop rules mark init) :=
  inferInstanceAs (Suffices _ _ _ _ (expect _ >>= _))

end Variable

section Loop

section

variable [Sated setting rest rules] {variableKind : VariableKind}

instance : Suffices setting rest none never (declaringLoop rules mark variableKind) :=
  inferInstanceAs (Suffices _ _ _ _ (Grammar.mark >>= _))

instance : Suffices setting rest none never (expressionLoop rules mark) := by
  refine .after fun init => .after fun through => ?_
  infer_instance

end

variable [Sated setting (rest - 1) rules]

instance [Is kind.isFilled] :
    Suffices setting rest (some kind) always (forStatement rules mark) := by
  have inner : Suffices setting (rest - 1) none never (do
      expect .parenL
      let kind ← Grammar.kind
      if kind == .semi then countingLoop rules mark none
      else
        match variableKind? kind with
        | some kind => declaringLoop rules mark kind
        | none => expressionLoop rules mark : Parse Node) := by
    refine .after fun _ => .onKind fun current => .ite (fun _ => inferInstance) fun _ => ?_
    split <;> infer_instance
  exact inferInstanceAs (Suffices _ _ _ _ (next >>= _))

end Loop

section Control

instance {parts : CaseParts} : Stays (finishCase parts) := inferInstanceAs (Stays (finish _ _))

instance {parts : CaseParts} : Suffices setting rest here never (finishCase parts) :=
  inferInstanceAs (Suffices _ _ _ _ (finish _ _))

instance {parts : SwitchParts} : Stays (closeCase parts) := by
  unfold closeCase
  split <;> infer_instance

instance {parts : SwitchParts} : Suffices setting rest here never (closeCase parts) := by
  unfold closeCase
  split <;> infer_instance

variable [Sated setting (rest - 1) rules] [Is kind.isFilled]

instance : Suffices setting rest (some kind) always (doWhileStatement rules mark) :=
  inferInstanceAs (Suffices _ _ _ _ (next >>= _))

instance : Suffices setting rest (some kind) always (whileStatement rules mark) :=
  inferInstanceAs (Suffices _ _ _ _ (next >>= _))

instance : Suffices setting rest (some kind) always (ifStatement rules mark) :=
  inferInstanceAs (Suffices _ _ _ _ (next >>= _))

instance : Suffices setting rest (some kind) always (returnStatement rules mark) := by
  refine .stay inferInstance fun state => .stay inferInstance fun context => ?_
  exact .guardStay inferInstance fun _ => inferInstance

instance : Suffices setting rest (some kind) always (throwStatement rules mark) :=
  inferInstanceAs (Suffices _ _ _ _ (next >>= _))

instance {parts : SwitchParts} : Suffices setting rest (some kind) always (openCase rules parts) :=
  inferInstanceAs (Suffices _ _ _ _ (closeCase _ >>= _))

end Control

section Choice

instance [Sated setting rest rules] : Suffices setting rest none never (switchCases rules) := by
  refine .via (.turns fun parts => .onKind fun current => ?_) fun parts => inferInstance
  split
  · infer_instance
  · infer_instance
  · infer_instance
  · split <;> infer_instance

variable [Sated setting (rest - 1) rules] [Is kind.isFilled]

instance : Suffices setting rest (some kind) always (switchStatement rules mark) :=
  inferInstanceAs (Suffices _ _ _ _ (next >>= _))

instance : Suffices setting rest here never (catchClause? rules) :=
  inferInstanceAs (Suffices _ _ _ _ (atKind _ >>= _))

instance : Suffices setting rest (some kind) always (tryStatement rules mark) :=
  inferInstanceAs (Suffices _ _ _ _ (next >>= _))

instance : Suffices setting rest (some kind) always (withStatement rules mark) := by
  exact .stay inferInstance fun strict => .guardStay inferInstance fun _ => inferInstance

end Choice

section Module

instance [Suffices setting (rest - 1) none always action] :
    Suffices setting rest here always (bracedItems action) := by
  refine .step fun _ => .turns ?_
  rintro ⟨first, items⟩
  have : Suffices setting (rest - 1 - 1) none always action := .mono ‹_› (Nat.sub_le _ _)
  infer_instance

instance {pos : Nat} {declaration : Option Node} :
    Suffices setting rest here never (giveDecorators pos declaration) := by
  refine .stay inferInstance fun state => .ite (fun _ => inferInstance) fun _ => ?_
  repeat' split
  all_goals infer_instance

instance : Suffices setting rest here always moduleName :=
  inferInstanceAs (Suffices _ _ _ _ (atKind _ >>= _))

instance {pos : Nat} {needed : Bool} : Suffices setting rest here never (exportSource pos needed) :=
  inferInstanceAs (Suffices _ _ _ _ (eatWord _ >>= _))

instance : Suffices setting rest here always exportSpecifier :=
  inferInstanceAs (Suffices _ _ _ _ (Grammar.mark >>= _))

instance : Suffices setting rest here always exportSpecifiers :=
  inferInstanceAs (Suffices _ _ _ _ (bracedItems _ >>= _))

instance : Suffices setting rest here never moreSpecifiers :=
  inferInstanceAs (Suffices _ _ _ _ (eat _ >>= _))

instance : Suffices setting rest here always (namespaceSpecifier mark) :=
  inferInstanceAs (Suffices _ _ _ _ (identifier _ >>= _))

instance : Suffices setting rest here never takesExportDefault := by
  refine .onKind fun current => ?_
  split <;> infer_instance

instance : Suffices setting rest here never allFollow :=
  inferInstanceAs (Suffices _ _ _ _ (atKind _ >>= _))

instance : Suffices setting rest here always (exportDefaultFrom mark) :=
  inferInstanceAs (Suffices _ _ _ _ (Grammar.mark >>= _))

instance : Suffices setting rest here never declarationFollows :=
  inferInstanceAs (Suffices _ _ _ _ (Grammar.kind >>= _))

instance {parts : ExportParts} : Suffices setting rest here never (exportNamed mark parts) :=
  inferInstanceAs (Suffices _ _ _ _ (giveDecorators _ _ >>= _))

instance : Suffices setting rest here never (exportAll mark) := by
  refine .stay inferInstance fun specifierMark => .after fun _ => .after fun named => ?_
  refine .ite (fun _ => inferInstance) fun _ => .after fun source => ?_
  split <;> infer_instance

section

variable [Sated setting rest rules]

instance : Suffices setting rest none never (exportType rules mark) :=
  inferInstanceAs (Suffices _ _ _ _ (Grammar.mark >>= _))

instance : Suffices setting rest none never (exportDeclared rules mark) :=
  inferInstanceAs (Suffices _ _ _ _ (hasTypes >>= _))

instance : Suffices setting rest none never (exportedDefault rules) :=
  inferInstanceAs (Suffices _ _ _ _ (Grammar.mark >>= _))

instance : Suffices setting rest none never (exportDefault rules mark) :=
  inferInstanceAs (Suffices _ _ _ _ (exportedDefault _ >>= _))

end

instance [Sated setting (rest - 1) rules] :
    Suffices setting rest (some .kwExport) always (exportStatement rules mark) :=
  inferInstanceAs (Suffices _ _ _ _ (next >>= _))

instance : Suffices setting rest here always importedName :=
  inferInstanceAs (Suffices _ _ _ _ (identifier _ >>= _))

instance : Suffices setting rest here always importSpecifier :=
  inferInstanceAs (Suffices _ _ _ _ (Grammar.mark >>= _))

instance : Suffices setting rest here never importGroup :=
  inferInstanceAs (Suffices _ _ _ _ (atKind _ >>= _))

instance : Suffices setting rest here never importSpecifiers :=
  inferInstanceAs (Suffices _ _ _ _ (atKind _ >>= _))

instance : Suffices setting rest here never importWord? :=
  inferInstanceAs (Suffices _ _ _ _ (atKind _ >>= _))

instance : Suffices setting rest here never importKind := by
  refine .after fun word => ?_
  split <;> infer_instance

instance : Suffices setting rest (some .kwImport) always (importStatement mark) := by
  refine .step fun _ => ?_
  infer_instance

end Module

section Statement

instance [Is kind.isFilled] : Suffices setting rest (some kind) always (tokenStatement mark form) :=
  inferInstanceAs (Suffices _ _ _ _ (next >>= _))

instance [Is kind.isFilled] : Suffices setting rest (some kind) always (debuggerStatement mark) :=
  inferInstanceAs (Suffices _ _ _ _ (next >>= _))

instance {topLevel : Bool} : Stays (checkModuleItem mark topLevel) :=
  inferInstanceAs (Stays (read >>= _))

instance {topLevel : Bool} : Suffices setting rest here never (checkModuleItem mark topLevel) :=
  inferInstanceAs (Suffices _ _ _ _ (read >>= _))

section

variable [Sated setting rest rules] {word inner : Node}

instance : Suffices setting rest none never (wordDeclaration? rules mark word) := by
  refine .stay inferInstance fun types => .ite (fun _ => ?_) fun _ => inferInstance
  refine .onKind fun current => .anywhere ?_
  split <;> infer_instance

instance : Suffices setting rest none never (expressionStatement rules mark inner) := by
  refine .after fun declaration => ?_
  split <;> infer_instance

end

variable [Sated setting (rest - 1) rules]

-- Where no function follows the word, the parse goes back to where it began.
instance : Suffices setting rest none Option.isSome (asyncDeclaration? rules mark) where
  endures state orderly ahead _ := by
    have named : Suffices setting rest (some .name) always next := inferInstance
    have function : Suffices setting (rest - 1) none never (do
        next
        return some (← functionTail rules mark true true false) : Parse (Option Node)) :=
      inferInstance
    have tests : Suffices setting (rest - 1) none never (atKind .kwFunction) := inferInstance
    have ends : Suffices setting (rest - 1) none never mayEndStatement := inferInstance
    change Endures (if _ then _ else _ : Parse (Option Node)) setting state _
    split
    · next found =>
        rw [Bool.and_eq_true, beq_iff_eq] at found
        refine Endures.bind_iff.mpr (Endures.bind_iff.mpr ((named.endures state orderly ahead
          (by rintro _ ⟨⟩; exact found.1)).mono ?_))
        rintro _ middle ⟨later, onward⟩
        have onward : state.lexer.start + 1 ≤ middle.lexer.start := onward
        refine Endures.bind_iff.mpr ((tests.endures middle later (by omega) nofun).mono ?_)
        rintro isFunction tested ⟨held, further⟩
        have further : middle.lexer.start ≤ tested.lexer.start := further
        refine Endures.bind_iff.mpr ((ends.endures tested held (by omega) nofun).mono ?_)
        rintro mayEnd last ⟨kept, still⟩
        have still : tested.lexer.start ≤ last.lexer.start := still
        split
        · refine (function.endures last kept (by omega) nofun).mono ?_
          rintro value after ⟨done, beyond⟩
          have beyond : last.lexer.start ≤ after.lexer.start := beyond
          have bound := value.isSome.toNat_le
          exact ⟨done, by omega⟩
        · exact ⟨orderly, Nat.le_refl _⟩
    · exact ⟨orderly, Nat.le_refl _⟩

variable [∀ noIn, Suffices setting rest none always (rules (.assignment noIn false))]

instance : Suffices setting rest none always (plainStatement rules mark) := by
  refine .stay inferInstance fun named => .stay inferInstance fun name => .step fun inner => ?_
  infer_instance

instance {declaration topLevel : Bool} :
    Suffices setting rest none always (undecoratedStatement rules declaration topLevel) := by
  refine .stay inferInstance fun mark => .onKind fun current => ?_
  split
  all_goals try infer_instance
  exact .anywhere (.onSome (fun declaration => inferInstance) inferInstance)

instance {declaration topLevel : Bool} :
    Suffices setting rest none always (statement rules declaration topLevel) := by
  refine .nested (.stay inferInstance fun types => .stay inferInstance fun strict =>
    .stay inferInstance fun word => .ite (fun _ => inferInstance) fun _ => ?_)
  exact .ifAt inferInstance inferInstance

end Statement

section Program

variable {count : Nat} {moves : α → Bool}

/-- The number of rules that may begin with this one at the same token, the last of them not
counted. -/
def Goal.rank : Goal → Nat
  | .statement .. => 3
  | .assignment .. => 2
  | .unary => 1
  | .type => 2
  | .prefixType => 1
  | _ => 0

theorem Goal.rank_le (goal : Goal) : goal.rank ≤ 3 := by
  cases goal <;> simp [rank]

/-- No token begins after the end of the text. -/
theorem Suffices.empty : Suffices setting 0 here moves action where
  endures _ orderly ahead _ := absurd ahead (Nat.not_lt.mpr orderly.start_le)

/-- A rule refers to rules that move on first, or to some that come after it in rank. -/
theorem rule_suffices [Sated setting (rest - 1) rules] (goal : Goal)
    (lower : ∀ other, other.rank < goal.rank →
      Suffices setting rest none (fun _ => other.movesOn) (rules other)) :
    Suffices setting rest none (fun _ => goal.movesOn) (rule rules goal) := by
  cases goal with
  | statement declaration topLevel =>
      have (noIn : Bool) : Suffices setting rest none always (rules (.assignment noIn false)) :=
        lower (.assignment noIn false) (by simp [Goal.rank])
      change Suffices setting rest none always (statement rules declaration topLevel)
      infer_instance
  | assignment noIn inParens =>
      have : Suffices setting rest none always (rules .unary) := lower .unary (by simp [Goal.rank])
      change Suffices setting rest none always (assignment rules noIn inParens)
      infer_instance
  | operators left mark level noIn =>
      change Suffices setting rest none never (operators rules left mark level noIn)
      infer_instance
  | unary =>
      have : Suffices setting rest none always (rules .atom) := lower .atom (by decide)
      change Suffices setting rest none always (unary rules)
      infer_instance
  | atom =>
      change Suffices setting rest none always (primary rules)
      infer_instance
  | binding =>
      change Suffices setting rest none always (binding rules)
      infer_instance
  | element mark =>
      change Suffices setting rest none always (element rules mark)
      infer_instance
  | type =>
      have : Suffices setting rest none always (rules .prefixType) := lower .prefixType (by decide)
      change Suffices setting rest none always (typeExpression rules)
      infer_instance
  | prefixType =>
      have : Suffices setting rest none always (rules .primaryType) :=
        lower .primaryType (by decide)
      change Suffices setting rest none always (prefixType rules)
      infer_instance
  | primaryType =>
      change Suffices setting rest none always (primaryType rules)
      infer_instance
  | declared mark =>
      change Suffices setting rest none always (declared rules mark)
      infer_instance

/-- At each token at most four rules refer to one another in a row before one of them passes it. -/
theorem rulesWithin_suffices (goal : Goal) (enough : 4 * rest + goal.rank ≤ count) :
    Suffices setting rest none (fun _ => goal.movesOn) (rulesWithin count goal) := by
  induction count generalizing rest goal with
  | zero =>
      obtain rfl : rest = 0 := by omega
      exact .empty
  | succ count inductionHypothesis =>
      cases rest with
      | zero => exact .empty
      | succ rest =>
          have : Sated setting (rest + 1 - 1) (rulesWithin count) :=
            ⟨rulesWithin_jumping count, fun other => inductionHypothesis other (by
              have := other.rank_le
              omega)⟩
          exact rule_suffices goal fun other lower => inductionHypothesis other (by omega)

instance : Sated setting (setting.source.size + 1) (rulesWithin (ruleLimit setting.source.size)) :=
  ⟨rulesWithin_jumping _, fun goal => rulesWithin_suffices goal (by
    have := goal.rank_le
    unfold ruleLimit
    omega)⟩

/-- The bounds on rules and turns suffice for the program of a text. -/
theorem programNode_suffices :
    Suffices setting (setting.source.size + 1) none never (programNode mark) := by
  refine .onRead (.after ?_)
  rintro ⟨directives, body⟩
  infer_instance

/-- After the program nothing nests. -/
theorem closeFile_flat {node : Node} {state : State} :
    Fails (closeFile mark node) setting state Failure.IsFlat := by
  refine .bind (.never ⟨_, _, rfl⟩) fun _ _ _ => .bind (.never ⟨_, _, rfl⟩) fun _ _ _ => ?_
  refine .bind (.never ⟨_, _, rfl⟩) fun _ _ _ => .bind ?_ fun _ _ _ => .never ⟨_, _, rfl⟩
  exact attach_flat

/-- A program is only refused for its nesting if it nests deeper than the limit. -/
theorem program_endures (setting : Setting) :
    Endures (do lex Lexer.skipShebang; program : Parse File) setting
      (.initial setting.options.startsStrict) fun _ _ => True := by
  refine Endures.bind_iff.mpr (.of_flat (gives_lex.mpr fun _ middle passed => ?_)
    (fails_lex (Lexer.skipShebang_inPlace.flat nofun)))
  have skips := (Lexer.skipShebang_meets (.initial _)).of_ok passed
  have octal := Lexer.skipShebang_inPlace.octal (by exact nofun) _ _ passed
  refine Endures.bind_iff.mpr (.of_flat (gives_mark.mpr ?_) (.never ⟨_, _, rfl⟩))
  refine Endures.bind_iff.mpr (.of_flat (gives_lex.mpr fun _ lexer read => ?_)
    (fails_lex ((Lexer.firstToken_inPlace skips).flat octal)))
  have begun : State.Begun setting
      { State.initial setting.options.startsStrict with lexer := lexer } :=
    ⟨lexer, Lexer.begins passed read, rfl⟩
  refine Endures.bind_iff.mpr
    ((programNode_suffices.endures _ begun.orderly (by omega) nofun).mono ?_)
  rintro node after -
  exact .of_flat (fun _ _ _ => trivial) closeFile_flat

end Program

end Grammar

/-- A text whose nesting is refused nests deeper than it may: no bound on the rules, nor on the
turns of a loop, ends a parse before this. -/
theorem parse_exceeds {text : String} {options : Options} {pos : Nat} {loc : Position}
    (refused : parse text options = .error (.nestingTooDeep pos loc)) : ∃ last : Grammar.State,
    (do Grammar.lex Lexer.skipShebang; Grammar.program : Grammar.Parse File)
        (.ofText (LineEnding.normalize text).toList options) (.initial options.startsStrict) =
      .error (.nestingTooDeep pos loc) last ∧ Grammar.depthLimit < last.depth := by
  obtain ⟨last, ends⟩ := parse_eq_error.mp refused
  have endures := Grammar.program_endures (.ofText (LineEnding.normalize text).toList options)
  exact ⟨last, ends, endures.exceeds ends⟩

end EcmaSyntax
