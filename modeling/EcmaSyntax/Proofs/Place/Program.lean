import EcmaSyntax.Proofs.Grammar.Program
import EcmaSyntax.Proofs.Place.Primary
import EcmaSyntax.Proofs.Place.Statement

namespace EcmaSyntax

/-- The places of a file and of all nodes in its tree, with their identities. -/
def File.spans (file : File) : List Grammar.Finished :=
  ⟨file.id, file.start, file.stop⟩ :: file.program.spans

/-- The nodes of a file have different identities, and the comments that belong to them are where
they have to be. -/
structure File.Numbered (file : File) : Prop where
  distinct : (file.spans.map Grammar.Finished.id).Nodup
  fits : ∀ span ∈ file.spans, ∀ attached : Attached, file.attachments[span.id]? = some attached →
    attached.Fits span.start span.stop

/-- The nodes of a file lie in their places, and the comments that belong to them are comments of
the file. -/
structure File.Placed (source : Source) (file : File) : Prop where
  sits : file.program.Sits source
  stop : source.Seam file.stop
  encloses : file.start ≤ file.program.start ∧ file.program.stop ≤ file.stop
  ordered : InOrder file.comments
  nested : Grammar.Nested [file.program]
  among : ∀ (id : NodeId) (attached : Attached), file.attachments[id]? = some attached →
    attached.Among file.comments

namespace Grammar

variable {setting : Setting} {rules : Rules} {state : State} {middle lexer : Lexer.State}
  {strict : Bool}

/-- A rule keeps nodes in their places if the rules that it refers to do. -/
theorem rule_placed (placed : rules.Placed setting) : (rule rules).Placed setting where
  statement _ _ := statement_places placed
  assignment _ _ := assignmentRule_places placed
  operators _ _ _ _ := operators_places placed
  unary := unary_places placed
  atom := primary_places placed
  binding := bindingRule_places placed
  element _ := element_places placed
  type := typeExpression_places placed
  prefixType := prefixType_places placed
  primaryType := primaryType_places placed
  declared _ := declared_places placed

/-- The rules keep nodes in their places, however often they refer to each other. -/
theorem rulesWithin_placed (count : Nat) : (rulesWithin count).Placed setting := by
  induction count with
  | zero => exact ⟨fun _ _ => .tooDeep, fun _ _ => .tooDeep, fun _ _ _ _ => .tooDeep, .tooDeep,
      .tooDeep, .tooDeep, fun _ => .tooDeep, .tooDeep, .tooDeep, .tooDeep, fun _ => .tooDeep⟩
  | succ count inductionHypothesis => exact rule_placed inductionHypothesis

/-- The hand is empty before the first token, and the start of the text has been passed. -/
theorem begin_holds
    (passed : Lexer.skipShebang setting.toSetting (.initial strict) = .ok () middle)
    (read : Lexer.nextToken setting.toSetting middle = .ok () lexer) :
    ({ first := middle.start, past := [middle.start] } : Hand).In setting []
      { State.initial strict with lexer := lexer } := by
  rw [Lexer.skipShebang_start _ _ _ _ passed]
  have sited := Lexer.begin_sited setting.toSetting strict () lexer (Lexer.begins passed read)
  have unattached (id : NodeId) : (State.initial strict).attached? id = none := by
    simp [State.attached?, State.initial]
  have known {id : NodeId} {attached : Attached} {goal : Prop}
      (found : State.attached? { State.initial strict with lexer := lexer } id = some attached) :
      goal := absurd ((unattached id).symm.trans found) (Option.some_ne_none _).symm
  have tended (limit : Nat) : State.Tended lexer.comments.reverse limit []
      { State.initial strict with lexer := lexer } :=
    ⟨sited.posted.recalls.leading, sited.posted.recalls.trailing, fun _ _ found => known found,
      fun _ _ found => known found, List.forall_mem_nil _⟩
  have owns : State.Owns lexer.comments.reverse [] { State.initial strict with lexer := lexer } :=
    ⟨tended _, fun _ => ⟨.nil, List.forall_mem_nil _, tended _⟩⟩
  exact ⟨⟨sited, List.forall_mem_nil _, .nil, .nil, owns⟩, List.forall_mem_nil _,
    List.forall_mem_nil _, List.forall_mem_nil _, .zero _, .zero _, Nat.zero_le _,
    List.forall_mem_nil _, by simp, .nil⟩

/-- The body of a program becomes one node, which starts where the text does. -/
theorem body_holds {count : Nat} {mark : Mark} {sourceType : SourceType}
    {parts : List Node × List Node} {node : Node} {ended last : State}
    (holds : ({ first := mark.pos, past := [mark.pos] } : Hand).In setting [] state)
    (parsed : blockParts (rulesWithin count) true true .eof setting state = .ok parts ended)
    (finished : finish mark (.program sourceType parts.1 parts.2) setting ended = .ok node last) :
    ({ first := mark.pos, given := [node] } : Hand).In setting [] last := by
  have body : Places setting { first := mark.pos, past := [mark.pos] }
      (blockParts (rulesWithin count) true true .eof >>=
        fun parts => finish mark (.program sourceType parts.1 parts.2)) :=
    .call [] (blockParts_places (rulesWithin_placed count)) fun _ made => .finish made.fact
  exact (Gives.bind_iff.mp (body.gives _ _ holds) _ _ parsed _ _ finished).2.holds

/-- What is known of a program once its last token has been read holds for its file, which is
given the comments that are left. -/
theorem file_placed {node : Node} {start : Nat} {after : State} {loc : Location} (file : File)
    (made : ({ first := start, given := [node] } : Hand).In setting [] state)
    (attached : attach state.identities.next start state.lexer.lastStop setting
      { state with
        lexer := { state.lexer with entries := [], comments := [] }, identities := state.identities.advance } =
      .ok () after)
    (same : file = {
      id := state.identities.next
      start
      stop := state.lexer.lastStop
      loc
      program := node
      comments := state.lexer.comments.reverse
      entries := state.lexer.entries.reverse
      attachments := after.attachments }) :
    file.Placed setting.source ∧ (after.identities.spent = false → file.Numbered) := by
  subst same
  have ⟨sits, ends⟩ := made.sits node List.mem_cons_self
  have below : (node.spans).Subperm ([] ++ spans ([node] ++ []) ++ spans state.decorators) := by
    simp only [List.nil_append, List.append_nil, spans_cons, spans_nil]
    exact (List.sublist_append_left _ _).subperm
  have owns := (made.keeps.owns.part below).fresh start state.lexer.lastStop
  -- the record is taken, and the comments that were in it stay those of the file
  have taken : State.Owns state.lexer.comments.reverse
      (⟨state.identities.next, start, state.lexer.lastStop⟩ :: node.spans)
      { state with
        lexer := { state.lexer with entries := [], comments := [] }, identities := state.identities.advance } :=
    owns.goOn (.refl _) rfl rfl owns.tended.leading owns.tended.trailing
  unfold attach at attached
  split at attached <;> cases attached
  next attached =>
    have given := taken.attach made.keeps.ordered List.mem_cons_self attached
    have nested : Nested [node] := made.nested.part <| by
      rw [Hand.all, tags_append, tags_append]
      exact ((List.sublist_append_left _ _).trans (List.sublist_append_left _ _)).subperm
    refine ⟨⟨sits, made.keeps.sited.lastStop, ⟨made.begins node List.mem_cons_self, ends.stop⟩,
      made.keeps.ordered, nested, given.tended.among⟩, fun unspent => ?_⟩
    have numbers := given.numbers unspent
    exact ⟨numbers.distinct, numbers.tended.fits⟩

/-- The nodes of a program are in their places, and each has an identity of its own unless the
counter has run over. -/
theorem program_placed (setting : Setting) :
    Gives (do lex Lexer.skipShebang; program : Parse File) setting
      (.initial setting.options.startsStrict) fun file last =>
        file.Placed setting.source ∧ (last.identities.spent = false → file.Numbered) := by
  simp only [program, programNode, closeFile, freshId, Gives.bind_iff, gives_mark, gives_read,
    gives_get, gives_set, gives_modify, gives_pure, gives_lex, Lexer.takeRecord]
  intro _ middle passed _ first read parts ended parsed node last finished _ after attached
  exact file_placed _ (body_holds (begin_holds passed read) parsed finished) attached rfl

/-- A program is refused in a place of its text. -/
theorem program_fails (setting : Setting) :
    Fails (do lex Lexer.skipShebang; program : Parse File) setting
      (.initial setting.options.startsStrict) (Failure.Placed setting.source) := by
  refine .bind (fails_lex (Lexer.skipShebang_inPlace.places nofun))
    (gives_lex.mpr fun _ middle passed => ?_)
  have skips := (Lexer.skipShebang_meets (.initial _)).of_ok passed
  have octal := Lexer.skipShebang_inPlace.octal (by exact nofun) _ _ passed
  refine .bind (.never ⟨_, _, rfl⟩) (gives_mark.mpr ?_)
  refine .bind (fails_lex ((Lexer.firstToken_inPlace skips).places octal))
    (gives_lex.mpr fun _ lexer read => ?_)
  have holds := (begin_holds passed read).lendNothing
  refine .bind (.bind (.never ⟨_, _, rfl⟩) (gives_read.mpr ?_)) fun _ _ _ => ?_
  · refine .bind (fun failure last failed =>
      ((blockParts_places (rulesWithin_placed _)).fails _ _ holds failure last failed).1) ?_
    rintro ⟨directives, body⟩ ended -
    refine .bind (.never ⟨_, _, rfl⟩) (gives_read.mpr ?_)
    exact .bind (.never ⟨_, _, rfl⟩) (gives_get.mpr fun failure last failed =>
      (finishAt_strays failure last failed).1)
  refine .bind (.never ⟨_, _, rfl⟩) fun _ _ _ => .bind (.never ⟨_, _, rfl⟩) fun _ _ _ => ?_
  refine .bind (.never ⟨_, _, rfl⟩) fun _ _ _ => .bind (fun failure last failed =>
    (attach_strays failure last failed).1) fun _ _ _ => .never ⟨_, _, rfl⟩

end Grammar

/-- The nodes of every file that is parsed lie in their places. -/
theorem parse_placed {text : String} {options : Options} {overflow : Grammar.Overflow} {file : File}
    (parsed : parse text options overflow = .ok file) :
    file.Placed (options.setting text).source := by
  have placed := Grammar.program_placed (.ofText (LineEnding.normalize text).toList options)
  obtain ⟨last, same, -⟩ := parse_eq_ok.mp parsed
  exact (placed file last same).1

/-- The problem of every text that is refused lies in its place. -/
theorem parse_fails {text : String} {options : Options} {failure : Failure}
    (refused : parse text options = .error failure) :
    failure.Placed (options.setting text).source := by
  have fails := Grammar.program_fails (.ofText (LineEnding.normalize text).toList options)
  obtain ⟨last, same⟩ := parse_eq_error.mp refused
  exact fails _ _ same

end EcmaSyntax
