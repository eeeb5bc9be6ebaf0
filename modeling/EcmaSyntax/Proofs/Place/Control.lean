import EcmaSyntax.Grammar.Statement.Control
import EcmaSyntax.Proofs.Place.Variable

namespace EcmaSyntax

namespace Grammar

variable {setting : Setting} {rules : Rules} {first : Nat} {mark : Mark} {node : Node}

section Plain

variable (placed : rules.Placed setting)

include placed

/-- A loop whose condition comes last is made in its place. -/
theorem doWhileStatement_places :
    Places setting { first := mark.pos } (doWhileStatement rules mark) :=
  .step fun _ => .read (withinLoop_places (placed.statement false false)) fun _ _ => .step fun _ =>
    .read (parenExpression_places placed) fun _ test => .step fun _ =>
      .finish (test.extend (.single _) (.single _))

/-- A loop with a condition is made in its place. -/
theorem whileStatement_places : Places setting { first := mark.pos } (whileStatement rules mark) :=
  .step fun _ => .read (parenExpression_places placed) fun _ _ =>
    .read (withinLoop_places (placed.statement false false)) fun _ body =>
      .finish (body.extend (.single _) (.single _))

/-- A choice is made in its place. -/
theorem ifStatement_places : Places setting { first := mark.pos } (ifStatement rules mark) := by
  have alternate {first : Nat} :
      Places setting { first := first } (some <$> rules.statement false false) :=
    .map (placed.statement false false)
  refine .step fun _ => .read (parenExpression_places placed) fun test _ =>
    .read (placed.statement false false) fun consequent known => .step fun _ => ?_
  have chosen : InRow [test, consequent] := known.extend (.single _) (.single _)
  exact .ite (fun _ => .read alternate fun other last => .finish (last.extend chosen (.option other)))
    fun _ => .value (.finish chosen)

/-- A return is made in its place. -/
theorem returnStatement_places :
    Places setting { first := mark.pos } (returnStatement rules mark) :=
  .step fun _ => .step fun _ => .held fun known => .guard (fun _ => .raise known.first) <|
    .pass fun _ => .step fun _ => .ite (fun _ => .finish) fun _ =>
      .read (expression_places placed) fun _ _ => .step fun _ => .finish

/-- A throw is made in its place. -/
theorem throwStatement_places : Places setting { first := mark.pos } (throwStatement rules mark) := by
  have rest : Places setting { first := mark.pos } (do
      let argument ← expression rules false
      endStatement
      finish mark (.throwStatement argument)) :=
    .read (expression_places placed) fun _ _ => .step fun _ => .finish
  exact .step fun _ => .step fun _ => .ite
    (fun _ => .onGet fun _ sited => .raised sited.lastStop) fun _ => rest

/-- A statement within an object is made in its place. -/
theorem withStatement_places : Places setting { first := mark.pos } (withStatement rules mark) :=
  .step fun _ => .held fun known => .guard (fun _ => .raise known.first) <| .step fun _ =>
    .read (parenExpression_places placed) fun _ _ => .read (placed.statement false false)
      fun _ body => .finish (body.extend (.single _) (.single _))

/-- The handler of a trial is made in its place. -/
theorem catchClause?_places : Places setting { first := first } (catchClause? rules) :=
  .step fun _ => .ite (fun _ => .onMark fun _ => .step fun _ => .step fun _ =>
    .read placed.binding fun param known => .check
      (checkBoundOnce_places (known.sits param List.mem_cons_self)) fun _ => .step fun _ =>
        .read (block_places placed) fun _ body =>
          .bind (.finish (body.extend (.single _) (.single _))) fun _ _ => .pure) fun _ => .pure

/-- A trial is made in its place. -/
theorem tryStatement_places : Places setting { first := mark.pos } (tryStatement rules mark) := by
  have rest (body : Node) (handler finalizer : Option Node)
      (row : InRow (body :: (handler.toList ++ finalizer.toList))) :
      Places setting
        { first := mark.pos, given := body :: (handler.toList ++ finalizer.toList) } (do
          if handler.isNone && finalizer.isNone then raise mark.pos .missingCatchOrFinally
          finish mark (.tryStatement body handler [] finalizer)) :=
    .held fun known => .guard (fun _ => .raise known.first)
      (.finish (by simpa [Form.Ordered, Form.children] using row))
  have finalizer {first : Nat} : Places setting { first := first } (some <$> block rules false) :=
    .map (block_places placed)
  refine .step fun _ => .read (block_places placed) fun body _ =>
    .read (catchClause?_places placed) fun handler known => .step fun _ => ?_
  have begun : InRow (body :: handler.toList) := known.extend (.single body) (.option handler)
  exact .ite
    (fun _ => .read finalizer fun finalizer last => .last (rest body handler finalizer
      (last.extend begun (.option finalizer))))
    fun _ => .value (.last (rest body handler none (by simpa using begun)))

end Plain

section Switch

/-- The nodes of a case that is still open. -/
def CaseParts.parts (current : CaseParts) : List Node := current.test.toList ++ current.consequent

/-- A case that is still open began after an offset, at its mark, and after the cases before it. -/
structure CaseParts.Opened (source : Source) (first : Nat) (cases : List Node)
    (current : CaseParts) : Prop where
  later : first ≤ current.mark.pos
  seam : source.Seam current.mark.pos
  starts : ∀ node ∈ current.parts, current.mark.pos ≤ node.start
  row : InRow (current.test.toList ++ current.consequent.reverse)
  after : ∀ node ∈ cases, node.stop ≤ current.mark.pos

/-- What has been read of a switch: its cases, and those parts of the open one. -/
@[simps] def SwitchParts.load (source : Source) (first : Nat) (parts : SwitchParts) : Load where
  given := parts.cases ++ (parts.current.elim [] CaseParts.parts)
  past := parts.current.toList.map fun current => current.mark.pos
  fact := InRow parts.cases.reverse ∧
    ∀ current ∈ parts.current, current.Opened source first parts.cases

/-- No case is open any more. -/
def SwitchParts.closed (parts : SwitchParts) : Load := backward parts.cases

/-- The cases of a switch have been gathered backward. -/
@[simp] theorem SwitchParts.closed_eq {parts : SwitchParts} :
    parts.closed = backward parts.cases := rfl

section Case

variable {parts : SwitchParts} {current : CaseParts}

/-- An open case is held with its statements behind the cases before it. -/
theorem SwitchParts.hand_open (same : parts.current = some current) :
    (parts.load setting.source first).hand first = {
      first := first, given := parts.cases ++ current.parts, past := [current.mark.pos] } := by
  simp [SwitchParts.load, Load.hand, same]

/-- Where no case is open, only the cases are held. -/
theorem SwitchParts.hand_closed (same : parts.current = none) :
    (parts.load setting.source first).hand first = { first := first, given := parts.cases } := by
  simp [SwitchParts.load, Load.hand, same]

/-- A case is made in its place. -/
theorem finishCase_places (row : InRow (current.test.toList ++ current.consequent.reverse)) :
    Places setting
      { first := current.mark.pos, given := current.parts, past := [current.mark.pos] }
      (finishCase current) :=
  .finish row rfl (by simp [CaseParts.parts, Form.parts, Form.fields])

/-- An open case is closed where the next one begins. -/
theorem closeCase_places (opened : (parts.load setting.source first).fact) :
    PlacesAs setting ((parts.load setting.source first).hand first) (closeCase parts)
      SwitchParts.closed := by
  unfold closeCase
  split
  · next current same =>
      obtain ⟨row, opened⟩ := opened
      replace opened := opened current same
      rw [SwitchParts.hand_open same]
      refine .callAt parts.cases (.passed List.mem_cons_self opened.later opened.seam)
        (finishCase_places opened.row) (fun node made => .conclude ?_) opened.starts
      exact row.gather fun other inside =>
        Nat.le_trans (opened.after other inside) (made.begins node List.mem_cons_self)
  · next same =>
      rw [SwitchParts.hand_closed same]
      exact .conclude opened.1

end Case

variable (placed : rules.Placed setting)

include placed

/-- A case is opened behind those before it. -/
theorem openCase_places {parts : SwitchParts} (opened : (parts.load setting.source first).fact) :
    PlacesAs setting ((parts.load setting.source first).hand first) (openCase rules parts)
      (SwitchParts.load setting.source first) := by
  refine .bind (closeCase_places opened) fun parts made => .markLater fun mark later ended =>
    .held fun known => .step fun isCase => .pass fun _ => ?_
  have rest (test : Option Node) (starts : ∀ node ∈ test, mark.pos ≤ node.start) :
      PlacesAs setting
        { first := first, given := parts.cases ++ test.toList, past := [mark.pos] } (do
          if !isCase && parts.hasDefault then raise (← get).lexer.lastStart .multipleDefaults
          expect .colon
          return { parts with
            current := some { mark, test }, hasDefault := parts.hasDefault || !isCase })
        (SwitchParts.load setting.source first) := by
    have ends : PlacesAs setting
        { first := first, given := parts.cases ++ test.toList, past := [mark.pos] } (do
          expect .colon
          return { parts with
            current := some { mark, test }, hasDefault := parts.hasDefault || !isCase })
        (SwitchParts.load setting.source first) := by
      refine .step fun _ => .conclude ⟨made.fact, ?_⟩ (by simp [CaseParts.parts])
      rintro _ ⟨rfl⟩
      exact ⟨later, known.latest, by simpa [CaseParts.parts] using starts,
        by simpa using InRow.option test, ended⟩
    exact .ite (fun _ => .onGet fun _ sited => .raised sited.lastStart) fun _ => ends
  have test {first : Nat} : Places setting { first := first } (some <$> expression rules false) :=
    .map (expression_places placed)
  exact .ite
    (fun _ => .read test fun test known => .last (rest test fun node inside =>
      known.ahead node (Option.mem_toList.mpr inside)))
    fun _ => .value (.last (rest none nofun))

/-- A token of a switch is looked at: a case begins, its statements go on, or the switch ends. -/
def caseTurn (rules : Rules) (parts : SwitchParts) : Parse (Turn SwitchParts SwitchParts) := do
  match ← kind with
  | .braceR => return .done (← closeCase parts)
  | .kwCase | .kwDefault => return .more (← openCase rules parts)
  | _ =>
    match parts.current with
    | some current => do
      let statement ← rules.statement true false
      let current := { current with consequent := statement :: current.consequent }
      return .more { parts with current := some current }
    | none => unexpected

/-- Each statement belongs to the case that is open. -/
theorem caseTurn_places {parts : SwitchParts} (opened : (parts.load setting.source first).fact) :
    PlacesAs setting ((parts.load setting.source first).hand first) (caseTurn rules parts)
      (Turn.load (SwitchParts.load setting.source first) SwitchParts.closed) := by
  refine .step fun _ => ?_
  split
  · exact .bind (closeCase_places opened) fun _ made => .conclude made.fact
  · exact .bind (openCase_places placed opened) fun _ made => .conclude made.fact
  · exact .bind (openCase_places placed opened) fun _ made => .conclude made.fact
  · split
    · next current same =>
        obtain ⟨row, opened⟩ := opened
        replace opened := opened current same
        rw [SwitchParts.hand_open same]
        refine .read (placed.statement true false) fun statement known => .conclude ⟨row, ?_⟩
          (by simp [CaseParts.parts])
        rintro _ ⟨rfl⟩
        have longer := opened.row.concat fun other inside => known.after statement List.mem_cons_self
          other (List.mem_append_right _ (by simpa [CaseParts.parts] using inside))
        refine ⟨opened.later, opened.seam, fun node inside => ?_, by simpa using longer, opened.after⟩
        rcases List.mem_append.mp inside with former | latter
        · exact opened.starts node (List.mem_append_left _ former)
        · rcases List.mem_cons.mp latter with rfl | former
          · exact known.passed _ List.mem_cons_self _ List.mem_cons_self
          · exact opened.starts node (List.mem_append_right _ former)
    · exact .unexpected

/-- The cases of a switch are made in their places. -/
theorem switchCases_places : PlacesAs setting { first := first } (switchCases rules) row := by
  have cases : PlacesAs setting { first := first } (loop ({} : SwitchParts) (caseTurn rules))
      SwitchParts.closed :=
    .loopAs (SwitchParts.load setting.source first) (fun _ => caseTurn_places placed) ⟨.nil, nofun⟩
  exact .bind cases fun _ made => .step fun _ => .conclude made.fact

/-- A switch is made in its place. -/
theorem switchStatement_places : Places setting { first := mark.pos } (switchStatement rules mark) :=
  .step fun _ => .read (parenExpression_places placed) fun _ _ => .step fun _ =>
    .read (labeled_places (switchCases_places placed)) fun _ known =>
      .finish (known.extend (.single _) known.fact)

end Switch

end Grammar

end EcmaSyntax
