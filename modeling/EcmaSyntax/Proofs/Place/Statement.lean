import EcmaSyntax.Grammar.Statement.Basic
import EcmaSyntax.Proofs.Place.Control
import EcmaSyntax.Proofs.Place.Module
import EcmaSyntax.Proofs.Yield.Statement

namespace EcmaSyntax

namespace Grammar

variable {setting : Setting} {rules : Rules} {first : Nat} {mark : Mark} {node : Node}

/-- A statement of one token is made in its place. -/
theorem tokenStatement_places {form : Form} (leaf : form.parts = []) :
    Places setting { first := mark.pos } (tokenStatement mark form) :=
  .pass fun _ => (PlacesAs.finishLeaf rfl leaf rfl rfl (by simp)).ofLeaf

/-- A statement for a debugger is made in its place. -/
theorem debuggerStatement_places : Places setting { first := mark.pos } (debuggerStatement mark) :=
  .pass fun _ => .step fun _ => .finish

/-- An import or export is refused in its place. -/
theorem checkModuleItem_places {topLevel : Bool} (seam : setting.source.Seam mark.pos) :
    Places setting { first := first } (checkModuleItem mark topLevel) := by
  have inModule {first : Nat} : Places setting { first := first } (do
      if !(← read).isModule then raise mark.pos .moduleItemInScript) :=
    .step fun _ => .ite (fun _ => .raise seam) fun _ => .pure
  exact .step fun _ => .ite (fun _ => .guard (fun _ => .raise seam) inModule) fun _ => .pure

/-- Where the parse turns back, what is held stays as it was. -/
theorem orTurnBack_places {look : Parse Bool} [reads : Reads look] {action : Parse (Option Node)}
    (places : Places setting { first := first } action) :
    Places setting { first := first } (orTurnBack look action) where
  gives frame state holds value after ends := by
    rw [orTurnBack_eq] at ends
    split at ends
    · next middle found =>
        have leads := holds.leads (reads.keeps holds.keeps _ _ found)
          (reads.onward holds.keeps.sited _ _ found)
        obtain ⟨fact, made⟩ := places.gives frame middle leads.holds value after ends
        exact ⟨fact, leads.trans holds made (Nat.le_refl _)
          (holds.since_le_since leads.onward (Nat.le_refl _) fun begun => begun)⟩
    · cases ends
      exact ⟨trivial, holds.leads holds.keeps (.refl _)⟩
    · cases ends
  fails frame state holds failure last failed := by
    rw [orTurnBack_eq] at failed
    split at failed
    · next middle found =>
        have onward := reads.onward holds.keeps.sited _ _ found
        have later := holds.later (reads.keeps holds.keeps _ _ found) onward
        obtain ⟨placed, grown⟩ := places.fails frame middle later failure last failed
        exact ⟨placed, onward.toGrown.trans grown⟩
    · cases failed
    · next found =>
        cases failed
        exact Strays.reads holds.keeps.sited _ _ found

variable (placed : rules.Placed setting)

include placed

/-- An asynchronous function is declared in its place. -/
theorem asyncDeclaration?_places :
    Places setting { first := mark.pos } (asyncDeclaration? rules mark) := by
  refine .step fun _ => .ite (fun _ => ?_) fun _ => .pure
  have turned : Places setting { first := mark.pos } (orTurnBack (do
      next
      return (← atKind .kwFunction) && !(← mayEndStatement)) (do
      next
      return some (← functionTail rules mark true true false))) :=
    orTurnBack_places (.step fun _ => .bind (functionTail_places placed) fun _ _ => .pure)
  simpa only [orTurnBack, bind_assoc, pure_bind] using turned

/-- A declaration that begins with a mere word is made in its place. -/
theorem wordDeclaration?_places :
    Places setting { first := mark.pos } (wordDeclaration? rules mark node) := by
  refine .step fun _ => .ite (fun _ => .step fun kind => ?_) fun _ => .pure
  split
  · exact .ite (fun _ => .bind (placed.declared mark) fun _ _ => .pure) fun _ => .pure
  · exact .ite (fun _ => .bind (interfaceTail_places placed) fun _ _ => .pure) fun _ => .pure
  · exact .ite (fun _ => .bind (typeAliasTail_places placed) fun _ _ => .pure) fun _ => .pure
  · exact .pure

/-- An expression that is a statement is made in its place. -/
theorem expressionStatement_places : Places setting { first := mark.pos, given := [node] }
    (expressionStatement rules mark node) := by
  refine .call [node] (wordDeclaration?_places placed) fun declaration? _ => ?_
  split
  · next declaration _ => exact .drop [declaration] [node] .pure
  · exact .step fun _ => .finish

/-- A statement that begins with an expression or a word is made in its place. -/
theorem plainStatement_places : Places setting { first := mark.pos } (plainStatement rules mark) := by
  refine .step fun startsWithName => .step fun name => .read (expression_places placed)
    fun inner _ => ?_
  have choice (isLabel : Bool) : Places setting { first := mark.pos, given := [inner] } (do
      if isLabel then labeledStatement rules mark name inner
      else expressionStatement rules mark inner) :=
    .ite (fun _ => labeledStatement_places placed) fun _ => expressionStatement_places placed
  exact .ite (fun _ => .step fun isLabel => .last (choice isLabel)) fun _ =>
    .value (.last (choice false))

/-- A statement is made in its place after its decorators. -/
theorem undecoratedStatement_places {declaration topLevel : Bool} :
    Places setting { first := first } (undecoratedStatement rules declaration topLevel) := by
  refine .onMark fun mark => .step fun kind => .held fun known => ?_
  split
  · exact jumpStatement_places
  · exact jumpStatement_places
  · exact debuggerStatement_places
  · exact doWhileStatement_places placed
  · exact forStatement_places placed
  · exact .ite (fun _ => .step fun _ => functionTail_places placed) fun _ => .unexpected
  · exact .ite (fun _ => .bind takeDecorators_places fun _ made =>
      .last (classTail_places placed made.fact)) fun _ => .unexpected
  · exact ifStatement_places placed
  · exact returnStatement_places placed
  · exact switchStatement_places placed
  · exact throwStatement_places placed
  · exact tryStatement_places placed
  · exact variableStatement_places placed
  · exact .ite (fun _ => variableStatement_places placed) fun _ => .unexpected
  · exact .ite (fun _ => variableStatement_places placed) fun _ => .unexpected
  · exact whileStatement_places placed
  · exact withStatement_places placed
  · exact block_places placed
  · exact tokenStatement_places rfl
  · exact .check (checkModuleItem_places known.first) fun _ => exportStatement_places placed
  · exact .check (checkModuleItem_places known.first) fun _ => importStatement_places
  · refine .bind (asyncDeclaration?_places placed) fun declaration? _ => ?_
    split
    · exact .pure
    · exact .last (plainStatement_places placed)

/-- A class or an export takes the decorators that wait. -/
theorem undecoratedStatement_empties {declaration topLevel : Bool} {frame : List Finished}
    {state : State} (holds : ({ first := state.lexer.start } : Hand).In setting frame state)
    (follows : state.lexer.kind = .kwClass ∨ state.lexer.kind = .kwExport) :
    Gives (undecoratedStatement rules declaration topLevel) setting state
      fun _ after => after.decorators = [] := by
  rw [undecoratedStatement, Gives.bind_iff, gives_mark, Gives.bind_iff, gives_kind]
  rcases follows with atClass | atExport
  · rw [atClass]
    exact gives_ite (fun _ => takenClass_empties placed holds) fun _ _ _ absent => by cases absent
  · rw [atExport]
    exact Gives.last fun _ _ => exportStatement_empties

/-- Every statement is made in its place. -/
theorem statement_places {declaration topLevel : Bool} :
    Places setting { first := first } (statement rules declaration topLevel) := by
  have named {first : Nat} : Places setting { first := first } (do
      let mark ← Grammar.mark
      next
      interfaceTail rules mark) := .onMark fun _ => .step fun _ => interfaceTail_places placed
  exact .nested (.step fun _ => .step fun _ => .step fun _ => .ite (fun _ => named) fun _ =>
    .step fun _ => .ite (fun _ => decorated_places placed (undecoratedStatement_places placed)
      (undecoratedStatement_empties placed)) fun _ => undecoratedStatement_places placed)

end Grammar

end EcmaSyntax
