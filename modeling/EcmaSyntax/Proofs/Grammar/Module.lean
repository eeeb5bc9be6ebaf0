import EcmaSyntax.Grammar.Statement.Module
import EcmaSyntax.Proofs.Grammar.Class

namespace EcmaSyntax

namespace Grammar

open Lexer (View Frame)

variable {setting : Setting} {frame : Frame} {view : View} {rules : Rules} {α : Type}

section Shared

/-- The items stand between braces. -/
theorem bracedItems_leads {item : Parse α}
    (leads : Leads setting (setting.over frame.inner) item fun _ => setting.over frame.inner) :
    Leads setting (setting.over frame) (bracedItems item) fun _ => setting.over frame := by
  have closes : Leads setting (Here .braceR (setting.over frame.inner)) next
      fun _ => setting.over frame := next_closed (.inr rfl)
  refine (expect_open (.inr rfl)).bind fun _ => .loops fun ⟨first, items⟩ => ?_
  exact .ifEat closes .done (.separated closes .done (leads.bind fun _ => .more))

/-- An exported class is given its decorators without reading tokens. -/
theorem giveDecorators_leads {pos : Nat} {declaration : Option Node} :
    Leads setting view (giveDecorators pos declaration) fun _ => view := by
  refine .look fun _ => .ite (fun _ => .pure) fun _ => ?_
  split
  · exact .raise
  · split
    · exact takeDecorators_leads.bind fun _ => .pure
    · exact takeDecorators_leads.bind fun _ => .pure
    · exact .raise

/-- The name of a module keeps to its frame. -/
theorem moduleName_leads :
    Leads setting (setting.over frame) moduleName fun _ => setting.over frame :=
  .ifAt stringLiteral_spelled.plain .unexpected

end Shared

section Export

/-- The source of an export keeps to its frame. -/
theorem exportSource_leads {pos : Nat} {needed : Bool} :
    Leads setting (setting.over frame) (exportSource pos needed)
      fun _ => setting.over frame := by
  refine eatWord_leads.bind fun _ => .ite (fun _ => ?_) fun _ => .ite (fun _ => .fail) fun _ => ?_
  · exact moduleName_leads.bind fun _ => giveDecorators_leads.bind fun _ => .bind .pure fun _ =>
      endStatement_leads.bind fun _ => .pure
  · exact .bind .pure fun _ => endStatement_leads.bind fun _ => .pure

/-- A name that is exported keeps to its frame. -/
theorem exportSpecifier_leads :
    Leads setting (setting.over frame) exportSpecifier fun _ => setting.over frame := by
  refine .look fun mark => .look fun isDefault => identifier_leads.bind fun localName => ?_
  refine eatWord_leads.bind fun _ => ?_
  refine .choose (.ite (fun _ => identifier_leads) fun _ => duplicate_leads) fun _ => ?_
  exact finish_leads.bind fun _ => .pure

/-- A list of exported names keeps to its frame. -/
theorem exportSpecifiers_leads :
    Leads setting (setting.over frame) exportSpecifiers fun _ => setting.over frame :=
  (bracedItems_leads exportSpecifier_leads).bind fun _ => .look fun _ =>
    .guard (fun _ => .unexpected) .pure

/-- What follows an exported default keeps to its frame. -/
theorem moreSpecifiers_leads :
    Leads setting (setting.over frame) moreSpecifiers fun _ => setting.over frame :=
  .ifEat (next_here rfl) exportSpecifiers_leads .pure

/-- A name for all that is exported keeps to its frame. -/
theorem namespaceSpecifier_leads {mark : Mark} :
    Leads setting (setting.over frame) (namespaceSpecifier mark) fun _ => setting.over frame :=
  identifier_leads.bind fun _ => finish_leads

/-- Whether a default is exported from elsewhere is seen without reading tokens. -/
theorem takesExportDefault_leads : Leads setting view takesExportDefault fun _ => view := by
  refine .onKind fun current => .here ?_
  split
  · exact .look fun _ => .look fun _ => .pure
  · exact lookahead_leads.bind fun _ => .pure
  · exact .pure

/-- If more names follow, there is a comma before them. -/
theorem allFollow_leads :
    Leads setting (setting.over frame) allFollow
      fun follow kind contexts => (follow = true → kind = .comma) ∧
        setting.over frame kind contexts := by
  refine .ifAt (lookahead_leads.bind fun _ => .give ?_) (.give ?_)
  · exact fun _ _ here => ⟨fun _ => here.1, here.2⟩
  · exact fun _ _ passing => ⟨fun follow => absurd follow (by decide), passing⟩

/-- An export of names is built without reading tokens. -/
theorem exportNamed_quiet {mark : Mark} {parts : ExportParts} :
    Leads setting view (exportNamed mark parts) (Quiet view) :=
  giveDecorators_leads.bind fun _ => .look fun _ => finish_quiet rfl

/-- A default that is exported from elsewhere keeps to its frame. -/
theorem exportDefaultFrom_leads {mark : Mark} :
    Leads setting (setting.over frame) (exportDefaultFrom mark) fun _ => setting.over frame := by
  refine .look fun _ => identifier_leads.bind fun _ => finish_leads.bind fun _ => ?_
  refine allFollow_leads.bind fun follow => .ite (fun known => ?_) fun _ => ?_
  · refine Leads.weaken (?_ : Leads setting (Here .comma (setting.over frame)) _ _)
      fun _ _ found => ⟨found.1 known, found.2⟩
    exact (next_here rfl).bind fun _ => .look fun _ => (expect_leads rfl).bind fun _ =>
      expectWord_leads.bind fun _ => namespaceSpecifier_leads.bind fun _ => .bind .pure fun _ =>
        exportSource_leads.bind fun _ => .pure
  · refine Leads.weaken (?_ : Leads setting (setting.over frame) _ _) fun _ _ found => found.2
    exact moreSpecifiers_leads.bind fun _ => exportSource_leads.bind fun _ => .pure

/-- Whether a declaration follows is seen without reading tokens. -/
theorem declarationFollows_leads : Leads setting view declarationFollows fun _ => view :=
  .look fun _ => .look fun _ => .look fun _ => .look fun _ => .pure

/-- An export of everything keeps to its frame. -/
theorem exportAll_quiet {mark : Mark} :
    Leads setting (setting.passable frame) (exportAll mark) (Quiet (setting.over frame)) := by
  refine .look fun _ => next_leads.bind fun _ => eatWord_leads.bind fun _ => ?_
  refine .ite (fun _ => ?_) fun _ => exportSource_leads.bind fun source => ?_
  · exact namespaceSpecifier_leads.bind fun _ => moreSpecifiers_leads.bind fun _ =>
      exportSource_leads.bind fun _ => exportNamed_quiet
  · split
    · exact finish_quiet rfl
    · exact .unexpected

variable (sound : rules.Sound setting) (calm : frame.Calm)

include sound calm

/-- An export of types keeps to its frame. -/
theorem exportType_leads {mark : Mark} :
    Leads setting (setting.passable frame) (exportType rules mark)
      fun _ => setting.over frame := by
  refine .look fun _ => next_leads.bind fun _ => .ifAt (.here ?_) ?_
  · exact exportSpecifiers_leads.bind fun _ => exportSource_leads.bind fun _ => .pure
  · exact (typeAliasTail_quiet sound calm).plain.bind fun _ => .pure

/-- An exported declaration keeps to its frame. -/
theorem exportDeclared_leads {mark : Mark} :
    Leads setting (setting.over frame) (exportDeclared rules mark)
      fun _ => setting.over frame := by
  refine .look fun types => .testWord fun isType => .ite (fun known => ?_) fun _ => .anyway ?_
  · exact .found (Bool.and_eq_true_iff.mp known).2 ((exportType_leads sound calm).enter rfl)
  · exact (statement_leads sound calm).bind fun _ => .pure

/-- What is exported as the default keeps to its frame. -/
theorem exportedDefault_leads :
    Leads setting (setting.over frame) (exportedDefault rules) fun _ => setting.over frame := by
  refine .look fun mark => .ifEat (next_here rfl) (functionTail_quiet sound calm).plain ?_
  refine .ifAt ((classTail_quiet sound calm).plain.enter rfl) ?_
  exact (assignment_leads sound calm).bind fun _ => endStatement_leads.bind fun _ => .pure

/-- An export of a default keeps to its frame. -/
theorem exportDefault_quiet {mark : Mark} :
    Leads setting (setting.over frame) (exportDefault rules mark) (Quiet (setting.over frame)) :=
  (exportedDefault_leads sound calm).bind fun _ => giveDecorators_leads.bind fun _ =>
    finish_quiet rfl

/-- Every export keeps to its frame. -/
theorem exportStatement_quiet {mark : Mark} :
    Leads setting (setting.passable frame) (exportStatement rules mark)
      (Quiet (setting.over frame)) := by
  refine next_leads.bind fun _ => .ifAt (exportAll_quiet.enter rfl) ?_
  refine takesExportDefault_leads.bind fun _ => .ite (fun _ => ?_) fun _ => ?_
  · exact exportDefaultFrom_leads.bind fun _ => exportNamed_quiet
  refine .ifEat (next_here rfl) (exportDefault_quiet sound calm) ?_
  refine declarationFollows_leads.bind fun _ => .ite (fun _ => ?_) fun _ => ?_
  · exact (exportDeclared_leads sound calm).bind fun _ => exportNamed_quiet
  · exact exportSpecifiers_leads.bind fun _ => exportSource_leads.bind fun _ => exportNamed_quiet

end Export

section Import

/-- A name that is imported keeps to its frame. -/
theorem importedName_leads :
    Leads setting (setting.over frame) importedName fun _ => setting.over frame :=
  identifier_leads.bind fun _ => checkBound_leads.bind fun _ => .pure

/-- A name that is imported under another one keeps to its frame. -/
theorem importSpecifier_leads :
    Leads setting (setting.over frame) importSpecifier fun _ => setting.over frame := by
  refine .look fun mark => identifier_leads.bind fun imported => eatWord_leads.bind fun _ => ?_
  refine .choose (.ite (fun _ => identifier_leads) fun _ => duplicate_leads) fun _ => ?_
  exact checkBound_leads.bind fun _ => finish_leads

/-- A group of imported names keeps to its frame. -/
theorem importGroup_leads :
    Leads setting (setting.over frame) importGroup fun _ => setting.over frame := by
  refine .ifAt (.look fun _ => (next_here rfl).bind fun _ => ?_)
    (bracedItems_leads importSpecifier_leads)
  exact expectWord_leads.bind fun _ => importedName_leads.bind fun _ => finish_leads.bind fun _ =>
    .pure

/-- All that is imported keeps to its frame. -/
theorem importSpecifiers_leads :
    Leads setting (setting.over frame) importSpecifiers fun _ => setting.over frame := by
  refine .ifAt (.here (.look fun _ => importedName_leads.bind fun _ => ?_)) importGroup_leads
  refine finish_leads.bind fun _ => .ifEat (next_here rfl) ?_ .pure
  exact importGroup_leads.bind fun _ => .pure

/-- A word for an import of types may be passed. -/
theorem importWord?_leads :
    Leads setting (setting.over frame) importWord?
      fun word kind contexts => (word.isSome = true → kind.isPassable = true) ∧
        setting.over frame kind contexts := by
  refine .ifAt (.give ?_) (.ifAtWord (.give ?_) (.give ?_))
  · exact fun _ _ here => ⟨fun _ => here.1 ▸ rfl, here.2⟩
  · exact fun _ _ here => ⟨fun _ => here.1 ▸ rfl, here.2⟩
  · exact fun _ _ passing => ⟨fun known => absurd known (by simp), passing⟩

/-- The word for what is imported keeps to its frame. -/
theorem importKind_leads :
    Leads setting (setting.over frame) importKind fun _ => setting.over frame := by
  refine importWord?_leads.bind fun word => ?_
  split
  · exact .give fun _ _ found => found.2
  · refine lookahead_leads.bind fun ahead => .ite (fun _ => ?_) fun _ => ?_
    · refine Leads.weaken (next_leads.bind fun _ => .pure) ?_
      exact fun _ _ found => ⟨found.1 rfl, found.2⟩
    · exact .give fun _ _ found => found.2

/-- An import keeps to its frame. -/
theorem importStatement_quiet {mark : Mark} :
    Leads setting (setting.passable frame) (importStatement mark)
      (Quiet (setting.over frame)) := by
  have ends : ∀ specifiers kind, Leads setting (setting.over frame)
      (do
        let source ← moduleName
        endStatement
        finish mark (.importDeclaration specifiers source kind)) (Quiet (setting.over frame)) :=
    fun _ _ => moduleName_leads.bind fun _ => endStatement_leads.bind fun _ => finish_quiet rfl
  refine next_leads.bind fun _ => .ifAt (.here (.bind .pure fun ⟨_, _⟩ => ends _ _)) ?_
  refine .look fun _ => .choose (.ite (fun _ => importKind_leads.map) fun _ => .pure) fun _ => ?_
  exact importSpecifiers_leads.bind fun _ => expectWord_leads.bind fun _ => .bind .pure
    fun ⟨_, _⟩ => ends _ _

end Import

end Grammar

end EcmaSyntax
