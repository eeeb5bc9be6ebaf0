import EcmaSyntax.Proofs.Grammar.Build
import EcmaSyntax.Proofs.Yield.Forms

namespace EcmaSyntax

namespace Grammar

open Lexer (View Frame)

/-- What a rule may rely on. Most rules stand in no tag; the rule for the value of an attribute
does. -/
def Goal.before (setting : Setting) (frame : Frame) : Goal → View
  | .atom => fun kind contexts =>
    (frame.Calm ∨ kind = .string ∨ kind = .jsxTagStart) ∧ setting.over frame kind contexts
  | .element _ => Lexer.Tagged setting.jsx frame
  | .operators left _ _ _ =>
    With (frame.Calm ∧ Spelled setting.source left) (setting.over frame)
  | _ => With frame.Calm (setting.over frame)

/-- What a rule promises of its result: statements and expressions can be quoted if they are
strings. -/
def Goal.after (setting : Setting) (frame : Frame) : (goal : Goal) → goal.Result → View
  | .statement .. => setting.directs (setting.over frame)
  | .declared _ => setting.directs (setting.over frame)
  | .assignment .. => fun cover => setting.spelled (setting.over frame) cover.value
  | .unary => fun cover => setting.spelled (setting.over frame) cover.value
  | .atom => fun cover => setting.spelled (setting.over frame) cover.value
  | .operators .. => setting.spelled (setting.over frame)
  | .element _ => setting.spelled (setting.over frame)
  | _ => fun _ => setting.over frame

/-- Rules keep their promises in every frame. A trial of one can be taken back. -/
structure Rules.Sound (setting : Setting) (rules : Rules) : Prop where
  leads : ∀ goal frame,
    Leads setting (goal.before setting frame) (rules goal) (goal.after setting frame)
  lawful : rules.Lawful .jumping

variable {setting : Setting} {frame : Frame} {view before : View} {rules : Rules}

/-- An expression with nothing pending is settled without reading tokens. -/
theorem settle_leads {cover : Cover Node} :
    Leads setting (setting.spelled view cover.value) cover.settle (setting.spelled view) := by
  unfold Cover.settle
  split
  · exact .unexpectedAt
  · exact .give fun _ _ met => met

/-- What no rule is relied on for. -/
theorem settle_plain {α : Type} {cover : Cover α} :
    Leads setting view cover.settle fun _ => view := by
  unfold Cover.settle
  split
  · exact .unexpectedAt
  · exact .pure

section Circle

variable (sound : rules.Sound setting)

include sound

/-- An element keeps to its frame, as the rules promise. -/
theorem element_spelled {mark : Mark} :
    Leads setting (Lexer.Tagged setting.jsx frame) (rules (.element mark))
      (setting.spelled (setting.over frame)) := sound.leads (.element mark) frame

variable (calm : frame.Calm)

include calm

/-- A statement keeps to its frame; if it is a string, it may direct the code after it. -/
theorem statement_directs {declaration topLevel : Bool} :
    Leads setting (setting.over frame) (rules.statement declaration topLevel)
      (setting.directs (setting.over frame)) :=
  (sound.leads (.statement declaration topLevel) frame).weaken fun _ _ passing => ⟨calm, passing⟩

/-- A statement keeps to its frame. -/
theorem statement_leads {declaration topLevel : Bool} :
    Leads setting (setting.over frame) (rules.statement declaration topLevel)
      fun _ => setting.over frame := (statement_directs sound calm).plain

/-- An expression keeps to its frame, also in parentheses. -/
theorem inParens_spelled {noIn inParens : Bool} :
    Leads setting (setting.over frame) (rules (.assignment noIn inParens))
      fun cover => setting.spelled (setting.over frame) cover.value :=
  (sound.leads (.assignment noIn inParens) frame).weaken fun _ _ passing => ⟨calm, passing⟩

/-- An expression that may still become a pattern keeps to its frame. -/
theorem cover_spelled {noIn : Bool} :
    Leads setting (setting.over frame) (rules.cover noIn)
      fun cover => setting.spelled (setting.over frame) cover.value :=
  inParens_spelled sound calm

theorem cover_leads {noIn : Bool} :
    Leads setting (setting.over frame) (rules.cover noIn) fun _ => setting.over frame :=
  (cover_spelled sound calm).plain

/-- An expression without commas keeps to its frame, and can be quoted if it is a string. -/
theorem assignment_spelled {noIn : Bool} :
    Leads setting (setting.over frame) (rules.assignment noIn)
      (setting.spelled (setting.over frame)) :=
  (cover_spelled sound calm).bind fun _ => settle_leads

/-- An expression without commas keeps to its frame. -/
theorem assignment_leads {noIn : Bool} :
    Leads setting (setting.over frame) (rules.assignment noIn) fun _ => setting.over frame :=
  (assignment_spelled sound calm).plain

/-- An operand keeps to its frame. -/
theorem operand_spelled :
    Leads setting (setting.over frame) rules.operand (setting.spelled (setting.over frame)) :=
  Leads.bind ((sound.leads .unary frame).weaken fun _ _ passing => ⟨calm, passing⟩) fun _ =>
    settle_leads

/-- An expression that no operator takes apart keeps to its frame. -/
theorem atom_leads :
    Leads setting (setting.over frame) rules.atom fun _ => setting.over frame :=
  (Leads.bind ((sound.leads .atom frame).weaken fun _ _ passing => ⟨.inl calm, passing⟩)
    fun _ => settle_leads).plain

/-- What binds names keeps to its frame. -/
theorem binding_leads :
    Leads setting (setting.over frame) rules.binding fun _ => setting.over frame :=
  (sound.leads .binding frame).weaken fun _ _ passing => ⟨calm, passing⟩

/-- A type keeps to its frame. -/
theorem type_leads :
    Leads setting (setting.over frame) rules.type fun _ => setting.over frame :=
  (sound.leads .type frame).weaken fun _ _ passing => ⟨calm, passing⟩

theorem prefixType_leads :
    Leads setting (setting.over frame) (rules .prefixType) fun _ => setting.over frame :=
  (sound.leads .prefixType frame).weaken fun _ _ passing => ⟨calm, passing⟩

theorem primaryType_leads :
    Leads setting (setting.over frame) (rules .primaryType) fun _ => setting.over frame :=
  (sound.leads .primaryType frame).weaken fun _ _ passing => ⟨calm, passing⟩

/-- A declaration of what is defined elsewhere keeps to its frame. -/
theorem declared_directs {mark : Mark} :
    Leads setting (setting.over frame) (rules (.declared mark))
      (setting.directs (setting.over frame)) :=
  (sound.leads (.declared mark) frame).weaken fun _ _ passing => ⟨calm, passing⟩

end Circle

end Grammar

end EcmaSyntax
