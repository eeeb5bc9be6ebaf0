import EcmaSyntax.Grammar.Target
import EcmaSyntax.Proofs.Grammar.Build

namespace EcmaSyntax

namespace Grammar

open Lexer (View)

variable {setting : Setting} {view : View}

theorem castToParameter_leads {node : Node} :
    Leads setting view (castToParameter node) fun _ => view := by
  unfold castToParameter
  split
  · exact .guard (fun _ => .unexpectedAt) attach_leads
  · exact .pure

theorem castsToParameters_leads (nodes : List Node) :
    Leads setting view (nodes.forM castToParameter) fun _ => view := by
  induction nodes with
  | nil => exact .pure
  | cons node rest inductionHypothesis =>
      exact castToParameter_leads.bind fun _ => inductionHypothesis

theorem refuseMethod_leads {property : Node} :
    Leads setting view (refuseMethod property) fun _ => view := by
  unfold refuseMethod
  split
  · exact .ite (fun _ => .raise) fun _ => .raise
  · exact .pure

theorem checkRest_leads {argument : Node} :
    Leads setting view (checkRest argument) fun _ => view := by
  unfold checkRest
  split
  · exact .pure
  · exact .pure
  · exact .pure
  · exact .unexpectedAt

mutual

/-- An expression turns into a target without reading tokens. The cases are those by which a form
becomes a target. -/
theorem toTarget_leads (isBinding : Bool) (node : Node) :
    Leads setting view (toTarget isBinding node) fun _ => view := by
  rw [toTarget]
  exact .look fun types =>
    .guard (fun _ => castToParameter_leads) (formToTarget_leads isBinding (node.prepared types))
termination_by (sizeOf node.form, 1)
decreasing_by
  rcases Nat.lt_or_eq_of_le (node.sizeOf_form_prepared types) with less | same
  · exact Prod.Lex.left _ _ less
  · rw [same]
    exact Prod.Lex.right _ (by decide)

theorem formToTarget_leads (isBinding : Bool) (node : Node) :
    Leads setting view (formToTarget isBinding node) fun _ => view := by
  rw [formToTarget]
  split
  · exact .pure
  · exact .pure
  · exact .pure
  · exact .pure
  · next properties annot same =>
      have smaller : sizeOf properties < sizeOf node.form := by
        rw [same]
        simp
        omega
      exact (propertiesToTargets_leads isBinding properties).bind fun _ => .pure
  · next method shorthand computed decorators key value same =>
      have smaller : sizeOf value.form < sizeOf node.form := by
        have := value.sizeOf_form_lt
        rw [same]
        simp
        omega
      exact (toTarget_leads isBinding value).bind fun _ => .pure
  · exact .pure
  · next elements annot same =>
      have smaller : sizeOf elements < sizeOf node.form := by
        rw [same]
        simp
        omega
      exact (elementsToTargets_leads isBinding elements).bind fun _ => .pure
  · exact .ite (fun _ => .pure) fun _ => .raise
  · exact .ite (fun _ => .raise) fun _ => .pure
  · exact .raise
termination_by (sizeOf node.form, 0)
decreasing_by all_goals exact Prod.Lex.left _ _ ‹_›

/-- The properties of an object turn into targets without reading tokens. -/
theorem propertiesToTargets_leads (isBinding : Bool) (properties : List Node) :
    Leads setting view (propertiesToTargets isBinding properties) fun _ => view := by
  cases properties with
  | nil =>
      rw [propertiesToTargets]
      exact .pure
  | cons property rest =>
      rw [propertiesToTargets]
      exact refuseMethod_leads.bind fun _ => (toTarget_leads isBinding property).bind fun _ =>
        (propertiesToTargets_leads isBinding rest).bind fun _ => .pure
termination_by (sizeOf properties, 0)
decreasing_by
  · have := property.sizeOf_form_lt
    exact Prod.Lex.left _ _ (by simp only [List.cons.sizeOf_spec]; omega)
  · exact Prod.Lex.left _ _ (by simp only [List.cons.sizeOf_spec]; omega)

/-- The elements of an array turn into targets without reading tokens. -/
theorem elementsToTargets_leads (isBinding : Bool) (elements : List (Option Node)) :
    Leads setting view (elementsToTargets isBinding elements) fun _ => view := by
  rw [elementsToTargets]
  refine .look fun types => .guard (fun _ => castsToParameters_leads _) ?_
  split
  · next last closes =>
      split
      · next argument same =>
          have smaller : sizeOf argument.form < sizeOf elements := by
            have inside := List.sizeOf_lt_of_mem (List.mem_of_getLast? closes)
            have form := last.sizeOf_form_lt
            have prepared := last.sizeOf_form_prepared types
            have below := argument.sizeOf_form_lt
            rw [same] at prepared
            simp at inside prepared
            omega
          exact (toTarget_leads isBinding argument).bind fun _ => checkRest_leads.bind fun _ =>
            slotsToTargets_leads isBinding types _ elements
      · exact slotsToTargets_leads isBinding types _ elements
      · exact slotsToTargets_leads isBinding types _ elements
  · exact slotsToTargets_leads isBinding types _ elements
termination_by (sizeOf elements, 1)
decreasing_by
  · exact Prod.Lex.left _ _ ‹_›
  all_goals exact Prod.Lex.right _ (by decide)

/-- The items of a list turn into targets without reading tokens, the last one also if it is
spread. -/
theorem slotsToTargets_leads (isBinding types : Bool) (closing : Option Node)
    (elements : List (Option Node)) :
    Leads setting view (slotsToTargets isBinding types closing elements) fun _ => view := by
  match elements with
  | [] =>
      rw [slotsToTargets]
      exact .pure
  | none :: rest =>
      rw [slotsToTargets]
      exact .ite (fun _ => .pure) fun _ =>
        (slotsToTargets_leads isBinding types closing rest).bind fun _ => .pure
  | some node :: rest =>
      rw [slotsToTargets]
      exact .ite (fun _ => .pure) fun _ =>
        (formToTarget_leads isBinding (node.prepared types)).bind fun _ =>
          (slotsToTargets_leads isBinding types closing rest).bind fun _ => .pure
termination_by (sizeOf elements, 0)
decreasing_by
  · exact Prod.Lex.left _ _ (by simp only [List.cons.sizeOf_spec]; omega)
  · have := node.sizeOf_form_lt
    have := node.sizeOf_form_prepared types
    exact Prod.Lex.left _ _
      (by simp only [List.cons.sizeOf_spec, Option.some.sizeOf_spec]; omega)
  · exact Prod.Lex.left _ _ (by simp only [List.cons.sizeOf_spec]; omega)

end

/-- The items in parentheses turn into parameters without reading tokens. -/
theorem toParameters_leads {expressions : List Node} :
    Leads setting view (toParameters expressions) fun _ => view :=
  (elementsToTargets_leads true _).bind fun _ => .pure

theorem orRaise_leads {α : Type} {result : Except Refusal α} :
    Leads setting view (orRaise result) fun _ => view := by
  unfold orRaise
  split
  · exact .pure
  · exact .raise

instance (isBinding : Bool) : Looks (targetRule isBinding) := .bind inferInstance fun _ => .tell

/-- What is assigned to is checked without reading tokens. -/
theorem checkAssigned_leads {node : Node} :
    Leads setting view (checkAssigned node) fun _ => view :=
  .look fun _ => orRaise_leads.bind fun _ => .pure

/-- What is bound is checked without reading tokens. -/
theorem checkBound_leads {node : Node} :
    Leads setting view (checkBound node) fun _ => view :=
  .look fun _ => orRaise_leads.bind fun _ => .pure

/-- Names are checked for being bound once without reading tokens. -/
theorem checkBoundOnce_leads {node : Node} :
    Leads setting view (checkBoundOnce node) fun _ => view :=
  .look fun _ => orRaise_leads.bind fun _ => .pure

/-- References are checked without reading tokens. -/
theorem checkReferenced_leads {nodes : List Node} :
    Leads setting view (checkReferenced nodes) fun _ => view := by
  refine .look fun _ => .ite (fun _ => ?_) fun _ => .pure
  induction nodes with
  | nil => exact .pure
  | cons node rest inductionHypothesis =>
      refine .via view ?_ fun _ => inductionHypothesis
      beta_reduce
      split
      · exact .raise
      · exact .pure

end Grammar

end EcmaSyntax
