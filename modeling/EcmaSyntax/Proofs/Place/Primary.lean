import EcmaSyntax.Grammar.Expression.Primary
import EcmaSyntax.Proofs.Place.Class
import EcmaSyntax.Proofs.Place.Element
import EcmaSyntax.Proofs.Place.Parenthesis

namespace EcmaSyntax

namespace Grammar

variable {setting : Setting} {rules : Rules} {first : Nat} {mark : Mark} {node id : Node}
  {maybeArrow : Bool}

/-- An expression of one token is made in its place. -/
theorem tokenExpression_places {form : Form} (leaf : form.parts = []) :
    Places setting { first := mark.pos } (tokenExpression mark form) :=
  .pass fun _ => (PlacesAs.finishLeaf rfl leaf rfl rfl (by simp)).ofLeaf

/-- The word for the class above is made in its place. -/
theorem superExpression_places : Places setting { first := mark.pos } (superExpression mark) := by
  have rest : Places setting { first := mark.pos, past := [mark.pos] } (finish mark .superKeyword) :=
    .finish
  refine .step fun _ => .step fun _ => .held fun known => .guard (fun _ => .raise known.first) <|
    .pass fun _ => .step fun _ => ?_
  split
  · exact .guard (fun _ => .raise known.first) rest
  · exact rest
  · exact rest
  · exact .fail

/-- A property of a word is made in its place. -/
theorem metaPropertyTail_places {wanted : String} :
    Places setting { first := mark.pos, given := [node] } (metaPropertyTail mark node wanted) :=
  .read identifier_places fun property known => .guard
    (fun _ => .raise (known.sits property List.mem_cons_self).here.start)
    (.finish (known.extend (.single _) (.single _)))

/-- A regular expression is made in its place. -/
theorem regexpLiteral_places : Places setting { first := first } regexpLiteral := by
  refine .step fun state => ?_
  split
  · exact literal_places rfl
  · exact literal_places rfl

variable (placed : rules.Placed setting)

include placed

/-- What waits for something is made in its place. -/
theorem awaitTail_places : Places setting { first := mark.pos } (awaitTail rules mark) :=
  .step fun _ => .guard (fun _ => .reads) (.step fun _ => .guard (fun _ => .reads)
    (.step fun _ => .read (operand_places placed) fun _ _ => .finish))

/-- A name, or an arrow function with one parameter, is made in its place. -/
theorem nameOrArrow_places : Places setting { first := mark.pos, given := [id] }
    (nameOrArrow rules mark id maybeArrow) := by
  have choice (isArrow : Bool) : Places setting { first := mark.pos, given := [id] } (do
      if isArrow then arrowTail rules mark [id] false none else return id) :=
    .ite (fun _ => .last (arrowTail_places placed (.single id))) fun _ => .pure
  exact .step fun _ => .ite (fun _ => .step fun isArrow => choice isArrow)
    fun _ => .value (choice false)

/-- What begins with the word for asynchronous code is made in its place. -/
theorem asyncOrName_places : Places setting { first := mark.pos, given := [id] }
    (asyncOrName rules mark id maybeArrow) :=
  .step fun _ => .step fun _ => .ite
    (fun _ => .drop [] [id] (.step fun _ => functionTail_places placed))
    fun _ => .step fun _ => .ite
      (fun _ => .drop [] [id] (.read identifier_places fun param _ => .step fun _ =>
        .last (arrowTail_places placed (.single param))))
      fun _ => nameOrArrow_places placed

/-- An expression that begins with a name is made in its place. -/
theorem nameExpression_places :
    Places setting { first := mark.pos } (nameExpression rules mark maybeArrow) := by
  refine .step fun _ => .step fun _ => .step fun _ => .guard (fun _ => .reads) <| .step fun _ =>
    .step fun _ => .read identifier_places fun id _ => ?_
  split
  · exact .step fun _ => .ite (fun _ => .drop [] [id] (awaitTail_places placed))
      fun _ => .last (nameOrArrow_places placed)
  · exact .last (asyncOrName_places placed)
  · exact .last (nameOrArrow_places placed)

/-- A block that is an expression is made in its place. -/
theorem doExpression_places : Places setting { first := mark.pos } (doExpression rules mark) :=
  .step fun _ => .step fun _ => .read (enclosed_places placed) fun _ _ => .finish

/-- A function that is an expression is made in its place. -/
theorem functionExpression_places : Places setting { first := first } (functionExpression rules) := by
  refine .onMark fun mark => .read identifier_places fun word _ => ?_
  have choice (isMeta : Bool) : Places setting { first := mark.pos, given := [word] } (do
      if isMeta then metaPropertyTail mark word "sent"
      else functionTail rules mark false false false) :=
    .ite (fun _ => metaPropertyTail_places) fun _ => .drop [] [word] (functionTail_places placed)
  exact .step fun _ => .ite (fun _ => .step fun isMeta => .last (choice isMeta))
    fun _ => .value (.last (choice false))

/-- The construction of an object is made in its place. -/
theorem newExpression_places : Places setting { first := first } (newExpression rules) :=
  .onMark fun _ => .read identifier_places fun word _ => .step fun _ => .ite
    (fun _ => .last metaPropertyTail_places)
    fun _ => .drop [] [word] (.read (memberChain_places placed) fun _ _ => .step fun _ => .ite
      (fun _ => .read (plainArguments_places placed) fun _ known =>
        .finish (known.extend (.single _) known.fact)) fun _ => .value (.finish (.single _)))

/-- A class that is an expression is made in its place. -/
theorem classExpression_places : Places setting { first := first } (classExpression rules) := by
  have rest {first : Nat} : Places setting { first := first } (do
      let mark ← Grammar.mark
      let decorators ← takeDecorators
      classTail rules mark decorators false false) :=
    .onMark fun _ => .bind takeDecorators_places fun _ made => .last (classTail_places placed made.fact)
  refine .step fun _ => .ite (fun _ => decorated_places placed rest fun holds _ => ?_) fun _ => rest
  rw [Gives.bind_iff, gives_mark]
  exact takenClass_empties placed holds

/-- A call that is bound to an object is made in its place. -/
theorem bindExpression_places : Places setting { first := mark.pos } (bindExpression rules mark) := by
  refine .step fun _ => .read (memberChain_places placed) fun callee known => ?_
  split
  · exact .finish
  · exact .raise (known.sits callee List.mem_cons_self).here.start

/-- An expression that begins neither with a string nor with a tag is made in its place. -/
theorem plainPrimary_places : Places setting { first := first } (plainPrimary rules) := by
  refine .onMark fun mark => .step fun _ => .step fun kind => ?_
  split
  · exact superExpression_places
  · exact tokenExpression_places rfl
  · exact nameExpression_places placed
  · exact nameExpression_places placed
  · exact doExpression_places placed
  · exact regexpLiteral_places
  · exact numberLiteral_leaf.ofLeaf
  · exact stringLiteral_leaf.ofLeaf
  · exact tokenExpression_places rfl
  · exact tokenExpression_places rfl
  · exact tokenExpression_places rfl
  · exact parentheses_places placed
  · exact functionExpression_places placed
  · exact classExpression_places placed
  · exact classExpression_places placed
  · exact newExpression_places placed
  · exact template_places placed
  · exact bindExpression_places placed
  · exact .unexpected

/-- Every expression that no operator takes apart is made in its place. -/
theorem primary_places : Places setting { first := first } (primary rules) := by
  refine .step fun kind => ?_
  split
  · exact arrayLiteral_places placed
  · exact object_places placed
  · exact .bind textChild_places fun _ _ => .pure
  · exact .onMarkBegun fun mark => .step fun _ => .bind (placed.element mark) fun _ _ => .pure
  · exact .bind (plainPrimary_places placed) fun _ _ => .pure

end Grammar

end EcmaSyntax
