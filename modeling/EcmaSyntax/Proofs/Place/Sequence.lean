import EcmaSyntax.Grammar.Expression.Sequence
import EcmaSyntax.Proofs.Place.Function

namespace EcmaSyntax

namespace Grammar

variable {setting : Setting} {rules : Rules} {first : Nat} {mark : Mark} {node : Node}

variable (placed : rules.Placed setting)

include placed

/-- An expression that may become a pattern is made in its place. -/
theorem cover_places {noIn : Bool} : Places setting { first := first } (rules.cover noIn) :=
  placed.assignment noIn false

/-- Expressions with commas are made in their place. -/
theorem coverExpression_places {noIn : Bool} :
    Places setting { first := first } (coverExpression rules noIn) := by
  refine .onMark fun _ => .read (cover_places placed) fun begins known => .step fun _ => .ite
    (fun _ => .begun List.mem_cons_self <| .loopThen
      (fun taken : List Node × Option Nat =>
        (backward taken.1).knowing (Pending setting.source taken.2))
      (fun taken : List Node × Option Nat => (row taken.1).knowing (Pending setting.source taken.2))
      ?_ ⟨.single _, known.fact.2⟩ ?_) fun _ => .conclude known.fact
  · rintro ⟨items, pending⟩ gathered
    exact .step fun _ => .ite (fun _ => .read (cover_places placed) fun item further => .conclude
      ⟨gathered.1.gather (further.after item.value (by simp)),
        seams_orElse gathered.2 further.fact.2⟩) fun _ => .conclude gathered
  · rintro ⟨items, pending⟩ made
    exact .check (checkReferenced_places made.sits) fun _ =>
      .bind (.finish made.fact.1) fun _ _ => .conclude ⟨trivial, made.fact.2⟩

/-- An expression is made in its place. -/
theorem expression_places {noIn : Bool} :
    Places setting { first := first } (expression rules noIn) := by
  refine .onMark fun _ => .read (assignment_places placed) fun _ _ => .step fun _ => .ite
    (fun _ => .begun List.mem_cons_self <| .loopThen backward row
      (fun items gathered => .step fun _ => .ite
        (fun _ => .read (assignment_places placed) fun item known =>
          .conclude (gathered.gather (known.after item List.mem_cons_self)))
        fun _ => .conclude gathered) (.single _) fun items made => ?_) fun _ => .pure
  exact .check (checkReferenced_places made.sits) fun _ => .finish made.fact

/-- A condition in parentheses is made in its place. -/
theorem parenExpression_places : Places setting { first := first } (parenExpression rules) :=
  .step fun _ => .read (expression_places placed) fun _ _ => .step fun _ => .pure

/-- A spread is made in its place. -/
theorem spread_places : Places setting { first := first } (spread rules) :=
  .onMark fun _ => .pass fun _ => .read (cover_places placed) fun _ known => .bind .finish
    fun _ _ => .conclude ⟨trivial, known.fact.2⟩

/-- An item of a list is made in its place. -/
theorem plainListItem_places {allowHole : Bool} :
    Places setting { first := first } (plainListItem rules allowHole) :=
  .step fun _ => .ite (fun _ => .pure) fun _ => .step fun _ => .choose
    (fun _ => spread_places placed) (fun _ => cover_places placed) fun _ known =>
      .conclude known.fact

/-- An item of a list is made in its place, unless it is a hole. -/
theorem listItem_places {allowHole : Bool} :
    Places setting { first := first } (listItem rules allowHole) := by
  refine .onMark fun _ => .read (plainListItem_places placed) fun item known => .step fun _ =>
    .step fun _ => .ite (fun _ => ?_) fun _ => .conclude known.fact
  rcases item with ⟨none | inner, pending⟩
  · exact .unexpected
  · exact .read (typeAnnotation_places placed) fun annot later => .bind
      (.finishCast (later.after annot List.mem_cons_self inner List.mem_cons_self)) fun _ _ =>
        .conclude ⟨trivial, known.fact.2⟩

/-- The items of a list are made in their places. -/
theorem listItems_places {close : Kind} {allowHoles : Bool} :
    PlacesAs setting { first := first } (listItems rules close allowHoles) fun items =>
      (row (items.value.filterMap id)).knowing (Pending setting.source items.pending) := by
  refine .loopThen
    (fun taken : Bool × List (Option Node) × Option Nat =>
      (backward (taken.2.1.filterMap id)).knowing (Pending setting.source taken.2.2))
    (fun taken : List (Option Node) × Option Nat =>
      (row (taken.1.filterMap id)).knowing (Pending setting.source taken.2))
    ?_ ⟨InRow.nil, nofun⟩ fun _ made => .conclude made.fact
  rintro ⟨begins, items, pending⟩ gathered
  have done : InRow (items.reverse.filterMap id) ∧ Pending setting.source pending := by
    simpa using gathered
  have ends : PlacesAs setting { first := first, given := items.filterMap id } (do
      let item ← listItem rules allowHoles
      return Turn.more (false, item.value :: items, pending <|> item.pending) :
        Parse (Turn (Bool × List (Option Node) × Option Nat) (List (Option Node) × Option Nat)))
      (Turn.load
        (fun taken => (backward (taken.2.1.filterMap id)).knowing (Pending setting.source taken.2.2))
        fun taken => (row (taken.1.filterMap id)).knowing (Pending setting.source taken.2)) := by
    refine .read (listItem_places placed) fun item further =>
      .conclude ⟨?_, seams_orElse gathered.2 further.fact.2⟩
    cases same : item.value with
    | none => simpa using gathered.1
    | some node =>
        have longer := gathered.1.gather (further.after node (by simp [same]))
        simpa using longer
  exact .step fun _ => .ite (fun _ => .conclude done) fun _ => .ite (fun _ => .step fun _ =>
    .step fun _ => .ite (fun _ => .conclude done) fun _ => .last ends) fun _ => .last ends

/-- An array is made in its place. -/
theorem arrayLiteral_places : Places setting { first := first } (arrayLiteral rules) :=
  .onMark fun _ => .pass fun _ => .read (listItems_places placed) fun _ known =>
    .check (checkReferenced_places known.sits) fun _ =>
      .bind (.finish (by simpa [Form.Ordered, Form.children] using known.fact.1))
        fun _ _ => .conclude ⟨trivial, known.fact.2⟩

/-- The arguments of a construction are made in their places. -/
theorem plainArguments_places : PlacesAs setting { first := first } (plainArguments rules) row :=
  .bind (listItems_places placed) fun items made => .bind
    (settleAs_places (fun items : List (Option Node) => row (items.filterMap id)) made.fact.2
      (.conclude made.fact.1)) fun _ made => .check (checkReferenced_places made.sits) fun _ =>
        .conclude made.fact

omit placed in
/-- A chunk of a template is made in its place. -/
theorem templateChunk_places : Places setting { first := first } templateChunk :=
  .onMark fun _ => .step fun _ => .step fun _ => .pass fun _ => .step fun _ => .bind .finish
    fun _ _ => .pure

/-- The chunks of a template and the expressions between them come in turn. -/
structure Alternate (quasis expressions : List Node) : Prop where
  length : quasis.length = expressions.length + 1
  row : InRow (Form.interleave quasis expressions)

omit placed in
/-- Chunks and expressions still alternate when an expression and a chunk are added. -/
theorem Alternate.concat {quasis expressions : List Node} {expression quasi : Node}
    (alternate : Alternate quasis expressions)
    (before : ∀ node ∈ quasis ++ expressions, node.stop ≤ expression.start)
    (after : ∀ node ∈ quasis ++ expressions ++ [expression], node.stop ≤ quasi.start) :
    Alternate (quasis ++ [quasi]) (expressions ++ [expression]) where
  length := by simp [alternate.length]
  row := by
    have among {node : Node} (inside : node ∈ Form.interleave quasis expressions) :
        node ∈ quasis ++ expressions := List.mem_append.mpr (Form.mem_interleave inside)
    rw [Form.interleave_concat _ _ alternate.length, List.append_cons]
    refine (alternate.row.concat fun node inside => before node (among inside)).concat ?_
    intro node inside
    refine after node (List.mem_append.mpr ?_)
    exact (List.mem_append.mp inside).imp among id

/-- A template is made in its place. -/
theorem template_places : Places setting { first := first } (template rules) := by
  refine .onMark fun _ => .pass fun _ => .read templateChunk_places fun begins _ => .loopThen
    (fun taken : List Node × List Node × Bool => {
      given := taken.1 ++ taken.2.1, fact := Alternate taken.1.reverse taken.2.1.reverse })
    (fun taken : List Node × List Node => {
      given := taken.1 ++ taken.2, fact := Alternate taken.1 taken.2 })
    ?_ ⟨rfl, .single _⟩ fun _ made => .step fun _ => .finish made.fact.row
  rintro ⟨quasis, expressions, last⟩ gathered
  refine .ite (fun _ => .conclude gathered) fun _ => .step fun _ =>
    .read (expression_places placed) fun inner known => .step fun _ =>
      .read templateChunk_places fun chunk further => .conclude ?_
  have longer := gathered.concat
    (fun node inside => known.after inner (by simp) node (by simpa using inside))
    (fun node inside => further.after chunk.1 (by simp) node (by simpa using inside))
  simpa using longer

end Grammar

end EcmaSyntax
