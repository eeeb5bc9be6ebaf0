import EcmaSyntax.Grammar.Expression.Parenthesis
import EcmaSyntax.Proofs.Place.Operator
import EcmaSyntax.Proofs.Yield.Primary

namespace EcmaSyntax

namespace Grammar

variable {α : Type} {setting : Setting} {rules : Rules} {first : Nat} {mark : Mark} {node : Node}
  {maybeArrow : Bool}

section Trial

variable {trial : Node → Parse Node} {frame : List Finished} {state : State}

/-- A copy of a node may be used instead of it. -/
theorem duplicate_holds
    (holds : ({ first := first, given := [node] } : Hand).In setting frame state) :
    Gives (duplicate node) setting state fun copy after => (∃ id, copy = { node with id := id }) ∧
      ({ first := first, given := [node] } : Hand).Leads setting frame state
        { first := first, given := [node] } after ∧
      ({ first := first, given := [node] } : Hand).Leads setting frame state
        { first := first, given := [copy] } after := by
  have whole (id : NodeId) : Node.spans { node with id := id } =
      ⟨id, node.start, node.stop⟩ :: node.parts.flatMap Node.spans := Node.spans_eq _
  have inside : (⟨node.id, node.start, node.stop⟩ : Finished) ∈ frame ++ spans ([node] ++ []) := by
    rw [List.append_nil, spans_cons, Node.spans_eq]
    exact List.mem_append_right _ List.mem_cons_self
  refine (duplicate_keeps holds.keeps inside).mono ?_
  rintro _ after ⟨id, rfl, keeps, onward⟩
  obtain ⟨sits, ends⟩ := holds.sits node List.mem_cons_self
  have tagged : Node.tags { node with id := id } = node.tags := by
    rw [Node.tags_eq, Node.tags_eq node]
    rfl
  refine ⟨⟨id, rfl⟩, holds.leads (keeps.part (List.sublist_cons_self _ _).subperm) onward,
    holds.renewOld onward (keeps.part ?_) ?_ ?_ (by simp [tagged, List.Subperm.refl])⟩
  · simp only [List.append_nil, spans_cons, spans_nil, whole, Node.spans_eq]
    refine List.perm_middle.subperm.trans ((List.subperm_cons _).mpr ?_)
    exact ((List.sublist_cons_self _ _).append_left frame).subperm
  · exact List.forall_mem_singleton.mpr
      ⟨Node.Sits.renamed sits id, Nat.le_trans ends.stop onward.lastStop⟩
  · exact List.forall_mem_singleton.mpr (holds.begins node List.mem_cons_self)

/-- A trial has the result of what is tried, or nothing happens but that identities are used up. -/
theorem attempt_holds {hand : Hand} {action : Parse α} {load : α → Load}
    (places : PlacesAs setting hand action load) (holds : hand.In setting frame state) :
    Gives (attempt action) setting state fun result after => state.Onward after ∧
      (∀ value ∈ result, (load value).fact ∧
        hand.Leads setting frame state ((load value).hand hand.first) after) ∧
      (result = none → ∃ identities, state.identities.Before identities ∧
        after = { state with identities := identities }) := by
  intro result after ends
  unfold attempt at ends
  split at ends
  · next value last same =>
      cases ends
      obtain ⟨fact, leads⟩ := places.gives frame state holds value _ same
      refine ⟨leads.onward, ?_, nofun⟩
      rintro _ ⟨rfl⟩
      exact ⟨fact, leads⟩
  · next problem last same =>
      cases ends
      have grown := (places.fails frame state holds _ _ same).2
      rw [State.rolledBack_eq grown.recorded]
      exact ⟨⟨⟨⟨.refl _, grown.ids⟩, Nat.le_refl _, Nat.le_refl _⟩, .refl _⟩, nofun,
        fun _ => ⟨last.identities, grown.ids, rfl⟩⟩
  · cases ends

/-- A trial raises no problem out of place, since it leaves nothing of a syntax error. -/
theorem attempt_strays {hand : Hand} {action : Parse α} {load : α → Load}
    (places : PlacesAs setting hand action load) (holds : hand.In setting frame state) :
    Strays (attempt action) setting state := by
  intro failure after failed
  unfold attempt at failed
  split at failed
  · cases failed
  · cases failed
  · next same =>
      cases failed
      exact places.fails frame state holds _ _ same

/-- Something is made of a copy of a node, or the node stays as it is. -/
theorem trial_places (trials : ∀ id,
      Places setting { first := first, given := [{ node with id := id }] }
        (trial { node with id := id })) :
    Places setting { first := first, given := [node] } (do
      let candidate ← duplicate node
      match ← attempt (trial candidate) with
      | some value => return value
      | none => return node) where
  gives frame state holds := by
    rw [Gives.bind_iff]
    refine (duplicate_holds holds).mono ?_
    rintro _ middle ⟨⟨id, rfl⟩, former, copied⟩
    rw [Gives.bind_iff]
    refine (attempt_holds (trials id) copied.holds).mono fun result after met => ?_
    obtain ⟨onward, made, stays⟩ := met
    cases result with
    | some value =>
        obtain ⟨fact, leads⟩ := made value rfl
        exact gives_pure.mpr ⟨fact, copied.trans holds leads (Nat.le_refl _)
          (holds.since_le_since copied.onward (Nat.le_refl _) fun begun => begun)⟩
    | none =>
        obtain ⟨limit, later, rfl⟩ := stays rfl
        have leads := former.holds.leads (former.holds.keeps.skip later) onward
        exact gives_pure.mpr ⟨trivial, former.trans holds leads (Nat.le_refl _)
          (holds.since_le_since former.onward (Nat.le_refl _) fun begun => begun)⟩
  fails frame state holds := .bind duplicate_strays <| by
    refine (duplicate_holds holds).mono ?_
    rintro _ middle ⟨⟨id, rfl⟩, former, copied⟩
    refine ⟨former.onward.toGrown, .bind (attempt_strays (trials id) copied.holds) ?_⟩
    refine (attempt_holds (trials id) copied.holds).mono fun result after met => ⟨met.1.toGrown, ?_⟩
    cases result <;> exact .never ⟨_, _, rfl⟩

end Trial

section Parentheses

/-- What only parameters may have between two parentheses starts at seams. -/
structure ParenParts.Seams (source : Source) (parts : ParenParts) : Prop where
  pending : ∀ pos ∈ parts.pending, source.Seam pos
  comma : ∀ pos ∈ parts.comma, source.Seam pos
  rest : ∀ pos ∈ parts.rest, source.Seam pos

/-- What has been read between two parentheses consists of its items. -/
instance : Bears ParenParts where
  load source parts := (row parts.items).knowing (parts.Seams source)

/-- The parts of a parenthesis bear its items in a row. -/
@[simp] theorem load_paren {source : Source} {parts : ParenParts} :
    Bears.load source parts = (row parts.items).knowing (parts.Seams source) := rfl

/-- What is gathered between two parentheses, the last item first. -/
def ParenParts.gathered (source : Source) (parts : ParenParts) : Load :=
  (backward parts.items).knowing (parts.Seams source)

@[simp] theorem ParenParts.gathered_eq {source : Source} {parts : ParenParts} :
    parts.gathered source = (backward parts.items).knowing (parts.Seams source) := rfl

instance : Reads closesNext := inferInstanceAs (Reads (lex Lexer.lookahead >>= _))

/-- Parameters in parentheses are refused in their places. -/
theorem checkBareParameters_places {params : List Node}
    (sits : ∀ param ∈ params, param.Sits setting.source) :
    Places setting { first := first } (checkBareParameters params) := by
  unfold checkBareParameters
  split
  · next param found =>
      split
      · next pos same =>
          obtain ⟨extra, known, begins⟩ := Option.bind_eq_some_iff.mp same
          have lies := (sits param (List.mem_of_find?_eq_some found)).here
          exact .unexpectedAt (lies.parenthesis extra known pos begins)
      · exact .unexpected
  · exact .pure

/-- What stands in parentheses is refused in its place. -/
theorem checkGrouped_places {parts : ParenParts} (seams : parts.Seams setting.source) :
    Places setting { first := first } (checkGrouped parts) := by
  unfold checkGrouped
  refine .ite (fun _ => .onGet fun _ sited => .stop (.unexpectedAt sited.lastStart)) fun _ => ?_
  split
  · next pos same =>
      exact .unexpectedAt (seams_orElse seams.comma (seams_orElse seams.rest seams.pending) pos same)
  · exact .pure

/-- Items in parentheses are one expression, which starts and ends with them. -/
theorem groupedExpression_places {items : List Node} {start stop : Mark} (later : first ≤ start.pos)
    (begun : setting.source.Seam start.pos) (ended : setting.source.Seam stop.pos)
    (within : ∀ item ∈ items, start.pos ≤ item.start ∧ item.stop ≤ stop.pos) (row : InRow items) :
    Places setting { first := first, given := items, past := [stop.pos] }
      (groupedExpression items start stop) := by
  refine .held fun known => ?_
  unfold groupedExpression
  split
  · exact .unexpected
  · exact .pure
  · next some _ =>
      obtain ⟨item, inside⟩ := List.exists_mem_of_ne_nil items some
      have ordered := Nat.le_trans (within item inside).1
        (Nat.le_trans (known.sits item inside).here.ordered (within item inside).2)
      have fills : Hand.Fills setting { first := first, given := items, past := [stop.pos] } start
          (.sequenceExpression items) stop.pos :=
        ⟨by simp [Form.parts, Form.fields], List.nil_subperm, row, later, begun, ended, ordered,
          within, nofun⟩
      exact .check (checkReferenced_places known.sits) fun _ =>
        (PlacesAs.finishAt fills List.mem_cons_self).forget fun _ _ => trivial

variable (placed : rules.Placed setting)

include placed

/-- An item is added to those before it. -/
theorem parenTurn_places {parts : ParenParts} (gathered : (parts.gathered setting.source).fact) :
    PlacesAs setting { first := first, given := parts.items } (parenTurn rules parts)
      (Turn.load (fun (_, parts) => parts.gathered setting.source)
        fun parts => parts.gathered setting.source) := by
  obtain ⟨row, seams⟩ := gathered
  refine .step fun _ => .ite (fun _ => .markLater fun mark _ ended => .read restElement_places
    fun rest known => .held fun held => ?_) fun _ => .read (placed.assignment false true)
      fun item known => ?_
  · refine .callAt parts.items .latest (parenItem_places placed) (fun item made => ?_) known.ahead
    refine .conclude ⟨row.gather fun other inside => ?_, seams.pending, seams.comma, ?_⟩
    · exact Nat.le_trans (ended other inside) (made.begins item List.mem_cons_self)
    · rintro _ ⟨rfl⟩
      exact held.latest
  · exact .conclude ⟨row.gather (known.after item.value (by simp)),
      seams_orElse seams.pending known.fact.2, seams.comma, seams.rest⟩

/-- The items in parentheses are made in their places. -/
theorem parenParts_places : Places setting { first := first } (parenParts rules) := by
  refine .loopThen (fun (_, parts) => parts.gathered setting.source)
    (fun parts => parts.gathered setting.source) (fun (begins, parts) gathered => ?_)
    ⟨.nil, nofun, nofun, nofun⟩
    fun parts made => .conclude ⟨made.fact.1, made.fact.2.pending, made.fact.2.comma, made.fact.2.rest⟩
  refine .step fun _ => .ite (fun _ => .conclude gathered) fun _ => .ite (fun _ => ?_)
    fun _ => parenTurn_places placed gathered
  refine .step fun _ => .step fun _ => .ite (fun _ => .onGet fun state sited => ?_)
    fun _ => parenTurn_places placed gathered
  refine .conclude ⟨gathered.1, gathered.2.pending, ?_, gathered.2.rest⟩
  rintro _ ⟨rfl⟩
  exact sited.posted.start

/-- What stands between the parentheses lies between the marks after the first one and before the
second one. -/
theorem plainParentheses_places :
    Places setting { first := mark.pos } (plainParentheses rules mark maybeArrow) := by
  refine .step fun _ => .markLater fun innerStart later _ => .held fun begun =>
    .read (parenParts_places placed) fun parts known => .markLater fun innerStop _ ends =>
      .held fun ended => .pass fun _ => ?_
  have arrow : Places setting { first := mark.pos, given := parts.items } (do
      checkBareParameters parts.items
      arrowTail rules mark parts.items false none) :=
    .check (checkBareParameters_places known.sits) fun _ => .last
      (arrowTail_places placed (by simpa using known.fact.1))
  have grouped : Places setting
      { first := mark.pos, given := parts.items, past := [innerStop.pos] } (do
        checkGrouped parts
        let inner ← groupedExpression parts.items innerStart innerStop
        return inner.mapExtra fun extra =>
          { extra with parenthesized := true, parenStart := some mark.pos }) := by
    refine .check (checkGrouped_places known.fact.2) fun _ => .bind
      (groupedExpression_places later begun.latest ended.latest (fun item inside =>
        ⟨known.ahead item inside, ends item inside⟩) known.fact.1) fun inner _ => .held fun held => ?_
    refine .note [] (inner.like_mapExtra fun extra =>
      { extra with parenthesized := true, parenStart := some mark.pos }) ?_ .pure
    rintro _ ⟨rfl⟩ _ ⟨rfl⟩
    exact held.first
  have choice (isArrow : Bool) : Places setting
      { first := mark.pos, given := parts.items, past := [innerStop.pos] } (do
        if isArrow then
          checkBareParameters parts.items
          arrowTail rules mark parts.items false none
        else
          checkGrouped parts
          let inner ← groupedExpression parts.items innerStart innerStop
          return inner.mapExtra fun extra =>
            { extra with parenthesized := true, parenStart := some mark.pos }) :=
    .ite (fun _ => .last arrow) fun _ => grouped
  exact .step fun _ => .ite (fun _ => .step fun isArrow => .last (choice isArrow))
    fun _ => .value (.last (choice false))

/-- An arrow function with a type before its arrow is made in its place. -/
theorem annotatedArrow_places :
    Places setting { first := mark.pos, given := [node] } (annotatedArrow rules node mark) := by
  refine .held fun held => .read (typeAnnotation_places placed) fun annot known => .step fun _ => ?_
  have after := known.after annot List.mem_cons_self node List.mem_cons_self
  dsimp only
  split
  · next expressions same =>
      have parts : node.parts = expressions := by simp [Node.parts, same, Form.parts, Form.fields]
      have plain : node.form.decorators = [] := by rw [same]; rfl
      have lies := (held.sits node List.mem_cons_self).here
      have row : InRow expressions := (same ▸ lies.cast : Form.Ordered (.sequenceExpression _))
      refine .takeApart [annot] plain ?_ (.swap ..)
      rw [parts]
      exact .last (arrowTail_places placed (row.concat fun part inside =>
        Nat.le_trans (lies.around plain (parts ▸ inside)).2 after))
  · exact .last (arrowTail_places placed (InRow.pair.mpr after))

/-- An arrow function without parameters is made in its place. -/
theorem emptyArrow_places : Places setting { first := mark.pos } (emptyArrow rules mark) :=
  .step fun _ => .step fun _ => .read (typeAnnotation?_places placed) fun annot _ => .step fun _ =>
    .last (arrowTail_places placed (.option annot))

/-- Parentheses in a language with types are made in their place. -/
theorem typedParentheses_places :
    Places setting { first := mark.pos } (typedParentheses rules mark maybeArrow) := by
  have rest : Places setting { first := mark.pos } (do
      let node ← plainParentheses rules mark maybeArrow
      if ← atKind .colon then
        let candidate ← duplicate node
        match ← attempt (annotatedArrow rules candidate mark) with
        | some arrow => return arrow
        | none => return node
      else return node) :=
    .bind (plainParentheses_places placed) fun node _ => .step fun _ => .ite
      (fun _ => trial_places fun _ => annotatedArrow_places placed) fun _ => .pure
  have choice (empty : Bool) : Places setting { first := mark.pos } (do
      if empty then emptyArrow rules mark
      else
        let node ← plainParentheses rules mark maybeArrow
        if ← atKind .colon then
          let candidate ← duplicate node
          match ← attempt (annotatedArrow rules candidate mark) with
          | some arrow => return arrow
          | none => return node
        else return node) :=
    .ite (fun _ => emptyArrow_places placed) fun _ => rest
  exact .ite (fun _ => .step fun empty => choice empty) fun _ => .value (choice false)

/-- What begins with a parenthesis is made in its place. -/
theorem parentheses_places :
    Places setting { first := mark.pos } (parentheses rules mark maybeArrow) :=
  .step fun _ => .ite (fun _ => typedParentheses_places placed)
    fun _ => plainParentheses_places placed

end Parentheses

end Grammar

end EcmaSyntax
