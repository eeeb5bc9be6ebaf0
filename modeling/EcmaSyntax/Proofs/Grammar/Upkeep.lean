import EcmaSyntax.Proofs.Grammar.Attachment
import EcmaSyntax.Proofs.Lexer.Site

namespace EcmaSyntax

/-- Comments that are given to a node are some of those of a text. -/
def Given (comments items : List Comment) : Prop := items ≠ [] ∧ items.Sublist comments

/-- All comments of a node are some of those of a text. -/
structure Attached.Among (comments : List Comment) (attached : Attached) : Prop where
  leading : ∀ items ∈ attached.leading, Given comments items
  trailing : ∀ items ∈ attached.trailing, Given comments items
  inner : ∀ items ∈ attached.inner, Given comments items

/-- The comments before a node end where it starts or before it, and those within it lie between its
start and its stop. -/
structure Attached.Fits (start stop : Nat) (attached : Attached) : Prop where
  leading : ∀ items ∈ attached.leading, ∀ comment ∈ items, comment.stop ≤ start
  inner : ∀ items ∈ attached.inner, ∀ comment ∈ items, start ≤ comment.start ∧ comment.stop ≤ stop

section Attached

variable {comments others items : List Comment} {attached : Attached} {start stop further : Nat}

theorem Given.mono (given : Given comments items) (more : comments.Sublist others) :
    Given others items := ⟨given.1, given.2.trans more⟩

theorem Attached.Among.none : Attached.Among comments {} := ⟨nofun, nofun, nofun⟩

theorem Attached.Fits.none : Attached.Fits start stop {} := ⟨nofun, nofun⟩

theorem Attached.Among.mono (among : attached.Among comments) (more : comments.Sublist others) :
    attached.Among others :=
  ⟨fun items inside => (among.leading items inside).mono more,
    fun items inside => (among.trailing items inside).mono more,
    fun items inside => (among.inner items inside).mono more⟩

/-- A node may end later. -/
theorem Attached.Fits.mono (fits : attached.Fits start stop) (later : stop ≤ further) :
    attached.Fits start further :=
  ⟨fits.leading, fun items inside comment member =>
    have within := fits.inner items inside comment member
    ⟨within.1, Nat.le_trans within.2 later⟩⟩

end Attached

namespace Grammar

namespace State

variable {comments : List Comment} {limit : Nat} {spans : List Finished} {state after : State}
  {id : NodeId} {start stop : Nat} {attached : Attached}

/-- The comments that have been given to nodes, and those that may still be, are some of those of a
text. The identities of the nodes that have comments are below a limit, and the comments of the
nodes at some places are where they have to be. -/
structure Tended (comments : List Comment) (limit : Nat) (spans : List Finished) (state : State) :
    Prop where
  leading : state.lexer.leading.Sublist comments
  trailing : state.lexer.trailing.Sublist comments
  known : ∀ (id : NodeId) (attached : Attached), state.attached? id = some attached →
    id.toNat < limit
  among : ∀ (id : NodeId) (attached : Attached), state.attached? id = some attached →
    attached.Among comments
  fits : ∀ span ∈ spans, ∀ attached : Attached, state.attached? span.id = some attached →
    attached.Fits span.start span.stop

/-- All places of a node among some are the same. -/
def Unique (spans : List Finished) (id : NodeId) (start stop : Nat) : Prop :=
  ∀ span ∈ spans, span.id = id → span.start = start ∧ span.stop = stop

namespace Tended

/-- What belongs to a node is taken from the comments of the text, if anything belongs to it. -/
theorem among_getD (tended : state.Tended comments limit spans) (id : NodeId) :
    ((state.attached? id).getD {}).Among comments := by
  cases found : state.attached? id with
  | none => exact .none
  | some attached => exact tended.among id attached found

/-- What belongs to a node lies in its place. -/
theorem fits_getD (tended : state.Tended comments limit spans) {span : Finished}
    (inside : span ∈ spans) :
    ((state.attached? span.id).getD {}).Fits span.start span.stop := by
  cases found : state.attached? span.id with
  | none => exact .none
  | some attached => exact tended.fits span inside attached found

/-- The comments of a node are set. -/
theorem set (tended : state.Tended comments limit spans) (below : id.toNat < limit)
    (among : attached.Among comments)
    (fits : ∀ span ∈ spans, span.id = id → attached.Fits span.start span.stop) :
    (state.setAttached id attached).Tended comments limit spans where
  leading := tended.leading
  trailing := tended.trailing
  known other found same := by
    rw [attached?, setAttached, Std.TreeMap.getElem?_insert] at same
    split at same
    · next own => exact (Std.LawfulEqCmp.eq_of_compare own) ▸ below
    · exact tended.known other found same
  among other found same := by
    rw [attached?, setAttached, Std.TreeMap.getElem?_insert] at same
    split at same
    · exact Option.some.inj same ▸ among
    · exact tended.among other found same
  fits span inside found same := by
    rw [attached?, setAttached, Std.TreeMap.getElem?_insert] at same
    split at same
    · next own =>
        exact Option.some.inj same ▸ fits span inside (Std.LawfulEqCmp.eq_of_compare own).symm
    · exact tended.fits span inside found same

/-- A node keeps some of the comments before it at most. -/
theorem lead (tended : state.Tended comments limit spans) (found : state.attached? id = some attached)
    {leading : Option (List Comment)} (among : ∀ items ∈ leading, items ≠ [] ∧
      ∃ former ∈ attached.leading, items.Sublist former) :
    (state.setAttached id { attached with leading := leading }).Tended comments limit spans := by
  have before := tended.among id attached found
  refine tended.set (tended.known id attached found)
    ⟨fun items inside => ?_, before.trailing, before.inner⟩ fun span inside same => ?_
  · obtain ⟨filled, former, known, part⟩ := among items inside
    exact ⟨filled, part.trans (before.leading former known).2⟩
  · have fits := tended.fits span inside attached (same ▸ found)
    refine ⟨fun items inside comment member => ?_, fits.inner⟩
    obtain ⟨-, former, known, part⟩ := among items inside
    exact fits.leading former known comment (part.subset member)

/-- The comments that are taken from behind a node are those of the text, in their order. -/
theorem takeTrailing (tended : state.Tended comments limit spans) {found : Option (List Comment)}
    (took : state.takeTrailing stop = .ok (found, after)) :
    (∀ items ∈ found, Given comments items) ∧ after.Tended comments limit spans := by
  unfold State.takeTrailing at took
  split at took
  · next first rest known =>
      cases took
      refine ⟨fun items inside => ?_, ⟨tended.leading, List.nil_sublist _, tended.known,
        tended.among, tended.fits⟩⟩
      split at inside
      · cases inside
        exact ⟨List.cons_ne_nil _ _, known ▸ tended.trailing⟩
      · cases inside
  · split at took
    · cases took
      exact ⟨nofun, tended⟩
    · next last newest =>
        split at took
        · cases took
          exact ⟨nofun, tended⟩
        · next attached known =>
            have before := tended.among _ attached known
            split at took
            · cases took
              exact ⟨nofun, tended⟩
            · cases took
            · next first rest given =>
                split at took
                · cases took
                  refine ⟨?_, tended.set (tended.known _ attached known)
                    ⟨before.leading, nofun, before.inner⟩ ?_⟩
                  · rintro _ ⟨rfl⟩
                    exact before.trailing _ given
                  · exact fun span inside same =>
                      have fits := tended.fits span inside attached (same ▸ known)
                      ⟨fits.leading, fits.inner⟩
                · cases took
                  exact ⟨nofun, tended⟩

end Tended

/-- The comments that are counted end before an offset. -/
theorem stop_le_of_mem_countBefore {items : List Comment} (ordered : InOrder items)
    {comment : Comment} (inside : comment ∈ items.take (countBefore start items)) :
    comment.stop ≤ start := by
  have suffix := List.dropWhile_suffix (fun comment : Comment => decide (start < comment.stop))
    (l := items.dropLast.reverse)
  have front : items.take (countBefore start items) = (items.dropLast.reverse.dropWhile
      fun comment => decide (start < comment.stop)).reverse := by
    have part := (List.reverse_prefix.mpr suffix).trans
      (items.dropLast.reverse_reverse ▸ items.dropLast_prefix)
    rw [countBefore, ← List.length_reverse]
    exact (List.prefix_iff_eq_take.mp part).symm
  rw [front] at inside
  cases ending : items.dropLast.reverse.dropWhile fun comment => decide (start < comment.stop) with
  | nil => simp [ending] at inside
  | cons last rest =>
      have ends := List.head_dropWhile_not (fun comment : Comment => decide (start < comment.stop))
        (l := items.dropLast.reverse) (by simp [ending])
      simp only [ending, List.head_cons, decide_eq_false_iff_not, Nat.not_lt] at ends
      have prefixed : (last :: rest).reverse.Sublist items := by
        rw [← ending, ← front]
        exact List.take_sublist _ _
      rw [ending] at inside
      exact Nat.le_trans ((ordered.sublist prefixed).stop_le (by simp) inside) ends

/-- Not all comments of a list can be left, since the first of them would not count. -/
theorem countBefore_lt {items : List Comment} (filled : items ≠ []) :
    countBefore start items < items.length := by
  have dropped := (List.dropWhile_suffix (fun comment : Comment => decide (start < comment.stop))
    (l := items.dropLast.reverse)).length_le
  have positive := List.length_pos_iff.mpr filled
  simp only [List.length_reverse, List.length_dropLast] at dropped
  refine Nat.lt_of_le_of_lt dropped ?_
  omega

/-- The comments before the first one that ends after an offset end before it. -/
theorem stop_le_of_mem_take {items : List Comment} {comment : Comment}
    (inside : comment ∈ items.take
      ((items.findIdx? fun comment => decide (start < comment.stop)).getD 0)) :
    comment.stop ≤ start := by
  cases found : items.findIdx? fun comment => decide (start < comment.stop) with
  | none => simp [found] at inside
  | some index =>
      obtain ⟨-, same⟩ := List.findIdx?_eq_some_iff_findIdx_eq.mp found
      rw [found, Option.getD_some] at inside
      obtain ⟨position, below, rfl⟩ := List.mem_take_iff_getElem.mp inside
      have early := List.not_of_lt_findIdx (p := fun comment : Comment => decide (start < comment.stop))
        (same ▸ (Nat.lt_min.mp below).1)
      simpa using early

namespace Tended

/-- The comments that are taken from a part end before the node begins. -/
theorem takeFromPart (tended : state.Tended comments limit spans) (ordered : InOrder comments)
    {part : Finished} {found : Option (List Comment)}
    (took : state.takeFromPart id start part = .ok (found, after)) :
    (∀ items ∈ found, Given comments items ∧ ∀ comment ∈ items, comment.stop ≤ start) ∧
      after.Tended comments limit spans := by
  unfold State.takeFromPart at took
  split at took
  · cases took
    exact ⟨nofun, tended⟩
  · next attached known =>
      split at took
      · cases took
        exact ⟨nofun, tended⟩
      · next items given =>
          have taken := (tended.among _ attached known).leading items given
          have inOrder := ordered.sublist taken.2
          split at took
          · next whole =>
              cases took
              refine ⟨?_, tended.lead known nofun⟩
              rintro _ ⟨rfl⟩
              refine ⟨taken, fun comment inside => ?_⟩
              simp only [Bool.and_eq_true, Option.any_eq_true, decide_eq_true_eq] at whole
              obtain ⟨-, last, ends, early⟩ := whole
              exact Nat.le_trans (inOrder.stop_le ends inside) early
          · simp only [splitWithin_eq (countBefore_le start items), bind, Except.bind, pure,
              Except.pure, Except.ok.injEq, Prod.mk.injEq] at took
            obtain ⟨rfl, rfl⟩ := took
            refine ⟨fun before inside => ?_, tended.lead known ?_⟩
            · split at inside
              · cases inside
              · next some =>
                  cases inside
                  refine ⟨⟨?_, (List.take_sublist _ _).trans taken.2⟩,
                    fun comment => stop_le_of_mem_countBefore inOrder⟩
                  exact fun empty => some ((List.take_eq_nil_iff.mp empty).resolve_right taken.1)
            · rintro _ ⟨rfl⟩
              refine ⟨fun empty => ?_, items, given, List.drop_sublist _ _⟩
              have : countBefore start items < items.length := countBefore_lt taken.1
              have := List.drop_eq_nil_iff.mp empty
              omega

/-- The comments that have just been read are split where the node begins. -/
theorem takeRead (tended : state.Tended comments limit spans) (ordered : InOrder comments)
    {found inside : Option (List Comment)}
    (took : state.takeRead start = .ok (found, inside, after)) :
    (∀ items ∈ found, Given comments items ∧ ∀ comment ∈ items, comment.stop ≤ start) ∧
      (∀ items ∈ inside, Given comments items) ∧ after.Tended comments limit spans := by
  unfold State.takeRead at took
  simp only at took
  split at took
  · cases took
    exact ⟨nofun, nofun, tended⟩
  · next last ends =>
      have filled : state.lexer.leading ≠ [] := by
        intro empty
        simp [empty] at ends
      split at took
      · next early =>
          cases took
          refine ⟨?_, nofun, ⟨List.nil_sublist _, tended.trailing, tended.known,
            tended.among, tended.fits⟩⟩
          rintro _ ⟨rfl⟩
          exact ⟨⟨filled, tended.leading⟩, fun comment member =>
            Nat.le_trans ((ordered.sublist tended.leading).stop_le ends member) early⟩
      · next late =>
          have below := findIdx?_getD_lt ends (Nat.lt_of_not_le late)
          simp only [splitWithin_eq (Nat.le_of_lt below), bind, Except.bind, pure, Except.pure,
            Except.ok.injEq, Prod.mk.injEq] at took
          obtain ⟨rfl, rfl, rfl⟩ := took
          refine ⟨fun items member => ?_, ?_, tended⟩
          · split at member
            · next some =>
                cases member
                refine ⟨⟨fun empty => ?_, (List.take_sublist _ _).trans tended.leading⟩,
                  fun comment => stop_le_of_mem_take⟩
                exact ((List.take_eq_nil_iff.mp empty).elim (Nat.ne_of_gt some) filled)
            · cases member
          · rintro _ ⟨rfl⟩
            refine ⟨fun empty => ?_, (List.drop_sublist _ _).trans tended.leading⟩
            have := List.drop_eq_nil_iff.mp empty
            omega

/-- Comments that are given to a node lie in its place, before it or behind it. -/
theorem giveComments (tended : state.Tended comments limit spans) (ordered : InOrder comments)
    (below : id.toNat < limit) (unique : Unique spans id start stop)
    {leading trailing : Option (List Comment)}
    (before : ∀ items ∈ leading, Given comments items ∧ ∀ comment ∈ items, comment.stop ≤ start)
    (behind : ∀ items ∈ trailing, Given comments items)
    (gave : state.giveComments id start stop leading trailing = .ok after) :
    after.Tended comments limit spans := by
  let led (attached : Attached) : Attached :=
    if leading.isSome then { attached with leading := leading } else attached
  have among : (led ((state.attached? id).getD {})).Among comments := by
    have own := tended.among_getD id
    simp only [led]
    split
    · exact ⟨fun items inside => (before items inside).1, own.trailing, own.inner⟩
    · exact own
  have fits {span : Finished} (inside : span ∈ spans) (same : span.id = id) :
      (led ((state.attached? id).getD {})).Fits start stop := by
    obtain ⟨rfl, rfl⟩ := unique span inside same
    have own := same ▸ tended.fits_getD inside
    simp only [led]
    split
    · exact ⟨fun items inside => (before items inside).2, own.inner⟩
    · exact own
  have placed {attached : Attached} (fits : ∀ span ∈ spans, span.id = id → attached.Fits start stop) :
      ∀ span ∈ spans, span.id = id → attached.Fits span.start span.stop := by
    intro span inside same
    obtain ⟨begins, ends⟩ := unique span inside same
    rw [begins, ends]
    exact fits span inside same
  unfold State.giveComments at gave
  simp only at gave
  split at gave
  · split at gave
    · cases gave
      exact tended
    · cases gave
      exact tended.set below among (placed fun _ => fits)
  · cases gave
  · next first rest =>
      have given := behind (first :: rest) rfl
      have inOrder := ordered.sublist given.2
      cases gave
      split
      · next enclosed =>
          simp only [Bool.and_eq_true, decide_eq_true_eq, Option.any_eq_true] at enclosed
          obtain ⟨begins, last, ends, early⟩ := enclosed
          refine tended.set below ⟨among.leading, among.trailing, ?_⟩ (placed fun span inside same =>
            ⟨(fits inside same).leading, ?_⟩)
          · rintro _ ⟨rfl⟩
            exact given
          · rintro _ ⟨rfl⟩ comment member
            exact ⟨Nat.le_trans begins (inOrder.le_start member),
              Nat.le_trans (inOrder.stop_le ends member) early⟩
      · refine tended.set below ⟨among.leading, ?_, among.inner⟩ (placed fun span inside same =>
          ⟨(fits inside same).leading, (fits inside same).inner⟩)
        rintro _ ⟨rfl⟩
        exact given

theorem mem_orElse {α : Type} {first second : Option α} {value : α}
    (inside : value ∈ (first <|> second)) : value ∈ first ∨ value ∈ second := by
  cases first with
  | none => exact .inr inside
  | some other => exact .inl inside

/-- Comments stay in their places when a node is finished. -/
theorem attach (tended : state.Tended comments limit spans) (ordered : InOrder comments)
    (below : id.toNat < limit) (unique : Unique spans id start stop)
    (attached : state.attach id start stop = .ok after) :
    after.Tended comments limit spans := by
  simp only [State.attach, bind, Except.bind, pure, Except.pure] at attached
  split at attached
  · cases attached
  · next trailing took =>
      obtain ⟨behind, taken⟩ := tended.takeTrailing took
      have dropped : (dropWithin start trailing.2).2.Tended comments limit spans :=
        ⟨taken.leading, taken.trailing, taken.known, taken.among, taken.fits⟩
      have gives {leading within : Option (List Comment)} {other : State}
          (kept : other.Tended comments limit spans)
          (before : ∀ items ∈ leading, Given comments items ∧ ∀ comment ∈ items, comment.stop ≤ start)
          (around : ∀ items ∈ within, Given comments items)
          (gave : State.giveComments id start stop leading within
            { other with finished := ⟨id, start, stop⟩ :: other.finished } = .ok after) :
          after.Tended comments limit spans :=
        have noted : State.Tended comments limit spans
            { other with finished := ⟨id, start, stop⟩ :: other.finished } :=
          ⟨kept.leading, kept.trailing, kept.known, kept.among, kept.fits⟩
        noted.giveComments ordered below unique before around gave
      split at attached
      · split at attached
        · cases attached
        · next part given =>
            obtain ⟨before, left⟩ := dropped.takeFromPart ordered given
            exact gives left before behind attached
      · split at attached
        · cases attached
        · next read =>
            obtain ⟨before, within, left⟩ := dropped.takeRead ordered read
            refine gives left before (fun items inside => ?_) attached
            exact (mem_orElse inside).elim (within items) (behind items)

end Tended

end State

end Grammar

end EcmaSyntax
