import EcmaSyntax.Grammar.Attachment
import EcmaSyntax.Proofs.Grammar.Step

namespace EcmaSyntax

namespace Grammar

open Lexer (View)

namespace State

/-- Comments have only been moved: from what was read to the nodes, or between nodes. -/
structure Moved (first last : State) : Prop where
  lexer : ∃ leading trailing,
    last.lexer = { first.lexer with leading := leading, trailing := trailing }
  filled : last.attachments.Filled

theorem Moved.stay {state : State} (filled : state.attachments.Filled) : state.Moved state :=
  ⟨⟨_, _, rfl⟩, filled⟩

theorem Moved.trans {first middle last : State} (begins : first.Moved middle)
    (ends : middle.Moved last) : first.Moved last := by
  obtain ⟨leading, trailing, same⟩ := begins.lexer
  obtain ⟨later, others, again⟩ := ends.lexer
  exact ⟨⟨later, others, by rw [again, same]⟩, ends.filled⟩

variable {state : State}

/-- A node may be given comments as long as its list of those after it is not empty. -/
theorem setAttached_moved (filled : state.attachments.Filled) {id : NodeId} {attached : Attached}
    (full : attached.trailing ≠ some []) : state.Moved (state.setAttached id attached) :=
  ⟨⟨_, _, rfl⟩, filled.insert full⟩

/-- The comments after a node can be taken, and a list of them is not empty. -/
theorem takeTrailing_moved (filled : state.attachments.Filled) (stop : Nat) :
    ∃ found after, state.takeTrailing stop = .ok (found, after) ∧ found ≠ some [] ∧
      state.Moved after := by
  unfold takeTrailing
  split
  · refine ⟨_, _, rfl, ?_, ⟨_, _, rfl⟩, filled⟩
    split <;> simp
  · split
    · exact ⟨_, _, rfl, by simp, .stay filled⟩
    · split
      · exact ⟨_, _, rfl, by simp, .stay filled⟩
      · next attached found =>
          split
          · exact ⟨_, _, rfl, by simp, .stay filled⟩
          · next empty => exact absurd empty (filled _ _ found)
          · split
            · exact ⟨_, _, rfl, by simp, setAttached_moved filled (by simp)⟩
            · exact ⟨_, _, rfl, by simp, .stay filled⟩

/-- A list can be split at any count that it reaches. -/
theorem splitWithin_eq {α : Type} {count : Nat} {items : List α} (inside : count ≤ items.length) :
    splitWithin count items = .ok (items.take count, items.drop count) := if_pos inside

theorem countBefore_le (start : Nat) (comments : List Comment) :
    countBefore start comments ≤ comments.length := by
  unfold countBefore
  have dropped := (List.dropWhile_suffix (fun comment : Comment => start < comment.stop)
    (l := comments.dropLast.reverse)).length_le
  simp only [List.length_reverse, List.length_dropLast] at dropped
  exact Nat.le_trans dropped (Nat.sub_le _ _)

/-- Comments can be taken from any part of a node. -/
theorem takeFromPart_moved (filled : state.attachments.Filled) (id : NodeId) (start : Nat)
    (part : Finished) :
    ∃ found after, state.takeFromPart id start part = .ok (found, after) ∧ state.Moved after := by
  unfold takeFromPart
  split
  · exact ⟨_, _, rfl, .stay filled⟩
  · next attached found =>
      have full := filled _ _ found
      split
      · exact ⟨_, _, rfl, .stay filled⟩
      · next comments known =>
          split
          · exact ⟨_, _, rfl, setAttached_moved filled full⟩
          · simp only [splitWithin_eq (countBefore_le start comments)]
            exact ⟨_, _, rfl, setAttached_moved filled full⟩

/-- A comment that ends after an offset is not counted among those before it. -/
theorem findIdx?_getD_lt {start : Nat} {comments : List Comment} {last : Comment}
    (ends : comments.getLast? = some last) (late : start < last.stop) :
    (comments.findIdx? fun comment => start < comment.stop).getD 0 < comments.length := by
  have member := List.mem_of_getLast? ends
  cases found : comments.findIdx? fun comment => start < comment.stop with
  | none =>
      rw [List.findIdx?_eq_none_iff] at found
      simpa [late] using found last member
  | some index => exact (List.findIdx?_eq_some_iff_findIdx_eq.mp found).1

/-- The comments that have just been read can be taken. -/
theorem takeRead_moved (filled : state.attachments.Filled) (start : Nat) :
    ∃ before within after, state.takeRead start = .ok (before, within, after) ∧
      within ≠ some [] ∧ state.Moved after := by
  unfold takeRead
  simp only
  split
  · exact ⟨_, _, _, rfl, by simp, .stay filled⟩
  · next last ends =>
      split
      · exact ⟨_, _, _, rfl, by simp, ⟨_, _, rfl⟩, filled⟩
      · next late =>
          have inside := findIdx?_getD_lt ends (Nat.lt_of_not_le late)
          simp only [splitWithin_eq (Nat.le_of_lt inside)]
          refine ⟨_, _, _, rfl, ?_, .stay filled⟩
          simpa using inside

/-- Comments can be given to any node. -/
theorem giveComments_moved (filled : state.attachments.Filled) {id : NodeId} {start stop : Nat}
    {leading trailing : Option (List Comment)} (full : trailing ≠ some []) :
    ∃ after, state.giveComments id start stop leading trailing = .ok after ∧
      state.Moved after := by
  have own : ((state.attached? id).getD {}).trailing ≠ some [] := by
    cases found : state.attached? id with
    | none => simp
    | some attached => exact filled _ _ found
  have led : (if leading.isSome then { (state.attached? id).getD {} with leading := leading }
      else (state.attached? id).getD {}).trailing ≠ some [] := by
    split
    · exact own
    · exact own
  unfold giveComments
  simp only
  split
  · split
    · exact ⟨_, rfl, .stay filled⟩
    · exact ⟨_, rfl, setAttached_moved filled led⟩
  · exact absurd rfl full
  · refine ⟨_, rfl, setAttached_moved filled ?_⟩
    split
    · exact led
    · simp

/-- A node can always be given the comments around it. -/
theorem attach_moved (filled : state.attachments.Filled) (id : NodeId) (start stop : Nat) :
    ∃ after, state.attach id start stop = .ok after ∧ state.Moved after := by
  obtain ⟨trailing, taken, took, full, begins⟩ := takeTrailing_moved filled stop
  rcases parted : taken.dropWithin start with ⟨part, rest⟩
  have dropped : taken.Moved rest := by
    rw [dropWithin, Prod.mk.injEq] at parted
    rw [← parted.2]
    exact ⟨⟨_, _, rfl⟩, begins.filled⟩
  have gives : ∀ leading within given, within ≠ some [] → taken.Moved given → ∃ after,
      giveComments id start stop leading within
        { given with finished := ⟨id, start, stop⟩ :: given.finished } = .ok after ∧
      state.Moved after := by
    intro leading within given inner moved
    have finished : given.Moved
        { given with finished := ⟨id, start, stop⟩ :: given.finished } :=
      ⟨⟨_, _, rfl⟩, moved.filled⟩
    obtain ⟨after, gave, last⟩ := giveComments_moved finished.filled inner
    exact ⟨after, gave, (begins.trans moved).trans (finished.trans last)⟩
  simp only [attach, took, parted, bind, Except.bind]
  cases part with
  | some part =>
      obtain ⟨leading, given, same, moved⟩ := takeFromPart_moved dropped.filled id start part
      simp only [same, pure, Except.pure]
      exact gives leading trailing given full (dropped.trans moved)
  | none =>
      obtain ⟨leading, within, given, same, inner, moved⟩ := takeRead_moved dropped.filled start
      simp only [same, pure, Except.pure]
      refine gives leading _ given ?_ (dropped.trans moved)
      cases within with
      | none => exact full
      | some comments => exact inner

end State

/-- Giving a node its comments ends in no fault. -/
theorem attach_meets {setting : Setting} {state : State} {id : NodeId} {start stop : Nat}
    (filled : state.attachments.Filled) :
    Meets (attach id start stop) setting state fun _ after => state.Moved after := by
  obtain ⟨after, same, moved⟩ := State.attach_moved filled id start stop
  unfold Meets attach
  rw [same]
  exact moved

/-- Giving a node its comments reads no tokens. -/
theorem attach_leads {setting : Setting} {view : View} {id : NodeId} {start stop : Nat} :
    Leads setting view (attach id start stop) fun _ => view := by
  intro state held
  refine (attach_meets held.filled).mono ?_
  intro _ after moved
  obtain ⟨leading, trailing, lexer⟩ := moved.lexer
  refine held.mark ⟨⟨_, _, leading, trailing, lexer⟩, ?_⟩ moved.filled
  intro _ strict
  rw [lexer]
  exact strict

end Grammar

end EcmaSyntax
