/-
This file says which constructs are open where a rule of the grammar stands, and how each
token that a rule passes changes that.
-/

import EcmaSyntax.Proofs.Lexer.Reach

namespace EcmaSyntax

namespace Context

/-- A construct that a brace or parenthesis closes by itself. -/
def isBracket : Context → Bool
  | .functionExpression => false
  | .quoteTemplate => false
  | _ => true

/-- A construct that is a tag. -/
def isTag : Context → Bool
  | .jsxOpenTag => true
  | .jsxCloseTag => true
  | _ => false

end Context

/-- A token of such a kind closes no bracket, and is no part of a tag. -/
def Kind.isStill : Kind → Bool
  | .parenR | .braceR | .slash | .jsxTagStart | .jsxTagEnd => false
  | _ => true

namespace Lexer

/-- A rule of the grammar stands within a tag, or at the top where the list is empty, and may
close so many brackets there. -/
structure Frame where
  base : List Context
  depth : Nat
  ends : ∀ context ∈ base.head?, context ≠ .functionExpression ∧ context ≠ .quoteTemplate

namespace Frame

/-- The top of a program. -/
def top : Frame := ⟨[], 0, by simp⟩

/-- One more bracket is open. -/
def inner (frame : Frame) : Frame := { frame with depth := frame.depth + 1 }

/-- An opening tag. -/
def openTag (outer : List Context) : Frame :=
  ⟨.jsxOpenTag :: .jsxExpression :: outer, 0, by simp⟩

/-- A closing tag. -/
def closeTag (outer : List Context) : Frame := ⟨.jsxCloseTag :: outer, 0, by simp⟩

/-- The innermost of what is open is no tag. -/
def Calm (frame : Frame) : Prop :=
  0 < frame.depth ∨ ∀ context ∈ frame.base.head?, context.isTag = false

theorem calm_top : top.Calm := .inr (by simp [top])

/-- The frame within a bracket is calm. -/
theorem calm_inner (frame : Frame) : frame.inner.Calm := .inl (Nat.succ_pos _)

/-- Constructs are open in a frame: those that it may close, and others that are no tags, lie
above the tag that it stands in. -/
def Covers (frame : Frame) (contexts : List Context) : Prop :=
  ∃ above, contexts = above ++ frame.base ∧ (∀ context ∈ above, context.isTag = false) ∧
    frame.depth ≤ above.countP Context.isBracket

variable {frame : Frame} {context : Context} {contexts : List Context}

/-- The frame of an opening tag covers what the mark of the tag opens. -/
theorem covers_openTag (outer : List Context) :
    (openTag outer).Covers (.jsxOpenTag :: .jsxExpression :: outer) :=
  ⟨[], rfl, by simp, Nat.zero_le _⟩

/-- The frame of a closing tag covers what its slash opens. -/
theorem covers_closeTag (outer : List Context) :
    (closeTag outer).Covers (.jsxCloseTag :: outer) :=
  ⟨[], rfl, by simp, Nat.zero_le _⟩

theorem covers_top : top.Covers [.braceStatement] :=
  ⟨[.braceStatement], rfl, by simp [Context.isTag], Nat.zero_le _⟩

/-- What the frame within a bracket covers, the frame around it covers, too. -/
theorem Covers.outer (covers : frame.inner.Covers contexts) : frame.Covers contexts := by
  obtain ⟨above, same, tagless, enough⟩ := covers
  exact ⟨above, same, tagless, Nat.le_of_succ_le enough⟩

/-- What is no tag may open. -/
theorem Covers.cons (covers : frame.Covers contexts) (tagless : context.isTag = false) :
    frame.Covers (context :: contexts) := by
  obtain ⟨above, rfl, all, enough⟩ := covers
  refine ⟨context :: above, rfl, ?_, ?_⟩
  · intro other member
    rcases List.mem_cons.mp member with rfl | member
    · exact tagless
    · exact all other member
  · rw [List.countP_cons]
    exact Nat.le_add_right_of_le enough

/-- A bracket that opens may be closed. -/
theorem Covers.bracket (covers : frame.Covers contexts) (tagless : context.isTag = false)
    (bracket : context.isBracket = true) : frame.inner.Covers (context :: contexts) := by
  obtain ⟨above, rfl, all, enough⟩ := covers
  refine ⟨context :: above, rfl, ?_, ?_⟩
  · intro other member
    rcases List.mem_cons.mp member with rfl | member
    · exact tagless
    · exact all other member
  · rw [List.countP_cons_of_pos bracket]
    exact Nat.succ_le_succ enough

/-- A bracket may be closed. -/
theorem Covers.tail (covers : frame.inner.Covers contexts) : frame.Covers contexts.tail := by
  obtain ⟨above, rfl, tagless, enough⟩ := covers
  cases above with
  | nil => exact absurd enough (Nat.not_succ_le_zero _)
  | cons head rest =>
      refine ⟨rest, rfl, fun other member => tagless other (List.mem_cons_of_mem _ member), ?_⟩
      change frame.depth + 1 ≤ _ at enough
      rw [List.countP_cons] at enough
      split at enough <;> omega

/-- A chunk of a template stands in the frame of the template. -/
theorem Covers.quote (covers : frame.Covers contexts)
    (inside : contexts.headD .braceStatement = .quoteTemplate) :
    ∃ outer, contexts = .quoteTemplate :: outer ∧ frame.Covers outer := by
  obtain ⟨above, rfl, tagless, enough⟩ := covers
  cases above with
  | nil =>
      cases same : frame.base with
      | nil => simp [same] at inside
      | cons head rest =>
          rw [same] at inside
          exact absurd inside (frame.ends head (by simp [same])).2
  | cons head rest =>
      rw [List.cons_append, List.headD_cons] at inside
      subst inside
      refine ⟨rest ++ frame.base, rfl, rest, rfl, ?_, ?_⟩
      · exact fun other member => tagless other (List.mem_cons_of_mem _ member)
      · rwa [List.countP_cons_of_neg (by decide)] at enough

/-- A brace or parenthesis closes one bracket, and no more than a function with it. -/
theorem Covers.closed (covers : frame.inner.Covers contexts) : frame.Covers (closed contexts) := by
  have tail := covers.tail
  unfold Lexer.closed
  split
  · exact covers.outer
  · exact covers.outer
  · next outer _ =>
      obtain ⟨above, same, tagless, enough⟩ := covers
      rcases above with - | ⟨first, - | ⟨second, rest⟩⟩
      · exact absurd enough (Nat.not_succ_le_zero _)
      · -- The function would be the tag that the frame stands in.
        rw [List.cons_append, List.nil_append] at same
        have head := (List.cons.inj same).2
        exact absurd rfl (frame.ends .functionExpression (by
          change .functionExpression ∈ frame.inner.base.head?
          rw [← head]
          rfl)).1
      · rw [List.cons_append, List.cons_append, List.cons.injEq, List.cons.injEq] at same
        obtain ⟨rfl, rfl, rfl⟩ := same
        refine ⟨rest, rfl, ?_, ?_⟩
        · intro other member
          exact tagless other (List.mem_cons_of_mem _ (List.mem_cons_of_mem _ member))
        · rw [List.countP_cons_of_pos (by decide), List.countP_cons_of_neg (by decide)] at enough
          exact Nat.le_of_succ_le_succ enough
  · exact tail

/-- In a calm frame the innermost construct is no tag. -/
theorem Covers.calm (covers : frame.Covers contexts) (calm : frame.Calm) :
    (contexts.headD .braceStatement).isTag = false := by
  obtain ⟨above, rfl, tagless, enough⟩ := covers
  cases above with
  | cons head rest => exact tagless head (List.mem_cons_self ..)
  | nil =>
      have flat : ¬0 < frame.depth := Nat.not_lt.mpr enough
      cases same : frame.base with
      | nil => rfl
      | cons head rest =>
          rcases calm with positive | tagless
          · exact absurd positive flat
          · exact tagless head (by simp [same])

/-- Where the innermost construct is a tag, nothing lies above the tag of the frame. -/
theorem Covers.inTag (covers : frame.Covers contexts)
    (tag : (contexts.headD .braceStatement).isTag = true) : contexts = frame.base := by
  obtain ⟨above, rfl, tagless, -⟩ := covers
  cases above with
  | nil => rfl
  | cons head rest =>
      rw [List.cons_append, List.headD_cons, tagless head (List.mem_cons_self ..)] at tag
      exact absurd tag (by decide)

end Frame

section Views

/-- What a rule finds at the current token: its kind and the constructs that are open after it. -/
abbrev View := Kind → List Context → Prop

/-- The current token follows any other one in a frame. -/
def Enters (markup : Bool) (frame : Frame) : View := fun kind contexts =>
  ∃ previous block outer, frame.Covers outer ∧
    contexts = nested markup previous kind block outer

/-- What a rule may rely on if the previous token neither began a tag nor was a chunk of a
template. -/
structure Ensues (markup : Bool) (frame : Frame) (previous kind : Kind)
    (outer : List Context) : Prop where
  chunk : previous ≠ .template
  tag : previous ≠ .jsxTagStart
  slash : previous = .slash → frame.Calm
  quoted : outer.headD .braceStatement = .quoteTemplate → kind = .eof ∨ kind = .template
  unquoted : outer.headD .braceStatement ≠ .quoteTemplate →
    kind ≠ .template ∧ kind ≠ .dollarBraceL
  tagEnd : kind = .jsxTagEnd → (outer.headD .braceStatement).isTag = true
  tagStart : kind = .jsxTagStart → markup = true

/-- The current token follows a token that is no chunk of a template and does not begin a tag. -/
def Nests (markup : Bool) (frame : Frame) : View := fun kind contexts =>
  ∃ previous block outer, frame.Covers outer ∧ Ensues markup frame previous kind outer ∧
    contexts = nested markup previous kind block outer

/-- As a rule finds the current token: where it is none that the rule may pass, nothing is said
of the constructs that are open. -/
def Over (markup : Bool) (frame : Frame) : View := fun kind contexts =>
  kind = .eof ∨ kind = .template ∨ Nests markup frame kind contexts

/-- The current token follows the mark that begins a tag. -/
def Tagged (markup : Bool) (frame : Frame) : View := fun kind contexts =>
  markup = true ∧ ∃ block outer, frame.Covers outer ∧
    contexts = nested markup .jsxTagStart kind block (.jsxOpenTag :: .jsxExpression :: outer)

/-- The current token follows a chunk of a template. -/
structure Quoted (frame : Frame) (kind : Kind) (contexts : List Context) : Prop where
  closing : kind = .backQuote →
    frame.Covers contexts ∨ contexts.headD .braceStatement = .quoteTemplate
  opening : kind = .dollarBraceL → frame.inner.Covers contexts

variable {markup : Bool} {frame : Frame} {kind : Kind} {contexts : List Context}

/-- A frame may be entered where it nests. -/
theorem Nests.enters (nests : Nests markup frame kind contexts) :
    Enters markup frame kind contexts := by
  obtain ⟨previous, block, outer, covers, -, same⟩ := nests
  exact ⟨previous, block, outer, covers, same⟩

/-- A token that goes on and is no part of a template nests in its frame. -/
theorem Over.nests (passing : Over markup frame kind contexts) (goesOn : kind ≠ .eof)
    (plain : kind ≠ .template) : Nests markup frame kind contexts := by
  rcases passing with ending | chunk | nests
  · exact absurd ending goesOn
  · exact absurd chunk plain
  · exact nests

/-- A token that opens and closes nothing leaves the frame as it is. -/
theorem nestedPlain_covers (previous : Kind) (block : Bool) (covers : frame.Covers contexts)
    (still : kind.isStill = true ∨ kind = .slash) :
    frame.Covers (nestedPlain previous kind block contexts) := by
  unfold nestedPlain
  split
  · exact covers
  · split
    all_goals try exact covers
    · simp [Kind.isStill] at still
    · simp [Kind.isStill] at still
    · cases block
      · exact covers.cons rfl
      · exact covers.cons rfl
    · exact covers.cons rfl
    · cases block
      · exact covers.cons rfl
      · exact covers.cons rfl
    · split
      · exact covers.cons rfl
      · exact covers
    · split
      · next inside =>
          rw [beq_iff_eq] at inside
          obtain ⟨outer, rfl, unquoted⟩ := covers.quote inside
          exact unquoted
      · exact covers.cons rfl
    · simp [Kind.isStill] at still
    · simp [Kind.isStill] at still

/-- So does a token after which a frame is entered. -/
theorem Enters.covers (enters : Enters markup frame kind contexts)
    (still : kind.isStill = true) : frame.Covers contexts := by
  obtain ⟨previous, block, outer, covers, rfl⟩ := enters
  have plain := nestedPlain_covers previous block covers (.inl still)
  unfold nested
  split
  · unfold nestedMarkup
    split
    · split
      · exact covers.cons rfl
      · exact covers.cons rfl
      · exact plain
    · rw [if_neg]
      · exact plain
      · rintro ⟨rfl, -⟩
        exact absurd still (by decide)
  · exact plain

/-- A slash that divides leaves the frame as it is. -/
theorem Nests.covers_slash (nests : Nests markup frame .slash contexts) :
    frame.Covers contexts := by
  obtain ⟨previous, block, outer, covers, follows, rfl⟩ := nests
  have plain := nestedPlain_covers previous block covers (.inr rfl)
  unfold nested
  split
  · rw [nestedMarkup, if_neg (by decide), if_neg fun starts => follows.tag starts.2]
    exact plain
  · exact plain

/-- A token that opens a bracket. -/
theorem Enters.covers_open (enters : Enters markup frame kind contexts)
    (opens : kind = .parenL ∨ kind = .braceL) : frame.inner.Covers contexts := by
  obtain ⟨previous, block, outer, covers, rfl⟩ := enters
  have plain : frame.inner.Covers (nestedPlain previous kind block outer) := by
    rcases opens with rfl | rfl
    · cases block
      · exact covers.bracket rfl rfl
      · exact covers.bracket rfl rfl
    · cases block
      · exact covers.bracket rfl rfl
      · exact covers.bracket rfl rfl
  unfold nested
  split
  · unfold nestedMarkup
    split
    · split
      · exact covers.bracket rfl rfl
      · exact covers.bracket rfl rfl
      · exact plain
    · rw [if_neg]
      · exact plain
      · rintro ⟨rfl, -⟩
        exact absurd opens (by decide)
  · exact plain

/-- A token that closes a bracket. -/
theorem Enters.covers_close (enters : Enters markup frame.inner kind contexts)
    (closes : kind = .parenR ∨ kind = .braceR) : frame.Covers contexts := by
  obtain ⟨previous, block, outer, covers, rfl⟩ := enters
  have plain : nestedPlain previous kind block outer = closed outer := by
    rcases closes with rfl | rfl <;> rfl
  have same : nested markup previous kind block outer = closed outer := by
    have brace : kind ≠ .braceL := by
      rintro rfl
      exact absurd closes (by decide)
    have slash : ¬(kind = .slash ∧ previous = .jsxTagStart) := by
      rintro ⟨rfl, -⟩
      exact absurd closes (by decide)
    rw [nested, nestedMarkup, if_neg brace, if_neg slash, plain, ite_self]
  rw [same]
  exact covers.closed

/-- A number or a string in a calm frame stands in no tag. -/
theorem Over.calm (passing : Over markup frame kind contexts) (calm : frame.Calm)
    (literal : kind = .num ∨ kind = .string) :
    (contexts.headD .braceStatement).isTag = false := by
  have nests : Nests markup frame kind contexts := by
    rcases literal with rfl | rfl <;> exact passing.nests (by decide) (by decide)
  refine (nests.enters.covers ?_).calm calm
  rcases literal with rfl | rfl <;> rfl

/-- A chunk of a template stands in the template. -/
theorem Nests.covers_template (nests : Nests markup frame .template contexts) :
    ∃ outer, contexts = .quoteTemplate :: outer ∧ frame.Covers outer := by
  obtain ⟨previous, block, outer, covers, follows, same⟩ := nests
  have unchanged : contexts = outer := by
    rw [same]
    cases markup <;> rfl
  rw [unchanged]
  apply covers.quote
  by_contra outside
  exact (follows.unquoted outside).1 rfl

/-- A tag begins only in markup, and opens what its mark stands for. -/
theorem Nests.covers_tagStart (nests : Nests markup frame .jsxTagStart contexts) :
    markup = true ∧ ∃ outer, frame.Covers outer ∧
      contexts = .jsxOpenTag :: .jsxExpression :: outer := by
  obtain ⟨previous, block, outer, covers, follows, same⟩ := nests
  refine ⟨follows.tagStart rfl, outer, covers, ?_⟩
  rw [same]
  cases markup <;> rfl

/-- Behind the mark of an opening tag, the frame of the tag is entered. -/
theorem Tagged.enters (tagged : Tagged markup frame kind contexts) :
    ∃ outer, frame.Covers outer ∧ Enters markup (.openTag outer) kind contexts := by
  obtain ⟨-, block, outer, covers, same⟩ := tagged
  exact ⟨outer, covers, .jsxTagStart, block, _, Frame.covers_openTag outer, same⟩

/-- A slash at the start of a tag makes it a closing one. -/
theorem Tagged.covers_slash (tagged : Tagged markup frame .slash contexts) :
    ∃ outer, frame.Covers outer ∧ contexts = .jsxCloseTag :: outer := by
  obtain ⟨rfl, block, outer, covers, rfl⟩ := tagged
  exact ⟨outer, covers, rfl⟩

/-- A quote opens a template, or closes the one that is open. -/
theorem nested_backQuote (markup block : Bool) (previous : Kind) (contexts : List Context) :
    nested markup previous .backQuote block contexts =
      if contexts.headD .braceStatement == .quoteTemplate then contexts.drop 1
      else .quoteTemplate :: contexts := by
  cases markup <;> rfl

/-- The end of a tag closes what the tag has opened. -/
theorem nested_tagEnd (markup block : Bool) (previous : Kind) (contexts : List Context) :
    nested markup previous .jsxTagEnd block contexts = tagClosed previous contexts := by
  cases markup <;> rfl

/-- The end of an opening tag leaves what stands between the tags open. -/
theorem Nests.covers_openEnd {outer : List Context} (covers : frame.Covers outer)
    (nests : Nests markup (.openTag outer) .jsxTagEnd contexts) :
    frame.inner.Covers contexts := by
  obtain ⟨previous, block, within, openCovers, follows, same⟩ := nests
  have base := openCovers.inTag (follows.tagEnd rfl)
  have noSlash : previous ≠ .slash := by
    intro slash
    rcases follows.slash slash with deep | tagless
    · exact absurd deep (Nat.lt_irrefl 0)
    · exact absurd (tagless .jsxOpenTag rfl) (by decide)
  have tail : contexts = .jsxExpression :: outer := by
    rw [same, nested_tagEnd, base, tagClosed, if_neg]
    · rfl
    · simpa [Frame.openTag] using noSlash
  rw [tail]
  exact covers.bracket rfl rfl

/-- The end of a closing tag closes what stands between the tags. -/
theorem Nests.covers_closeEnd {outer : List Context} (covers : frame.inner.Covers outer)
    (nests : Nests markup (.closeTag outer) .jsxTagEnd contexts) : frame.Covers contexts := by
  obtain ⟨previous, block, within, closeCovers, follows, same⟩ := nests
  have base := closeCovers.inTag (follows.tagEnd rfl)
  have tail : contexts = outer.tail := by
    rw [same, nested_tagEnd, base, tagClosed, if_pos (by simp [Frame.closeTag])]
    exact List.drop_one
  rw [tail]
  exact covers.tail

end Views

section Steps

variable {setting : Setting} {frame : Frame} {first last : State}

/-- The open constructs after a token follow from the token and those before. -/
theorem Advances.contexts (advances : Advances setting first last) :
    ∃ block, last.contexts = nested setting.jsx first.kind last.kind block first.contexts := by
  have contexts := Fetches.contexts advances
  rwa [State.record_kind, State.record_contexts] at contexts

theorem Advances.context (first : State) :
    first.recordToken.passToken.context = first.contexts.headD .braceStatement := by
  rw [State.context, State.record_contexts]

/-- In a template a mark is followed by a chunk, unless the text ends. -/
theorem Advances.quoted (advances : Advances setting first last)
    (inside : first.contexts.headD .braceStatement = .quoteTemplate)
    (between : first.kind ≠ .template) : last.kind = .eof ∨ last.kind = .template := by
  rcases Fetches.quoted advances ((context first).trans inside) with ending | chunk | ⟨chunk, -⟩
  · exact .inl ending
  · exact .inr chunk
  · rw [State.record_kind] at chunk
    exact absurd chunk between

/-- Outside of a template there are neither chunks nor holes. -/
theorem Advances.unquoted (advances : Advances setting first last)
    (outside : first.contexts.headD .braceStatement ≠ .quoteTemplate) :
    last.kind ≠ .template ∧ last.kind ≠ .dollarBraceL :=
  Fetches.unquoted advances fun inside => outside ((context first).symm.trans inside)

/-- A tag ends only where one is open. -/
theorem Advances.tagEnd (advances : Advances setting first last)
    (ending : last.kind = .jsxTagEnd) :
    (first.contexts.headD .braceStatement).isTag = true := by
  rcases Fetches.tagEnd advances ending with opening | closing
  · rw [context] at opening
    rw [opening]
    rfl
  · rw [context] at closing
    rw [closing]
    rfl

/-- The next token enters each frame that covers the open constructs. -/
theorem Advances.enters (advances : Advances setting first last)
    (covers : frame.Covers first.contexts) :
    Enters setting.jsx frame last.kind last.contexts := by
  obtain ⟨block, same⟩ := advances.contexts
  exact ⟨first.kind, block, first.contexts, covers, same⟩

/-- A token after which nothing special is open nests in the frame. -/
theorem Fetches.nests (fetches : Fetches setting first last)
    (covers : frame.Covers first.contexts) (chunk : first.kind ≠ .template)
    (tag : first.kind ≠ .jsxTagStart) (slash : first.kind = .slash → frame.Calm) :
    Nests setting.jsx frame last.kind last.contexts := by
  obtain ⟨block, same⟩ := fetches.contexts
  refine ⟨first.kind, block, first.contexts, covers, ?_, same⟩
  refine ⟨chunk, tag, slash, ?_, fetches.unquoted, ?_, fetches.tagStart⟩
  · intro inside
    rcases fetches.quoted inside with ending | again | ⟨again, -⟩
    · exact .inl ending
    · exact .inr again
    · exact absurd again chunk
  · intro ending
    change first.context.isTag = true
    rcases fetches.tagEnd ending with opening | closing
    · rw [opening]
      rfl
    · rw [closing]
      rfl

/-- Passing a token after which nothing special is open leads to one that nests in the frame. -/
theorem Advances.nests (advances : Advances setting first last)
    (covers : frame.Covers first.contexts) (chunk : first.kind ≠ .template)
    (tag : first.kind ≠ .jsxTagStart) (slash : first.kind = .slash → frame.Calm) :
    Nests setting.jsx frame last.kind last.contexts := by
  refine Fetches.nests advances ?_ ?_ ?_ ?_
  · rwa [State.record_contexts]
  · rwa [State.record_kind]
  · rwa [State.record_kind]
  · rwa [State.record_kind]

/-- The mark of a tag is passed. -/
theorem Advances.tagged (advances : Advances setting first last)
    (starting : first.kind = .jsxTagStart)
    (nests : Nests setting.jsx frame first.kind first.contexts) :
    Tagged setting.jsx frame last.kind last.contexts := by
  rw [starting] at nests
  obtain ⟨markup, outer, covers, opened⟩ := nests.covers_tagStart
  obtain ⟨block, same⟩ := advances.contexts
  rw [starting, opened] at same
  exact ⟨markup, block, outer, covers, same⟩

/-- The slash of an empty tag is passed; the end of the tag then closes the element. -/
theorem Advances.covers_emptyEnd {outer : List Context} (advances : Advances setting first last)
    (slash : first.kind = .slash) (ending : last.kind = .jsxTagEnd)
    (nests : Nests setting.jsx (.openTag outer) first.kind first.contexts) :
    last.contexts = outer := by
  rw [slash] at nests
  have base := nests.covers_slash.inTag (advances.tagEnd ending)
  obtain ⟨block, same⟩ := advances.contexts
  rw [same, ending, slash, nested_tagEnd, base, tagClosed, if_pos (by simp [Frame.openTag])]
  rfl

/-- A chunk of a template, or what stands in its place, is passed. -/
theorem Advances.chunk (advances : Advances setting first last)
    (nests : Nests setting.jsx frame first.kind first.contexts) :
    Quoted frame last.kind last.contexts := by
  obtain ⟨block, same⟩ := advances.contexts
  by_cases chunk : first.kind = .template
  · rw [chunk] at nests same
    obtain ⟨outer, opened, covers⟩ := nests.covers_template
    rw [opened] at same
    constructor
    · intro closing
      left
      rw [same, closing]
      cases setting.jsx <;> exact covers
    · intro opening
      rw [same, opening]
      have within : frame.inner.Covers (.braceTemplate :: .quoteTemplate :: _) :=
        (covers.cons rfl).bracket rfl rfl
      cases setting.jsx <;> exact within
  · by_cases inside : first.contexts.headD .braceStatement = .quoteTemplate
    · have kind := advances.quoted inside chunk
      constructor
      · intro closing
        rw [closing] at kind
        exact absurd kind (by decide)
      · intro opening
        rw [opening] at kind
        exact absurd kind (by decide)
    · constructor
      · intro closing
        right
        rw [same, closing, nested_backQuote, if_neg (by simpa using inside)]
        rfl
      · intro opening
        exact absurd opening (advances.unquoted inside).2

/-- The mark that ends a template is passed. -/
theorem Advances.quoteEnd (advances : Advances setting first last)
    (closing : first.kind = .backQuote) (quoted : Quoted frame first.kind first.contexts) :
    Over setting.jsx frame last.kind last.contexts := by
  rcases quoted.closing closing with covers | inside
  · refine .inr (.inr (advances.nests covers ?_ ?_ ?_))
    · rw [closing]
      decide
    · rw [closing]
      decide
    · rw [closing]
      exact fun slash => absurd slash (by decide)
  · rcases advances.quoted inside (by rw [closing]; decide) with ending | chunk
    · exact .inl ending
    · exact .inr (.inl chunk)

end Steps

end Lexer

end EcmaSyntax
