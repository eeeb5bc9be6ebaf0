import EcmaSyntax.Grammar.Expression.Element

namespace EcmaSyntax

/-- None of the marks that join the words of a name stands within a word. -/
structure Undivided (word : String) : Prop where
  dot : '.' ∉ word.toList
  colon : ':' ∉ word.toList

/-- A token that is a name within a tag is one word. -/
def Token.Undivided (token : Token) : Prop :=
  token.kind = .jsxName → EcmaSyntax.Undivided (token.value.text?.getD "")

theorem Kind.undivided_of_keyword? {kind : Kind} {word : String}
    (spelled : kind.keyword? = some word) : Undivided word := by
  cases kind <;> cases spelled <;> exact ⟨by decide, by decide⟩

namespace Node

/-- Two names of tags are the same words, joined in the same way. -/
inductive SameName : Node → Node → Prop
  | word {first second : Node} {word : String} (begins : first.form = .jsxIdentifier word)
    (ends : second.form = .jsxIdentifier word) : SameName first second
  | spaced {first second space inner otherSpace otherInner : Node}
    (begins : first.form = .jsxNamespacedName space inner)
    (ends : second.form = .jsxNamespacedName otherSpace otherInner)
    (spaces : SameName space otherSpace) (inners : SameName inner otherInner) :
    SameName first second
  | member {first second object property otherObject otherProperty : Node}
    (begins : first.form = .jsxMemberExpression object property)
    (ends : second.form = .jsxMemberExpression otherObject otherProperty)
    (objects : SameName object otherObject) (properties : SameName property otherProperty) :
    SameName first second

/-- The node is a word of a name. -/
def IsWord (node : Node) : Prop := ∃ word, node.form = .jsxIdentifier word ∧ Undivided word

/-- The node is a word, or two with a colon between them. -/
inductive IsSpaced : Node → Prop
  | word {node : Node} (isWord : node.IsWord) : IsSpaced node
  | pair {node space inner : Node} (same : node.form = .jsxNamespacedName space inner)
    (begins : space.IsWord) (ends : inner.IsWord) : IsSpaced node

/-- The node is the name of a tag: what may have a colon in it, and words after it, each after a
dot. -/
inductive IsTagName : Node → Prop
  | spaced {node : Node} (isSpaced : node.IsSpaced) : IsTagName node
  | member {node object property : Node} (same : node.form = .jsxMemberExpression object property)
    (begins : IsTagName object) (ends : property.IsWord) : IsTagName node

end Node

/-- An element that has an opening tag with this name has no closing tag if the opening tag closes
itself, and one with the same name if it does not. -/
structure Closing (name : Node) (selfClosing : Bool) (closing : Option Node) : Prop where
  absent_iff : closing = none ↔ selfClosing = true
  same : ∀ tag ∈ closing, ∃ other, tag.form = .jsxClosingElement other ∧ name.SameName other

/-- The tags of a form match if it is an element. -/
def Form.Matched : Form → Prop
  | .jsxElement opening _ closing => ∃ name attributes selfClosing,
    opening.form = .jsxOpeningElement name attributes selfClosing ∧ Closing name selfClosing closing
  | _ => True

namespace Grammar

variable {node space inner object property : Node} {word : String}

theorem writtenName_word (same : node.form = .jsxIdentifier word) : writtenName node = word := by
  rw [writtenName]
  split <;> simp_all

/-- A name with a prefix is written with a colon. -/
theorem writtenName_pair (same : node.form = .jsxNamespacedName space inner) :
    (writtenName node).toList = (writtenName space).toList ++ ':' :: (writtenName inner).toList := by
  rw [writtenName]
  split <;> simp_all

/-- A member of a name is written with a point. -/
theorem writtenName_member (same : node.form = .jsxMemberExpression object property) :
    (writtenName node).toList =
      (writtenName object).toList ++ '.' :: (writtenName property).toList := by
  rw [writtenName]
  split <;> simp_all

theorem undivided_writtenName (isWord : node.IsWord) : Undivided (writtenName node) := by
  obtain ⟨word, same, undivided⟩ := isWord
  exact writtenName_word same ▸ undivided

theorem dot_notMem_writtenName (isSpaced : node.IsSpaced) : '.' ∉ (writtenName node).toList := by
  cases isSpaced with
  | word isWord => exact (undivided_writtenName isWord).dot
  | pair same begins ends =>
      rw [writtenName_pair same]
      simp [(undivided_writtenName begins).dot, (undivided_writtenName ends).dot]

variable {first second : Node}

theorem sameName_of_isWord (one : first.IsWord) (two : second.IsWord)
    (same : writtenName first = writtenName second) : first.SameName second := by
  obtain ⟨word, begins, -⟩ := one
  obtain ⟨other, ends, -⟩ := two
  rw [writtenName_word begins, writtenName_word ends] at same
  exact .word begins (same ▸ ends)

/-- A text is split in one way at the last of the marks in it. -/
theorem append_cons_inj {mark : Char} {before after otherBefore otherAfter : List Char}
    (absent : mark ∉ after) (missing : mark ∉ otherAfter)
    (same : before ++ mark :: after = otherBefore ++ mark :: otherAfter) :
    before = otherBefore ∧ after = otherAfter := by
  rcases List.append_eq_append_iff.mp same with ⟨between, rfl, tail⟩ | ⟨between, rfl, tail⟩
  all_goals
    cases between with
    | nil => simp_all
    | cons character rest =>
        rw [List.cons_append, List.cons.injEq] at tail
        simp_all

/-- A name without dots is known from how it is written. -/
theorem sameName_of_isSpaced (one : first.IsSpaced) (two : second.IsSpaced)
    (same : writtenName first = writtenName second) : first.SameName second := by
  cases one with
  | word one =>
      cases two with
      | word two => exact sameName_of_isWord one two same
      | pair ends space inner =>
          have colon := (undivided_writtenName one).colon
          rw [same, writtenName_pair ends] at colon
          simp at colon
  | pair begins space inner =>
      cases two with
      | word two =>
          have colon := (undivided_writtenName two).colon
          rw [← same, writtenName_pair begins] at colon
          simp at colon
      | pair ends otherSpace otherInner =>
          have texts := congrArg String.toList same
          rw [writtenName_pair begins, writtenName_pair ends] at texts
          have parts := append_cons_inj (undivided_writtenName inner).colon
            (undivided_writtenName otherInner).colon texts
          exact .spaced begins ends
            (sameName_of_isWord space otherSpace (String.toList_inj.mp parts.1))
            (sameName_of_isWord inner otherInner (String.toList_inj.mp parts.2))

/-- Two names of tags that are written alike are the same, since no word has a dot or a colon in
it. -/
theorem sameName_of_written (one : first.IsTagName) (two : second.IsTagName)
    (same : writtenName first = writtenName second) : first.SameName second := by
  induction one generalizing second with
  | spaced one =>
      cases two with
      | spaced two => exact sameName_of_isSpaced one two same
      | member ends object property =>
          have dot := dot_notMem_writtenName one
          rw [same, writtenName_member ends] at dot
          simp at dot
  | member begins object property inductionHypothesis =>
      cases two with
      | spaced two =>
          have dot := dot_notMem_writtenName two
          rw [← same, writtenName_member begins] at dot
          simp at dot
      | member ends otherObject otherProperty =>
          have texts := congrArg String.toList same
          rw [writtenName_member begins, writtenName_member ends] at texts
          have parts := append_cons_inj (undivided_writtenName property).dot
            (undivided_writtenName otherProperty).dot texts
          exact .member begins ends
            (inductionHypothesis otherObject (String.toList_inj.mp parts.1))
            (sameName_of_isWord property otherProperty (String.toList_inj.mp parts.2))

end Grammar

end EcmaSyntax
