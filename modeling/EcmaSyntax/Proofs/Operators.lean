import EcmaSyntax.Proofs.Location
import EcmaSyntax.Proofs.Yield.Precedence
import EcmaSyntax.Proofs.Yield.Program

namespace EcmaSyntax

section Grouping

/-- The binary operators of a file are tokens that spell them, and in all of its tree operands
are grouped by their precedence. Only where a parenthesis opens directly after a bare unary
operator does this one stand left of an exponent. -/
structure File.Grouped (file : File) : Prop where
  spelled : ∀ token ∈ file.tokens, token.Spelled
  orderly : file.program.Orderly (ParenthesisAfter file.tokens)

/-- A text that has been read to its end is grouped by the tokens that have been read. -/
theorem File.Read.grouped {file : File} {setting : Lexer.Setting} {mode : Mode}
    {ended : Lexer.State} (read : file.Read setting mode ended) : file.Grouped := by
  refine ⟨fun token member => ?_, ?_⟩
  · rw [read.tokens] at member
    exact (read.tracked.written token (List.mem_append_left _ member)).spelled
  · have within : Within (ParenthesisAfter file.tokens) ended := by
      intro start known
      rw [read.tokens]
      -- The end of the text is no parenthesis.
      exact known.init fun opens => absurd (read.atEnd.symm.trans opens) (by decide)
    exact read.follows (.grouping _) (fun count => (Grammar.rulesWithin_orderly count).toLawful)
      trivial ⟨within, read.ascending.init ended.settled_tokens⟩

/-- In the tree of every text that is parsed the operands of binary operators are grouped by
their precedence: what is not in parentheses binds tighter than the operator around it, or as
tight on the side that the operator groups to. -/
theorem parse_grouped {text : String} {options : Options} {file : File}
    (parsed : parse text options = .ok file) : file.Grouped := by
  obtain ⟨ended, read⟩ := parse_read parsed
  exact read.grouped

/-- A sign before a parenthesis may stand left of an exponent, and the product is around both. -/
theorem parse_grouped_sign_exponent :
    ∃ file, parse "-(a) ** b * c" {} = .ok file ∧ file.tokens.length = 9 ∧ file.Grouped := by
  have counted : (parse "-(a) ** b * c" {}).toOption.map (fun file => file.tokens.length) =
      some 9 := by
    decide +kernel
  obtain ⟨file, parsed, nine⟩ := exists_ok_of_map counted
  exact ⟨file, parsed, nine, parse_grouped parsed⟩

end Grouping

section Operator

/-- The operator of an operation on two operands is an operator of the language that binds two
operands, or is misread as one. -/
def Form.Operates : Form → Prop
  | .binaryExpression operator _ _ => ∃ kind : Kind, kind.precedence?.isSome = true ∧
      operator ∈ kind.operators ++ kind.misread
  | _ => True

/-- In all of a tree operations on two operands have binary operators. -/
def Node.Operates (node : Node) : Prop :=
  ∀ inner ∈ node.walk, inner.form.Operates

/-- What is grouped by its precedence has an operator that has one. -/
theorem Form.Grouped.operates {followed : Nat → Prop} {form : Form}
    (grouped : form.Grouped followed) : form.Operates := by
  cases form with
  | binaryExpression operator left right =>
      have known := Option.isSome_iff_exists.mp (Operands.known grouped)
      obtain ⟨level, within⟩ := known
      obtain ⟨kind, spelled, binds⟩ := Option.bind_eq_some_iff.mp within
      have isSome : kind.precedence?.isSome = true := by rw [binds]; rfl
      exact ⟨kind, isSome, (Kind.ofOperator?_eq_some isSome).mp spelled⟩
  | _ => trivial

/-- Each token of a scan that stands for an operator has the text of one, or is misread. -/
theorem Lexer.written_of_mem_scan {setting : Setting} {strictMode : Bool} {token : Token}
    (read : token ∈ (scan setting strictMode).tokens) : token.Written := by
  obtain ⟨state, among, rfl⟩ := List.mem_map.mp read
  have tracked := (scanned_of_mem_scan among).reached.tracked
  exact tracked.written _ (List.mem_append_right _ (List.mem_singleton_self _))

/-- The tokens of every text that stand for operators have the texts of operators of the language,
and so have the operations in the tree of a program, but for what is misread: `%*` and `%*=`, which
are read as `**` and `**=` are, and `<==` and `>==`, which are read as `<=` and `>=` are. -/
theorem operators_written (text : String) (options : Options) :
    (∀ token ∈ (Lexer.scan (options.setting text) options.strictMode).tokens, token.Written) ∧
      ∀ file, parse text options = .ok file → file.program.Operates :=
  ⟨fun _ read => Lexer.written_of_mem_scan read, fun _ parsed inner member =>
    ((parse_grouped parsed).orderly inner member).operates⟩

/-- A percent sign with a star after it is misread as one operator, and is one in the tree. -/
theorem operators_written_percent_star :
    ∃ file, parse "a %* b" {} = .ok file ∧
      file.program.walk.filterMap Node.bareOperator? = ["%*"] ∧ file.program.Operates := by
  have counted : (parse "a %* b" {}).toOption.map
      (fun file => file.program.walk.filterMap Node.bareOperator?) = some ["%*"] := by
    decide +kernel
  obtain ⟨file, parsed, operators⟩ := exists_ok_of_map counted
  exact ⟨file, parsed, operators, (operators_written "a %* b" {}).2 file parsed⟩

/-- Not each token that stands for an operator has the text of an operator of the language. -/
theorem scan_misreads_percent_star :
    ¬∀ token ∈ (Lexer.scan { source := .ofString "a %* b" } true).tokens,
      token.kind.operators ≠ [] → ∃ word ∈ token.value.text?, word ∈ token.kind.operators := by
  decide +kernel

end Operator

end EcmaSyntax
