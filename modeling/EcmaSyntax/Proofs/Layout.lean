import EcmaSyntax.Proofs.Bracket
import EcmaSyntax.Proofs.Scan
import EcmaSyntax.Proofs.Yield.Forms
import EcmaSyntax.Proofs.Yield.Program

namespace EcmaSyntax

namespace Form

variable {form other : Form}

/-- What lies along the spine of a pattern heads no statement. -/
theorem isHead_of_isSpine (spine : form.isSpine = true) (field : String) :
    form.isHead field = false := by
  cases form <;> first | rfl | cases spine

/-- What changes its form as a target heads no statement. -/
theorem isHead_of_redressed (redressed : form.Redressed other) (field : String) :
    form.isHead field = false ∧ other.isHead field = false := by
  cases redressed <;> exact ⟨rfl, rfl⟩

/-- Nothing is asked of the lines of a target that was an expression. -/
theorem isUnlaid_of_redressed (redressed : form.Redressed other) : other.isUnlaid = true := by
  cases redressed <;> rfl

end Form

/-- The tokens that have been read are among those of a text, which are read in the end. -/
structure Lexer.State.Among (tokens : List Token) (lexer : Lexer.State) : Prop where
  ascending : Ascending lexer.settled
  settled : lexer.settled <+: tokens
  starts : lexer.tokens.map Token.start <+: tokens.map Token.start

/-- The tokens up to an earlier state are among those of a later one. -/
theorem Lexer.State.Among.earlier {setting : Lexer.Setting} {tokens : List Token}
    {first last : Lexer.State} (among : last.Among tokens) (traces : first.Traces setting last)
    (tracked : first.Tracked setting) : first.Among tokens :=
  ⟨among.ascending.init (traces.settled tracked), (traces.settled tracked).trans among.settled,
    (traces.starts tracked).trans among.starts⟩

/-- The law that the nodes in a tree stand on their lines as they have to, given the tokens that are
read of a text in the end. -/
def Law.parting (source : Source) (tokens : List Token) : Law where
  layout := .ofTokens source tokens
  good _ _ := Node.Parted (.ofTokens source tokens) false
  head _ _ := Node.Parted (.ofTokens source tokens) true
  operand _ := Node.Parted (.ofTokens source tokens) false
  above _ _ := Node.Parted (.ofTokens source tokens) false
  speaks setting := setting.source = source
  within := Lexer.State.Among tokens
  silent untyped := untyped.elim
  made _ _ _ lined headed := (Node.parted_iff_headed _ _).mpr ⟨lined.toLaid, headed⟩
  declared same placed := (Node.parted_iff_headed _ _).mpr
    ⟨.ofDeclaration same, (Form.headed_iff_placed fun _ => by rw [same]; rfl).mpr placed⟩
  head_of_good parted := parted.headed
  lined parted :=
    ⟨((Node.parted_iff_headed {} []).mp parted).1, Form.linked_ofTokens, fun _ => trivial⟩
  whole _ parted := parted []
  parenthesized parted _ := parted []
  good_of_operand parted _ := parted
  good_of_above parted _ := parted
  parts parted spine := by
    obtain ⟨-, headed⟩ := (Node.parted_iff_headed {} []).mp parted
    exact (Form.placed_iff_has (Form.isUniform_of_isSimple (Form.isSimple_of_isSpine spine))).mp
      ((Form.headed_iff_placed (Form.isHead_of_isSpine spine)).mp headed)
  redressed parted redressed placed := by
    have other := Form.isHead_of_redressed redressed
    obtain ⟨-, headed⟩ := (Node.parted_iff_headed _ _).mp parted
    exact (Node.parted_iff_headed _ _).mpr ⟨(Node.Lined.ofUnlaid
      (Form.isUnlaid_of_redressed redressed) : Node.Lined _ {} _).toLaid,
      (Form.headed_iff_placed fun field => (other field).2).mpr
        (placed ((Form.headed_iff_placed fun field => (other field).1).mp headed))⟩
  congr parted same lined := by
    obtain ⟨-, headed⟩ := (Node.parted_iff_headed {} []).mp parted
    exact (Node.parted_iff_headed {} []).mpr ⟨lined.toLaid, same ▸ headed⟩
  knows := by
    rintro setting lexer rfl tracked among
    exact Layout.knows_ofTokens tracked among.settled among.starts
  earlier traces tracked among := among.earlier traces tracked
  ascending among := among.ascending

/-- How statements are parted does not matter to operators. -/
theorem Law.parting_loose {source : Source} {tokens : List Token} :
    (Law.parting source tokens).Loose :=
  ⟨fun parted => parted [], fun parted => parted [], fun _ _ lined headed =>
    (Node.parted_iff_headed _ _).mpr ⟨lined.toLaid, headed⟩⟩

/-- The law that the words of the functions in a tree stand on their lines as they have to. -/
def Law.linking (source : Source) (tokens : List Token) (types : Bool) : Law where
  layout := .ofFunctions source tokens types
  good _ _ := Node.Linked (.ofFunctions source tokens types)
  head _ _ := Node.Linked (.ofFunctions source tokens types)
  operand _ := Node.Linked (.ofFunctions source tokens types)
  above _ _ := Node.Linked (.ofFunctions source tokens types)
  speaks setting := setting.source = source ∧ setting.flow = types
  within := Lexer.State.Among tokens
  silent untyped := untyped.elim
  made _ _ _ lined headed :=
    (Node.linked_iff_placed _ _).mpr ⟨lined.linked, Form.headed_self.mp headed⟩
  declared same placed :=
    (Node.linked_iff_placed _ _).mpr ⟨same ▸ trivial, placed⟩
  head_of_good linked := linked
  lined linked :=
    ⟨Node.laid_ofFunctions, ((Node.linked_iff_placed {} []).mp linked).1, fun _ => trivial⟩
  whole _ linked := linked []
  parenthesized linked _ := linked []
  good_of_operand linked _ := linked
  good_of_above linked _ := linked
  parts linked spine :=
    (Form.placed_iff_has (Form.isUniform_of_isSimple (Form.isSimple_of_isSpine spine))).mp
      ((Node.linked_iff_placed {} []).mp linked).2
  redressed linked redressed placed := (Node.linked_iff_placed _ _).mpr
    ⟨(Node.Lined.ofUnlaid (Form.isUnlaid_of_redressed redressed) : Node.Lined _ {} _).linked,
      placed ((Node.linked_iff_placed _ _).mp linked).2⟩
  congr linked same lined := (Node.linked_iff_placed {} []).mpr
    ⟨lined.linked, same ▸ ((Node.linked_iff_placed {} []).mp linked).2⟩
  knows := by
    rintro setting lexer ⟨rfl, rfl⟩ tracked among
    exact Layout.knows_ofFunctions tracked among.settled among.starts
  earlier traces tracked among := among.earlier traces tracked
  ascending among := among.ascending

/-- Which tokens stand on one line does not matter to operators. -/
theorem Law.linking_loose {source : Source} {tokens : List Token} {types : Bool} :
    (Law.linking source tokens types).Loose :=
  ⟨fun linked => linked [], fun linked => linked [], fun _ _ lined headed =>
    (Node.linked_iff_placed _ _).mpr ⟨lined.linked, Form.headed_self.mp headed⟩⟩

/-- The law that tokens spell the nodes in a tree that they have to spell. -/
def Law.spelling (source : Source) (tokens : List Token) : Law where
  layout := .ofSpelling source tokens
  good _ _ := Node.Everywhere (Node.Spelled (.ofSpelling source tokens) {})
  head _ _ := Node.Everywhere (Node.Spelled (.ofSpelling source tokens) {})
  operand _ := Node.Everywhere (Node.Spelled (.ofSpelling source tokens) {})
  above _ _ := Node.Everywhere (Node.Spelled (.ofSpelling source tokens) {})
  speaks setting := setting.source = source
  within := Lexer.State.Among tokens
  silent untyped := untyped.elim
  made _ _ _ lined headed :=
    (Node.everywhere_iff_placed _ _).mpr ⟨lined.spelled, Form.headed_self.mp headed⟩
  declared same placed :=
    (Node.everywhere_iff_placed _ _).mpr ⟨.ofUnspelled (same ▸ rfl), placed⟩
  head_of_good spelled := spelled
  lined spelled := ⟨Node.laid_ofSpelling, Form.linked_ofSpelling, spelled.here⟩
  whole _ spelled := spelled []
  parenthesized spelled _ := spelled []
  good_of_operand spelled _ := spelled
  good_of_above spelled _ := spelled
  parts spelled spine :=
    (Form.placed_iff_has (Form.isUniform_of_isSimple (Form.isSimple_of_isSpine spine))).mp
      ((Node.everywhere_iff_placed {} []).mp spelled).2
  redressed spelled redressed placed := (Node.everywhere_iff_placed _ _).mpr
    ⟨(Node.Lined.ofUnlaid (Form.isUnlaid_of_redressed redressed)).spelled,
      placed ((Node.everywhere_iff_placed _ _).mp spelled).2⟩
  congr spelled same lined := by
    obtain ⟨-, below⟩ := spelled
    exact .intro lined.spelled (same ▸ below)
  knows := by
    rintro setting lexer rfl - among
    exact Layout.knows_ofSpelling among.settled among.starts
  earlier traces tracked among := among.earlier traces tracked
  ascending among := among.ascending

/-- What tokens spell does not matter to operators. -/
theorem Law.spelling_loose {source : Source} {tokens : List Token} :
    (Law.spelling source tokens).Loose :=
  ⟨fun spelled => spelled [], fun spelled => spelled [], fun _ _ lined headed =>
    (Node.everywhere_iff_placed _ _).mpr ⟨lined.spelled, Form.headed_self.mp headed⟩⟩

/-- The tokens of a file end with the end of the text. -/
theorem File.Records.closed {setting : Lexer.Setting} {strictly : Bool} {file : File}
    (records : file.Records setting strictly) : Closed setting.source file.tokens := by
  obtain ⟨last, reached, ending, entries, -⟩ := records
  refine ⟨last.recorded, last.token, ?_, ending, reached.sound.atEnd ending⟩
  rw [File.tokens, entries, Lexer.State.recordToken, if_pos reached.tracked.recording]
  simp [Lexer.State.recorded, Entry.token?]

section Read

variable {file : File} {setting : Lexer.Setting} {mode : Mode} {ended : Lexer.State}

/-- The tokens of a file are those that its reading has come by. -/
theorem File.Read.among (read : file.Read setting mode ended) : ended.Among ended.tokens := by
  have settled : ended.settled = ended.tokens := by
    rw [Lexer.State.settled, read.atEnd]
    rfl
  exact ⟨settled ▸ read.ascending, settled ▸ List.prefix_rfl, List.prefix_rfl⟩

/-- The reading of a file ends with the token for the end of the text. -/
theorem File.Read.tokens_ended (read : file.Read setting mode ended) :
    ended.tokens = file.tokens ++ [ended.token] := by
  rw [read.tokens]
  rfl

end Read

/-- In the tree of every text that is parsed a statement that a semicolon ends, a directive with
them, ends with one, or a closing brace, the end of the text or a line terminator comes after it,
and so does a declaration of variables, but for one in the head of a loop. What is returned, thrown
or yielded, and the label that a jump names, is on the line of the word before it, and a step up or
down after its operand is on the line of the operand. -/
theorem parse_parted {text : String} {options : Options} {file : File}
    (parsed : parse text options = .ok file) :
    file.program.Parted (.ofTokens (options.setting text).source file.tokens) false := by
  obtain ⟨ended, read⟩ := parse_read parsed
  have parted := read.follows (.parting _ ended.tokens)
    (Grammar.rulesWithin_loose Law.parting_loose) rfl read.among
  have closed := (parse_records parsed).closed
  refine Node.Parted.mono (read.tokens_ended ▸ parted) fun laid => ?_
  exact laid.init closed read.atEnd (read.tracked.sound.atEnd read.atEnd)

/-- The declaration in the head of a loop ends with no semicolon, and the other statements end with
their lines. -/
theorem parse_parted_lines :
    ∃ file, parse "a: do break a; while (b++)\nfor (var c in d);\nthrow d" {} = .ok file ∧
      file.tokens.length = 22 ∧ file.program.Parted (.ofTokens (Options.setting {}
        "a: do break a; while (b++)\nfor (var c in d);\nthrow d").source file.tokens) false := by
  have counted : (parse "a: do break a; while (b++)\nfor (var c in d);\nthrow d" {}).toOption.map
      (fun file => file.tokens.length) = some 22 := by
    decide +kernel
  obtain ⟨file, parsed, all⟩ := exists_ok_of_map counted
  exact ⟨file, parsed, all, parse_parted parsed⟩

/-- In the tree of every text that is parsed the word of an asynchronous function that is no arrow
function is on the line of the word before it. Where no types belong to the language, the arrow of a
function that is not asynchronous is on the line of the token before it, with which its parameters
end. If an arrow function that is asynchronous begins with a name, its parameter comes next, which
may stand on any line, or the parenthesis before its parameters, which is on the line of the
name. -/
theorem parse_linked {text : String} {options : Options} {file : File}
    (parsed : parse text options = .ok file) :
    file.program.Linked (.ofFunctions (options.setting text).source file.tokens
      (options.setting text).flow) := by
  obtain ⟨ended, read⟩ := parse_read parsed
  have linked := read.follows (.linking _ ended.tokens _)
    (Grammar.rulesWithin_loose Law.linking_loose) ⟨rfl, rfl⟩ read.among
  have closed := (parse_records parsed).closed
  exact Node.Linked.mono (read.tokens_ended ▸ linked)
    (.init closed read.atEnd (read.tracked.sound.atEnd read.atEnd))

/-- The second function is not asynchronous, for its word is on another line than the one before it,
and the last statement is a call, for so is its parenthesis. -/
theorem parse_linked_lines :
    ∃ file, parse "async function f() {}\nasync\nfunction g() {}\n(a, b) => a\nasync (c) => c\nasync\n(d)"
      {} = .ok file ∧ file.tokens.length = 32 ∧ file.program.Linked (.ofFunctions (Options.setting {}
        "async function f() {}\nasync\nfunction g() {}\n(a, b) => a\nasync (c) => c\nasync\n(d)").source
          file.tokens false) := by
  have counted : (parse
      "async function f() {}\nasync\nfunction g() {}\n(a, b) => a\nasync (c) => c\nasync\n(d)"
        {}).toOption.map (fun file => file.tokens.length) = some 32 := by
    decide +kernel
  obtain ⟨file, parsed, all⟩ := exists_ok_of_map counted
  exact ⟨file, parsed, all, parse_linked parsed⟩

/-- Without markup and marks of types, a token behind a mark of a template is a chunk of it exactly
if a quote is the innermost bracket, if a scan of the text leaves no function unfinished. -/
theorem template_iff_quote {text : String} {options : Options} {file : File}
    (parsed : parse text options = .ok file) (noMarkup : options.hasDialect .jsx = false)
    (unmarked : Lexer.Unmarked (options.setting text) file.tokens)
    (finished : (Lexer.scan (options.setting text) options.strictMode).states.IsChain
      fun former latter => ¬former.Unfinished latter)
    {before after : List Token} {token mark : Token}
    (split : file.tokens = before ++ token :: mark :: after)
    (opened : ∃ mark ∈ before.getLast?, mark.kind.opensChunk = true) :
    token.kind = .template ↔ (Bracket.openAfter before).head? = some .quote := by
  have readBy := (parse_records parsed).readBy noMarkup unmarked
  have read := readBy.tokens
  rw [split, List.map_append, List.map_cons, List.map_cons] at read
  obtain ⟨earlier, later, tokens, same, follows⟩ := List.map_eq_append_iff.mp read
  obtain ⟨chunk, others, rfl, bare, follows⟩ := List.map_eq_cons_iff.mp follows
  obtain ⟨next, rest, rfl, -⟩ := List.map_eq_cons_iff.mp follows
  obtain ⟨opening, inside, opens⟩ := opened
  obtain ⟨first, rfl⟩ := List.getLast?_eq_some_iff.mp inside
  obtain ⟨begun, ends, rfl, -, last⟩ := List.map_eq_append_iff.mp (same.trans List.map_append)
  obtain ⟨quote, none, rfl, alike, nothing⟩ := List.map_eq_cons_iff.mp last
  obtain rfl := List.map_eq_nil_iff.mp nothing
  have kind := Token.kind_eq_of_bare alike
  have between : quote.kind ≠ .template := by
    rw [kind]
    rintro template
    simp [template, Kind.opensChunk] at opens
  rw [← Bracket.openAfter_bare same, ← Token.kind_eq_of_bare bare]
  exact Lexer.scan_template_iff noMarkup finished (tokens.trans (List.append_assoc ..)) between

/-- In the tree of every text that is parsed each chunk of a template covers a token between two
marks of the template. The chunk as it is written is the text of the token, with a line feed for
each carriage return, and what it stands for is the value of the token. Both are the same if the
token is a chunk of a template in which nothing is escaped, unless a line break of two characters
stands in it. The token is a chunk of a template if a substitution begins behind it. If the template
ends behind it, the token is one, without markup and marks of types, exactly if a quote is the
innermost bracket before it, as long as no bracket closes where a function has no body yet. -/
theorem parse_spelled {text : String} {options : Options} {file : File}
    (parsed : parse text options = .ok file) :
    file.program.Everywhere fun node => node.form.isSpelled = true → ∃ before token,
      Layout.Spelling (options.setting text).source file.tokens before token node.form node.start
        node.stop ∧
      (node.form.closing? = some .dollarBraceL → token.kind = .template) ∧
      (options.hasDialect .jsx = false → Lexer.Unmarked (options.setting text) file.tokens →
        (Lexer.scan (options.setting text) options.strictMode).states.IsChain
          (fun former latter => ¬former.Unfinished latter) →
        (token.kind = .template ↔ (Bracket.openAfter before).head? = some .quote)) := by
  obtain ⟨ended, read⟩ := parse_read parsed
  have spelled := read.follows (.spelling _ ended.tokens)
    (Grammar.rulesWithin_loose Law.spelling_loose) rfl read.among
  have holed : file.tokens.IsChain Lexer.Holed := by
    have holed := read.tracked.holed
    rw [read.tokens_ended] at holed
    exact holed.left_of_append
  refine Node.Everywhere.mono (read.tokens_ended ▸ spelled) fun node spelled form => ?_
  obtain ⟨before, token, spelling⟩ := Layout.Spells.init (spelled form) read.atEnd
  obtain ⟨mark, after, split, closes⟩ := spelling.closed
  refine ⟨before, token, spelling, fun hole => ?_, fun noMarkup unmarked finished =>
    template_iff_quote parsed noMarkup unmarked finished split spelling.opened⟩
  rw [split] at holed
  exact (List.isChain_cons_cons.mp holed.right_of_append).1 (Option.some.inj (closes.symm.trans hole))

/-- The carriage return in the first chunk is not followed by a line feed, and in the second chunk a
character is escaped. -/
theorem parse_spelled_chunks :
    ∃ file, parse "`a\rb${c}\\n`" {} = .ok file ∧ file.tokens.length = 8 ∧
      file.program.Everywhere fun node => node.form.isSpelled = true → ∃ before token,
        Layout.Spelling (Options.setting {} "`a\rb${c}\\n`").source file.tokens before token
          node.form node.start node.stop ∧
        (token.kind = .template ↔ (Bracket.openAfter before).head? = some .quote) := by
  have counted : (parse "`a\rb${c}\\n`" {}).toOption.map (fun file => file.tokens.length) =
      some 8 := by
    decide +kernel
  obtain ⟨file, parsed, all⟩ := exists_ok_of_map counted
  refine ⟨file, parsed, all, (parse_spelled parsed).mono fun node spelled form => ?_⟩
  obtain ⟨before, token, spelling, -, chunk⟩ := spelled form
  have untyped : Lexer.Unmarked (Options.setting {} "`a\rb${c}\\n`") file.tokens := fun flow =>
    absurd flow (by decide)
  exact ⟨before, token, spelling, chunk rfl untyped (by decide +kernel)⟩

end EcmaSyntax
