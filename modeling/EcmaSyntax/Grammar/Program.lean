import EcmaSyntax.Grammar.Expression.Primary
import EcmaSyntax.Grammar.Statement.Basic
import EcmaSyntax.Grammar.Type.Expression
import EcmaSyntax.Text.Blank

namespace EcmaSyntax

namespace Grammar

/-- The rule for each goal, given the rules that it refers to. -/
def rule (rules : Rules) : Rules
  | .statement declaration topLevel => statement rules declaration topLevel
  | .assignment noIn inParens => assignment rules noIn inParens
  | .operators left mark level noIn => operators rules left mark level noIn
  | .unary => unary rules
  | .atom => primary rules
  | .binding => binding rules
  | .element mark => element rules mark
  | .type => typeExpression rules
  | .prefixType => prefixType rules
  | .primaryType => primaryType rules
  | .declared mark => declared rules mark

/-- The rules as far as they refer to each other at most so many times in a row. -/
def rulesWithin : Nat → Rules
  | 0 => fun _ => tooDeep
  | count + 1 => rule (rulesWithin count)

/-- The number of rules that may refer to each other in a row for a text of so many bytes:
each token is passed within a few of them. -/
def ruleLimit (size : Nat) : Nat := 16 * size + 64

/-- A program is read to its end from its first token on. -/
def programNode (mark : Mark) : Parse Node := do
  let rules := rulesWithin (ruleLimit (← read).source.size)
  let (directives, body) ← blockParts rules true true .eof
  finish mark (.program (← read).options.sourceType directives body)

/-- The file of a program takes the record. -/
def closeFile (mark : Mark) (node : Node) : Parse File := do
  let (entries, comments) ← lex Lexer.takeRecord
  let id ← freshId
  let lexer := (← get).lexer
  attach id mark.pos lexer.lastStop
  return {
    id
    start := mark.pos
    stop := lexer.lastStop
    loc := ⟨mark.loc, lexer.lastStopLoc⟩
    program := node
    comments
    entries
    attachments := (← get).attachments }

/-- The first token of a text is read, and then the rest of it. -/
def program : Parse File := do
  let mark ← mark
  lex Lexer.nextToken
  closeFile mark (← programNode mark)

/-- A parse has its answer, unless the counter of the identities has run over and this is a fault.
Where it is one, the parse ended there: identities that are spent stay so, whatever comes after, and
nothing that is tried takes it back. -/
def Identities.judge (identities : Identities) (overflow : Overflow) (answer : Except Failure File) :
    Except Failure File :=
  if overflow == .faults && identities.spent then .error (.fault .overflow) else answer

/-- A parse has ended in a state. -/
def conclude (overflow : Overflow) : EStateM.Result Failure State File → Except Failure File
  | .ok file last => last.identities.judge overflow (.ok file)
  | .error failure last => last.identities.judge overflow (.error failure)

/-- A text without carriage returns before line feeds is parsed. -/
def parseText (text : List Char) (options : Options) (overflow : Overflow := .wraps) :
    Except Failure File :=
  conclude overflow <| (do
    lex Lexer.skipShebang
    program : Parse File) (.ofText text options) (.initial options.startsStrict)

end Grammar

/-- A text is parsed; a carriage return before a line feed is left out first. -/
def parse (text : String) (options : Options) (overflow : Grammar.Overflow := .wraps) :
    Except Failure File :=
  Grammar.parseText (LineEnding.normalize text).toList options overflow

end EcmaSyntax
