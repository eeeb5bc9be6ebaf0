namespace EcmaSyntax

/-- A context is a construct that is open where a token is read. -/
inductive Context where
  /-- A brace that opens a block. -/
  | braceStatement
  /-- A brace that opens an object. -/
  | braceExpression
  /-- A brace that opens a substitution in a template. -/
  | braceTemplate
  /-- A parenthesis that belongs to the head of a statement. -/
  | parenStatement
  /-- Any other parenthesis. -/
  | parenExpression
  /-- The inside of a template, where blanks count. -/
  | quoteTemplate
  /-- A function that is an expression. -/
  | functionExpression
  /-- The inside of an opening tag. -/
  | jsxOpenTag
  /-- The inside of a closing tag. -/
  | jsxCloseTag
  /-- The text between two tags. -/
  | jsxExpression
deriving DecidableEq, Inhabited, Repr

namespace Context

/-- All contexts, in the order of their listing. -/
def all : List Context :=
  [.braceStatement, .braceExpression, .braceTemplate, .parenStatement, .parenExpression,
    .quoteTemplate, .functionExpression, .jsxOpenTag, .jsxCloseTag, .jsxExpression]

/-- The name under which a context is spoken of. -/
def tag : Context → String
  | .braceStatement => "BraceStatement"
  | .braceExpression => "BraceExpression"
  | .braceTemplate => "BraceTemplate"
  | .parenStatement => "ParenStatement"
  | .parenExpression => "ParenExpression"
  | .quoteTemplate => "QuoteTemplate"
  | .functionExpression => "FunctionExpression"
  | .jsxOpenTag => "JsxOpenTag"
  | .jsxCloseTag => "JsxCloseTag"
  | .jsxExpression => "JsxExpression"

/-- The text that opens a context. -/
def opening : Context → String
  | .braceStatement => "\x7b"
  | .braceExpression => "\x7b"
  | .braceTemplate => "$\x7b"
  | .parenStatement => "("
  | .parenExpression => "("
  | .quoteTemplate => "\x60"
  | .functionExpression => "function"
  | .jsxOpenTag => "<tag"
  | .jsxCloseTag => "</tag"
  | .jsxExpression => "<tag>...</tag>"

/-- The end of such a context ends an expression, so that a slash after it divides. -/
def isExpression : Context → Bool
  | .braceExpression => true
  | .braceTemplate => true
  | .parenExpression => true
  | .functionExpression => true
  | .jsxExpression => true
  | _ => false

/-- Blanks and comments belong to the content of such a context. -/
def keepsBlanks : Context → Bool
  | .quoteTemplate => true
  | .jsxExpression => true
  | _ => false

end Context

end EcmaSyntax
