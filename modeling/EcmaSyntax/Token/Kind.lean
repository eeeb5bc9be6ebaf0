namespace EcmaSyntax

/-- The kind of a token. -/
inductive Kind where
  | num
  | regexp
  | string
  | name
  | eof
  | bracketL
  | bracketR
  | braceL
  | braceR
  | parenL
  | parenR
  | comma
  | semi
  | colon
  | doubleColon
  | dot
  | question
  | arrow
  | template
  | ellipsis
  | backQuote
  | dollarBraceL
  | at
  | eq
  | assign
  | incDec
  | prefixOp
  | logicalOr
  | logicalAnd
  | bitwiseOr
  | bitwiseXor
  | bitwiseAnd
  | equality
  | relational
  | bitShift
  | plusMin
  | modulo
  | star
  | slash
  | exponent
  | jsxName
  | jsxText
  | jsxTagStart
  | jsxTagEnd
  | kwBreak
  | kwCase
  | kwCatch
  | kwContinue
  | kwDebugger
  | kwDefault
  | kwDo
  | kwElse
  | kwFinally
  | kwFor
  | kwFunction
  | kwIf
  | kwReturn
  | kwSwitch
  | kwThrow
  | kwTry
  | kwVar
  | kwLet
  | kwConst
  | kwWhile
  | kwWith
  | kwNew
  | kwThis
  | kwSuper
  | kwClass
  | kwExtends
  | kwExport
  | kwImport
  | kwYield
  | kwNull
  | kwTrue
  | kwFalse
  | kwIn
  | kwInstanceof
  | kwTypeof
  | kwVoid
  | kwDelete
deriving DecidableEq, Inhabited, Repr

/-- The traits of a kind: its label, its word if it is a keyword, what may come before and
after it, and its precedence if it is a binary operator. -/
structure Traits where
  label : String
  keyword : Option String := none
  beforeExpr : Bool := false
  startsExpr : Bool := false
  rightAssociative : Bool := false
  isLoop : Bool := false
  isAssign : Bool := false
  isPrefixOp : Bool := false
  isPostfixOp : Bool := false
  precedence : Option Nat := none
deriving DecidableEq, Repr

namespace Kind

/-- The traits of each kind. An expression may follow a token that has `beforeExpr`, and may
begin with one that has `startsExpr`. -/
def traits : Kind → Traits
  | .num => { label := "num", startsExpr := true }
  | .regexp => { label := "regexp", startsExpr := true }
  | .string => { label := "string", startsExpr := true }
  | .name => { label := "name", startsExpr := true }
  | .eof => { label := "eof" }
  | .bracketL => { label := "[", beforeExpr := true, startsExpr := true }
  | .bracketR => { label := "]" }
  | .braceL => { label := "\x7b", beforeExpr := true, startsExpr := true }
  | .braceR => { label := "\x7d" }
  | .parenL => { label := "(", beforeExpr := true, startsExpr := true }
  | .parenR => { label := ")" }
  | .comma => { label := ",", beforeExpr := true }
  | .semi => { label := ";", beforeExpr := true }
  | .colon => { label := ":", beforeExpr := true }
  | .doubleColon => { label := "::", beforeExpr := true }
  | .dot => { label := "." }
  | .question => { label := "?", beforeExpr := true }
  | .arrow => { label := "=>", beforeExpr := true }
  | .template => { label := "template" }
  | .ellipsis => { label := "...", beforeExpr := true }
  | .backQuote => { label := "\x60", beforeExpr := true }
  | .dollarBraceL => { label := "$\x7b", beforeExpr := true, startsExpr := true }
  | .at => { label := "@" }
  | .eq => { label := "=", beforeExpr := true, isAssign := true }
  | .assign => { label := "_=", beforeExpr := true, isAssign := true }
  | .incDec => { label := "++/--", startsExpr := true, isPrefixOp := true, isPostfixOp := true }
  | .prefixOp => { label := "prefix", beforeExpr := true, startsExpr := true, isPrefixOp := true }
  | .logicalOr => { label := "||", beforeExpr := true, precedence := some 1 }
  | .logicalAnd => { label := "&&", beforeExpr := true, precedence := some 2 }
  | .bitwiseOr => { label := "|", beforeExpr := true, precedence := some 3 }
  | .bitwiseXor => { label := "^", beforeExpr := true, precedence := some 4 }
  | .bitwiseAnd => { label := "&", beforeExpr := true, precedence := some 5 }
  | .equality => { label := "==/!=", beforeExpr := true, precedence := some 6 }
  | .relational => { label := "</>", beforeExpr := true, precedence := some 7 }
  | .bitShift => { label := "<</>>", beforeExpr := true, precedence := some 8 }
  | .plusMin =>
    { label := "+/-", beforeExpr := true,
      startsExpr := true, isPrefixOp := true, precedence := some 9 }
  | .modulo => { label := "%", beforeExpr := true, precedence := some 10 }
  | .star => { label := "*", beforeExpr := true, precedence := some 10 }
  | .slash => { label := "/", beforeExpr := true, precedence := some 10 }
  | .exponent =>
    { label := "**", beforeExpr := true, rightAssociative := true, precedence := some 11 }
  | .jsxName => { label := "jsxName" }
  | .jsxText => { label := "jsxText", beforeExpr := true }
  | .jsxTagStart => { label := "jsxTagStart" }
  | .jsxTagEnd => { label := "jsxTagEnd" }
  | .kwBreak => { label := "break", keyword := some "break" }
  | .kwCase => { label := "case", keyword := some "case", beforeExpr := true }
  | .kwCatch => { label := "catch", keyword := some "catch" }
  | .kwContinue => { label := "continue", keyword := some "continue" }
  | .kwDebugger => { label := "debugger", keyword := some "debugger" }
  | .kwDefault => { label := "default", keyword := some "default", beforeExpr := true }
  | .kwDo => { label := "do", keyword := some "do", beforeExpr := true, isLoop := true }
  | .kwElse => { label := "else", keyword := some "else", beforeExpr := true }
  | .kwFinally => { label := "finally", keyword := some "finally" }
  | .kwFor => { label := "for", keyword := some "for", isLoop := true }
  | .kwFunction => { label := "function", keyword := some "function", startsExpr := true }
  | .kwIf => { label := "if", keyword := some "if" }
  | .kwReturn => { label := "return", keyword := some "return", beforeExpr := true }
  | .kwSwitch => { label := "switch", keyword := some "switch" }
  | .kwThrow => { label := "throw", keyword := some "throw", beforeExpr := true }
  | .kwTry => { label := "try", keyword := some "try" }
  | .kwVar => { label := "var", keyword := some "var" }
  | .kwLet => { label := "let", keyword := some "let" }
  | .kwConst => { label := "const", keyword := some "const" }
  | .kwWhile => { label := "while", keyword := some "while", isLoop := true }
  | .kwWith => { label := "with", keyword := some "with" }
  | .kwNew => { label := "new", keyword := some "new", beforeExpr := true, startsExpr := true }
  | .kwThis => { label := "this", keyword := some "this", startsExpr := true }
  | .kwSuper => { label := "super", keyword := some "super", startsExpr := true }
  | .kwClass => { label := "class", keyword := some "class" }
  | .kwExtends => { label := "extends", keyword := some "extends", beforeExpr := true }
  | .kwExport => { label := "export", keyword := some "export" }
  | .kwImport => { label := "import", keyword := some "import" }
  | .kwYield =>
    { label := "yield", keyword := some "yield", beforeExpr := true, startsExpr := true }
  | .kwNull => { label := "null", keyword := some "null", startsExpr := true }
  | .kwTrue => { label := "true", keyword := some "true", startsExpr := true }
  | .kwFalse => { label := "false", keyword := some "false", startsExpr := true }
  | .kwIn => { label := "in", keyword := some "in", beforeExpr := true, precedence := some 7 }
  | .kwInstanceof =>
    { label := "instanceof", keyword := some "instanceof",
      beforeExpr := true, precedence := some 7 }
  | .kwTypeof =>
    { label := "typeof", keyword := some "typeof",
      beforeExpr := true, startsExpr := true, isPrefixOp := true }
  | .kwVoid =>
    { label := "void", keyword := some "void",
      beforeExpr := true, startsExpr := true, isPrefixOp := true }
  | .kwDelete =>
    { label := "delete", keyword := some "delete",
      beforeExpr := true, startsExpr := true, isPrefixOp := true }

/-- All kinds, in the order of their listing. -/
def all : List Kind :=
  [.num, .regexp, .string, .name, .eof, .bracketL, .bracketR, .braceL, .braceR, .parenL, .parenR,
    .comma, .semi, .colon, .doubleColon, .dot, .question, .arrow, .template, .ellipsis,
    .backQuote, .dollarBraceL, .at, .eq, .assign, .incDec, .prefixOp, .logicalOr, .logicalAnd,
    .bitwiseOr, .bitwiseXor, .bitwiseAnd, .equality, .relational, .bitShift, .plusMin, .modulo,
    .star, .slash, .exponent, .jsxName, .jsxText, .jsxTagStart, .jsxTagEnd, .kwBreak, .kwCase,
    .kwCatch, .kwContinue, .kwDebugger, .kwDefault, .kwDo, .kwElse, .kwFinally, .kwFor,
    .kwFunction, .kwIf, .kwReturn, .kwSwitch, .kwThrow, .kwTry, .kwVar, .kwLet, .kwConst,
    .kwWhile, .kwWith, .kwNew, .kwThis, .kwSuper, .kwClass, .kwExtends, .kwExport, .kwImport,
    .kwYield, .kwNull, .kwTrue, .kwFalse, .kwIn, .kwInstanceof, .kwTypeof, .kwVoid, .kwDelete]

/-- The name under which a kind is spoken of. -/
def tag : Kind → String
  | .num => "Num"
  | .regexp => "Regexp"
  | .string => "String"
  | .name => "Name"
  | .eof => "Eof"
  | .bracketL => "BracketL"
  | .bracketR => "BracketR"
  | .braceL => "BraceL"
  | .braceR => "BraceR"
  | .parenL => "ParenL"
  | .parenR => "ParenR"
  | .comma => "Comma"
  | .semi => "Semi"
  | .colon => "Colon"
  | .doubleColon => "DoubleColon"
  | .dot => "Dot"
  | .question => "Question"
  | .arrow => "Arrow"
  | .template => "Template"
  | .ellipsis => "Ellipsis"
  | .backQuote => "BackQuote"
  | .dollarBraceL => "DollarBraceL"
  | .at => "At"
  | .eq => "Eq"
  | .assign => "Assign"
  | .incDec => "IncDec"
  | .prefixOp => "Prefix"
  | .logicalOr => "LogicalOr"
  | .logicalAnd => "LogicalAnd"
  | .bitwiseOr => "BitwiseOr"
  | .bitwiseXor => "BitwiseXor"
  | .bitwiseAnd => "BitwiseAnd"
  | .equality => "Equality"
  | .relational => "Relational"
  | .bitShift => "BitShift"
  | .plusMin => "PlusMin"
  | .modulo => "Modulo"
  | .star => "Star"
  | .slash => "Slash"
  | .exponent => "Exponent"
  | .jsxName => "JsxName"
  | .jsxText => "JsxText"
  | .jsxTagStart => "JsxTagStart"
  | .jsxTagEnd => "JsxTagEnd"
  | .kwBreak => "Break"
  | .kwCase => "Case"
  | .kwCatch => "Catch"
  | .kwContinue => "Continue"
  | .kwDebugger => "Debugger"
  | .kwDefault => "Default"
  | .kwDo => "Do"
  | .kwElse => "Else"
  | .kwFinally => "Finally"
  | .kwFor => "For"
  | .kwFunction => "Function"
  | .kwIf => "If"
  | .kwReturn => "Return"
  | .kwSwitch => "Switch"
  | .kwThrow => "Throw"
  | .kwTry => "Try"
  | .kwVar => "Var"
  | .kwLet => "Let"
  | .kwConst => "Const"
  | .kwWhile => "While"
  | .kwWith => "With"
  | .kwNew => "New"
  | .kwThis => "This"
  | .kwSuper => "Super"
  | .kwClass => "Class"
  | .kwExtends => "Extends"
  | .kwExport => "Export"
  | .kwImport => "Import"
  | .kwYield => "Yield"
  | .kwNull => "Null"
  | .kwTrue => "True"
  | .kwFalse => "False"
  | .kwIn => "In"
  | .kwInstanceof => "Instanceof"
  | .kwTypeof => "Typeof"
  | .kwVoid => "Void"
  | .kwDelete => "Delete"

/-- The kind of a given name. -/
def ofTag? (tag : String) : Option Kind := all.find? (·.tag == tag)

def label (kind : Kind) : String := kind.traits.label

def keyword? (kind : Kind) : Option String := kind.traits.keyword

def isKeyword (kind : Kind) : Bool := kind.keyword?.isSome

def beforeExpr (kind : Kind) : Bool := kind.traits.beforeExpr

def startsExpr (kind : Kind) : Bool := kind.traits.startsExpr

def rightAssociative (kind : Kind) : Bool := kind.traits.rightAssociative

def isLoop (kind : Kind) : Bool := kind.traits.isLoop

def isAssign (kind : Kind) : Bool := kind.traits.isAssign

def isPrefixOp (kind : Kind) : Bool := kind.traits.isPrefixOp

def isPostfixOp (kind : Kind) : Bool := kind.traits.isPostfixOp

def precedence? (kind : Kind) : Option Nat := kind.traits.precedence

/-- The kind of a keyword. -/
def ofKeyword? (word : String) : Option Kind := all.find? (·.keyword? == some word)

end Kind

end EcmaSyntax
