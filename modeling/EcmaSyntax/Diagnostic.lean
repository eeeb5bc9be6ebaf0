import EcmaSyntax.Text.LineMap

namespace EcmaSyntax

/-- A template is filled by putting each argument for every mark of its number, in turn. -/
def fillTemplate (template : String) (arguments : List String) : String :=
  arguments.zipIdx.foldl
    (fun text (argument, index) =>
      text.replace ("\x7b" ++ toString index ++ "\x7d") argument)
    template

/-- A problem is a reason for which a text is no program. -/
inductive Problem where
  | unexpectedToken
  | unexpectedCharacter (character : Char)
  | unterminatedComment
  | unterminatedRegExp
  | invalidRegExpFlag
  | expectedNumber (radix : Nat)
  | identifierAfterNumber
  | invalidNumber
  | codePointOutOfBounds
  | unterminatedString
  | unterminatedTemplate
  | octalInStrict
  | badEscape
  | expectedUnicodeEscape
  | invalidUnicodeEscape
  | protoRedefined
  | parenthesizedObjectPattern
  | parenthesizedArrayPattern
  | unaryBeforeExponent
  | deleteLocalInStrict
  | superOutsideMethod
  | superCallOutsideConstructor
  | bindOnNonMember
  | getterArity
  | setterArity
  | bindingYieldInStrict
  | reservedKeyword (word : String)
  | awaitInAsync
  | metaProperty (name property : String)
  | accessorInPattern
  | methodInPattern
  | defaultOperator
  | assigningToValue
  | bindingValue
  | bindingMember
  | argumentNameClash
  | bindingInStrict (name : String)
  | assigningInStrict (name : String)
  | bindingWord (name : String)
  | moduleItemNotTopLevel
  | moduleItemInScript
  | leadingDecorators
  | jumpWithoutTarget (keyword : String)
  | multipleDefaults
  | newlineAfterThrow
  | missingCatchOrFinally
  | returnOutsideFunction
  | withInStrict
  | labelDeclared (name : String)
  | patternWithoutInitializer
  | duplicateConstructor
  | constructorAccessor
  | constructorGenerator
  | constructorAsync
  | staticPrototype
  | duplicateConstructorCall
  | decoratedConstructor
  | trailingMethodDecorators
  | exportDecorators
  | groupedFunctionType
  | unexpectedTypeCast
  | unterminatedMarkup
  | emptyAttribute
  | badAttributeValue
  | closingTag (name : String)
  | adjacentElements
  | other (text : String)
deriving DecidableEq, Repr

namespace Problem

/-- The wording of a problem, without its place. -/
def message : Problem → String
  | unexpectedToken => "Unexpected token"
  | unexpectedCharacter character =>
    fillTemplate "Unexpected character '\x7b0\x7d'" [character.toString]
  | unterminatedComment => "Unterminated comment"
  | unterminatedRegExp => "Unterminated regular expression"
  | invalidRegExpFlag => "Invalid regular expression flag"
  | expectedNumber radix => fillTemplate "Expected number in radix \x7b0\x7d" [toString radix]
  | identifierAfterNumber => "Identifier directly after number"
  | invalidNumber => "Invalid number"
  | codePointOutOfBounds => "Code point out of bounds"
  | unterminatedString => "Unterminated string constant"
  | unterminatedTemplate => "Unterminated template"
  | octalInStrict => "Octal literal in strict mode"
  | badEscape => "Bad character escape sequence"
  | expectedUnicodeEscape => "Expecting Unicode escape sequence \\uXXXX"
  | invalidUnicodeEscape => "Invalid Unicode escape"
  | protoRedefined => "Redefinition of __proto__ property"
  | parenthesizedObjectPattern =>
    "You're trying to assign to a parenthesized expression, eg. instead of " ++
      "\x60(\x7ba\x7d) = 0\x60 use \x60(\x7ba\x7d = 0)\x60"
  | parenthesizedArrayPattern =>
    "You're trying to assign to a parenthesized expression, eg. instead of " ++
      "\x60([a]) = 0\x60 use \x60([a] = 0)\x60"
  | unaryBeforeExponent =>
    "Illegal expression. Wrap left hand side or entire exponentiation in parentheses."
  | deleteLocalInStrict => "Deleting local variable in strict mode"
  | superOutsideMethod => "'super' outside of function or class"
  | superCallOutsideConstructor => "super() outside of class constructor"
  | bindOnNonMember => "Binding should be performed on object property."
  | getterArity => "getter should have no params"
  | setterArity => "setter should have exactly one param"
  | bindingYieldInStrict => "Binding yield in strict mode"
  | reservedKeyword word => fillTemplate "The keyword '\x7b0\x7d' is reserved" [word]
  | awaitInAsync => "invalid use of await inside of an async function"
  | metaProperty name property =>
    fillTemplate "The only valid meta property for \x7b0\x7d is \x7b0\x7d.\x7b1\x7d" [name, property]
  | accessorInPattern => "Object pattern can't contain getter or setter"
  | methodInPattern => "Object pattern can't contain methods"
  | defaultOperator => "Only '=' operator can be used for specifying default value."
  | assigningToValue => "Assigning to rvalue"
  | bindingValue => "Binding rvalue"
  | bindingMember => "Binding member expression"
  | argumentNameClash => "Argument name clash in strict mode"
  | bindingInStrict name => fillTemplate "Binding \x7b0\x7d in strict mode" [name]
  | assigningInStrict name => fillTemplate "Assigning to \x7b0\x7d in strict mode" [name]
  | bindingWord name => fillTemplate "Binding \x7b0\x7d" [name]
  | moduleItemNotTopLevel => "'import' and 'export' may only appear at the top level"
  | moduleItemInScript => "'import' and 'export' may appear only with 'sourceType: module'"
  | leadingDecorators => "Leading decorators must be attached to a class declaration"
  | jumpWithoutTarget keyword => fillTemplate "Unsyntactic \x7b0\x7d" [keyword]
  | multipleDefaults => "Multiple default clauses"
  | newlineAfterThrow => "Illegal newline after throw"
  | missingCatchOrFinally => "Missing catch or finally clause"
  | returnOutsideFunction => "'return' outside of function"
  | withInStrict => "'with' in strict mode"
  | labelDeclared name => fillTemplate "Label '\x7b0\x7d' is already declared" [name]
  | patternWithoutInitializer => "Complex binding patterns require an initialization value"
  | duplicateConstructor => "Duplicate constructor in the same class"
  | constructorAccessor => "Constructor can't have get/set modifier"
  | constructorGenerator => "Constructor can't be a generator"
  | constructorAsync => "Constructor can't be an async function"
  | staticPrototype => "Classes may not have static property named prototype"
  | duplicateConstructorCall => "Duplicate constructor call in the same class"
  | decoratedConstructor => "You can't attach decorators to a class constructor"
  | trailingMethodDecorators => "You have trailing decorators with no method"
  | exportDecorators => "You can only use decorators on an export when exporting a class"
  | groupedFunctionType =>
    "Unexpected token =>. It looks like you are trying to write a function " ++
      "type, but you ended up writing a grouped type followed by an =>, which is a syntax " ++
      "error. Remember, function type parameters are named so function types look like " ++
      "(name1: type1, name2: type2) => returnType. You probably wrote (type1) => returnType"
  | unexpectedTypeCast => "Unexpected type cast"
  | unterminatedMarkup => "Unterminated JSX contents"
  | emptyAttribute => "JSX attributes must only be assigned a non-empty expression"
  | badAttributeValue =>
    "JSX value should be either an expression or a quoted JSX text"
  | closingTag name =>
    fillTemplate "Expected corresponding JSX closing tag for <\x7b0\x7d>" [name]
  | adjacentElements => "Adjacent JSX elements must be wrapped in an enclosing tag"
  | other text => text

end Problem

/-- The part of a message before its last blank and opening parenthesis, if it has them. -/
def beforeLastParenthesis : List Char → Option (List Char)
  | [] => none
  | character :: rest =>
    match beforeLastParenthesis rest with
    | some before => some (character :: before)
    | none => if character = ' ' && rest.head? = some '(' then some [] else none

/-- A syntax error is a problem and the place where it was found. -/
structure SyntaxError where
  problem : Problem
  pos : Nat
  loc : Position
deriving DecidableEq, Repr

namespace SyntaxError

/-- The error for a problem at an offset of a text. -/
def inText (text : List Char) (pos : Nat) (problem : Problem) : SyntaxError :=
  ⟨problem, pos, locate text pos⟩

/-- The message ends with the place in parentheses. -/
def message (error : SyntaxError) : String :=
  error.problem.message ++ " (" ++ error.loc.text ++ ")"

/-- The message without its last parenthesis. -/
def bareMessage (error : SyntaxError) : String :=
  match beforeLastParenthesis error.message.toList with
  | some before => String.ofList before
  | none => error.message

end SyntaxError

/-- A fault is a step that no reading of a text takes. -/
inductive Fault where
  | slice (start stop : Nat)
  | column (start pos : Nat)
  | offset (pos count : Nat)
  | line
  | split (count : Nat)
  | emptyAttachment
  | overflow
deriving DecidableEq, Repr

/-- A failure ends a reading: a syntax error, a nesting too deep to follow, or a fault. -/
inductive Failure where
  | syntaxError (error : SyntaxError)
  | nestingTooDeep (pos : Nat) (loc : Position)
  | fault (reason : Fault)
deriving DecidableEq, Repr

namespace Failure

/-- The message of a failure, with its place. -/
def message : Failure → String
  | syntaxError error => error.message
  | nestingTooDeep _ loc => "Maximum nesting depth exceeded (" ++ loc.text ++ ")"
  | fault _ => "Internal fault"

/-- The place of a failure in its text. -/
def loc? : Failure → Option Position
  | syntaxError error => some error.loc
  | nestingTooDeep _ loc => some loc
  | fault _ => none

end Failure

end EcmaSyntax
