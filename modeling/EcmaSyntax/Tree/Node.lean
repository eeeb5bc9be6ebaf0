import EcmaSyntax.Text.LineMap

namespace EcmaSyntax

/-- The identity of a node within a parse. -/
abbrev NodeId := UInt32

/-- Code is a script or a module. -/
inductive SourceType where
  | script
  | module
deriving DecidableEq, Inhabited, Repr

/-- The word for a kind of code. -/
def SourceType.text : SourceType → String
  | .script => "script"
  | .module => "module"

/-- The word that begins a declaration of variables. -/
inductive VariableKind where
  | variable
  | mutable
  | constant
deriving DecidableEq, Inhabited, Repr

def VariableKind.text : VariableKind → String
  | .variable => "var"
  | .mutable => "let"
  | .constant => "const"

/-- The kind of a method of a class or an object. -/
inductive MethodKind where
  | constructing
  | calling
  | plain
  | getter
  | setter
deriving DecidableEq, Inhabited, Repr

/-- The word for a kind of method; a calling one stands for a class that is called. -/
def MethodKind.text : MethodKind → String
  | .constructing => "constructor"
  | .calling => "constructorCall"
  | .plain => "method"
  | .getter => "get"
  | .setter => "set"

/-- What an import or export speaks of: a value, a type, or the type of a value. -/
inductive BindingKind where
  | value
  | type
  | typeof
deriving DecidableEq, Inhabited, Repr

def BindingKind.text : BindingKind → String
  | .value => "value"
  | .type => "type"
  | .typeof => "typeof"

/-- The value that a literal had where it was written. -/
inductive RawValue where
  | text (value : String)
  | number (value : Float)
deriving Inhabited

/-- How a node was written, where that does not show in its form. -/
structure Extra where
  raw : Option String := none
  rawValue : Option RawValue := none
  parenthesized : Bool := false
  parenStart : Option Nat := none
  parenthesizedArgument : Option Bool := none
deriving Inhabited

mutual

/-- A node is a form with the bytes and positions that it covers. Its identity tells it from
the other nodes of its tree, unless so many have been built that identities had to be given
again. -/
structure Node where
  id : NodeId
  form : Form
  start : Nat
  stop : Nat
  loc : Location
  extra : Option Extra := none

/-- The parts of a function, a method or an arrow. -/
structure FunctionForm where
  id : Option Node
  typeParameters : Option Node
  params : List Node
  returnType : Option Node
  body : Node
  generator : Bool
  isAsync : Bool
  isExpression : Bool

/-- The parts of a class. -/
structure ClassForm where
  decorators : List Node
  id : Option Node
  typeParameters : Option Node
  superClass : Option Node
  superTypeParameters : Option Node
  implemented : Option (List Node)
  body : Node

/-- The form of a node tells what it is and what it consists of. The parts that are nodes
stand in the order in which they are visited. -/
inductive Form where
  | program (sourceType : SourceType) (directives body : List Node)
  | directive (value : Node)
  | directiveLiteral (value : String)
  | identifier (name : String) (annot : Option Node) (isOptional : Bool)
  | regExpLiteral (pattern flags : String)
  | nullLiteral
  | stringLiteral (value : String)
  | booleanLiteral (value : Bool)
  | numericLiteral (value : Float)
  | expressionStatement (expression : Node)
  | blockStatement (directives body : List Node)
  | emptyStatement
  | debuggerStatement
  | withStatement (object body : Node)
  | returnStatement (argument : Option Node)
  | labeledStatement (label body : Node)
  | breakStatement (label : Option Node)
  | continueStatement (label : Option Node)
  | ifStatement (test consequent : Node) (alternate : Option Node)
  | switchStatement (discriminant : Node) (cases : List Node)
  | switchCase (test : Option Node) (consequent : List Node)
  | throwStatement (argument : Node)
  | tryStatement (block : Node) (handler : Option Node) (guardedHandlers : List Node)
    (finalizer : Option Node)
  | catchClause (param body : Node)
  | whileStatement (test body : Node)
  | doWhileStatement (body test : Node)
  | forStatement (init test update : Option Node) (body : Node)
  | forInStatement (left right body : Node)
  | forOfStatement (left right body : Node)
  | functionDeclaration (function : FunctionForm)
  | variableDeclaration (kind : VariableKind) (declarations : List Node)
  | variableDeclarator (id : Node) (init : Option Node)
  | decorator (expression : Node)
  | superKeyword
  | thisExpression
  | arrowFunctionExpression (function : FunctionForm)
  | yieldExpression (delegate : Bool) (argument : Option Node)
  | awaitExpression (all : Bool) (argument : Node)
  | arrayExpression (elements : List (Option Node)) (annot : Option Node)
  | objectExpression (properties : List Node) (annot : Option Node)
  | objectProperty (method shorthand computed : Bool) (decorators : List Node) (key value : Node)
  | objectMethod (kind : MethodKind) (method shorthand computed : Bool) (decorators : List Node)
    (key : Node) (function : FunctionForm)
  | spreadProperty (argument : Node)
  | restProperty (argument : Node)
  | functionExpression (function : FunctionForm)
  | unaryExpression (operator : String) (isPrefix : Bool) (argument : Node)
  | updateExpression (operator : String) (isPrefix : Bool) (argument : Node)
  | binaryExpression (operator : String) (left right : Node)
  | assignmentExpression (operator : String) (left right : Node) (annot : Option Node)
  | logicalExpression (operator : String) (left right : Node)
  | spreadElement (argument : Node)
  | memberExpression (object property : Node) (computed : Bool)
  | bindExpression (object : Option Node) (callee : Node)
  | conditionalExpression (test consequent alternate : Node)
  | callExpression (callee : Node) (arguments : List Node)
  | newExpression (callee : Node) (arguments : List Node)
  | sequenceExpression (expressions : List Node)
  | doExpression (body : Node)
  | templateLiteral (quasis expressions : List Node)
  | taggedTemplateExpression (tag quasi : Node)
  | templateElement (raw cooked : String) (tail : Bool)
  | metaProperty (metaName property : Node)
  | objectPattern (properties : List Node) (annot : Option Node) (isOptional : Bool)
  | arrayPattern (elements : List (Option Node)) (annot : Option Node) (isOptional : Bool)
  | restElement (argument : Node) (annot : Option Node) (isOptional : Bool)
  | assignmentPattern (left right : Node) (annot : Option Node)
  | classBody (body : List Node)
  | classMethod (kind : MethodKind) (computed isStatic : Bool) (decorators : List Node)
    (key : Node) (function : FunctionForm)
  | classProperty (computed isStatic : Bool) (decorators : List Node) (key : Node)
    (annot value : Option Node)
  | classDeclaration (heading : ClassForm)
  | classExpression (heading : ClassForm)
  | importDeclaration (specifiers : List Node) (source : Node) (importKind : Option BindingKind)
  | importSpecifier (imported localName : Node)
  | importDefaultSpecifier (localName : Node)
  | importNamespaceSpecifier (localName : Node)
  | exportNamedDeclaration (declaration : Option Node) (specifiers : List Node)
    (source : Option Node) (exportKind : Option BindingKind)
  | exportDefaultDeclaration (declaration : Node)
  | exportAllDeclaration (source : Node)
  | exportSpecifier (localName exported : Node)
  | exportDefaultSpecifier (exported : Node)
  | exportNamespaceSpecifier (exported : Node)
  | jsxAttribute (name : Node) (value : Option Node)
  | jsxClosingElement (name : Node)
  | jsxElement (openingElement : Node) (children : List Node) (closingElement : Option Node)
  | jsxEmptyExpression
  | jsxExpressionContainer (expression : Node)
  | jsxSpreadAttribute (argument : Node)
  | jsxIdentifier (name : String)
  | jsxMemberExpression (object property : Node)
  | jsxNamespacedName (space name : Node)
  | jsxOpeningElement (name : Node) (attributes : List Node) (selfClosing : Bool)
  | jsxText (value : String)
  | typeAlias (id : Node) (typeParameters : Option Node) (right : Node)
  | interfaceDeclaration (id : Node) (typeParameters : Option Node) (supers : List Node)
    (body : Node)
  | interfaceExtends (id : Node) (typeParameters : Option Node)
  | declareClass (id : Node) (typeParameters : Option Node) (supers : List Node) (body : Node)
  | declareFunction (id : Node)
  | declareVariable (id : Node)
  | declareModule (id body : Node)
  | classImplements (id : Node) (typeParameters : Option Node)
  | typeCastExpression (expression annot : Node) (listItem : Bool)
  | typeAnnot (annot : Node)
  | typeParameterDeclaration (params : List Node)
  | typeParameterInstantiation (params : List Node)
  | existentialTypeParam
  | anyType
  | voidType
  | booleanType
  | mixedType
  | numberType
  | stringType
  | stringLiteralType (value : String)
  | numericLiteralType (value : Float)
  | booleanLiteralType (value : Bool)
  | nullLiteralType
  | thisType
  | genericType (id : Node) (typeParameters : Option Node)
  | qualifiedTypeIdentifier (qualification id : Node)
  | typeofType (argument : Node)
  | tupleType (types : List Node)
  | arrayType (elementType : Node)
  | nullableType (annot : Node)
  | unionType (types : List Node)
  | intersectionType (types : List Node)
  | functionType (typeParameters : Option Node) (params : List Node) (rest : Option Node)
    (returnType : Node)
  | functionTypeParam (name : Node) (isOptional : Bool) (annot : Node)
  | objectType (properties indexers callProperties : List Node)
  | objectTypeProperty (key value : Node) (isOptional isStatic : Bool)
  | objectTypeIndexer (id key value : Node) (isStatic : Bool)
  | objectTypeCallProperty (value : Node) (isStatic : Bool)

end

instance : Inhabited Form := ⟨.nullLiteral⟩

instance : Inhabited Node := ⟨⟨0, .nullLiteral, 0, 0, default, none⟩⟩

namespace Node

/-- The name of an identifier. -/
def name? (node : Node) : Option String :=
  match node.form with
  | .identifier name _ _ => some name
  | _ => none

def isIdentifier (node : Node) : Bool := node.name?.isSome

/-- The node is the identifier of a given name. -/
def isNamed (node : Node) (name : String) : Bool := node.name? == some name

/-- The node was written within parentheses. -/
def isParenthesized (node : Node) : Bool :=
  node.extra.any fun extra => extra.parenthesized

/-- The text of a literal as it was written. -/
def raw? (node : Node) : Option String := node.extra.bind fun extra => extra.raw

/-- The node is a cast of a type among the items of a list. -/
def isListItem (node : Node) : Bool :=
  match node.form with
  | .typeCastExpression _ _ listItem => listItem
  | _ => false

/-- The node with a change to how it was written. -/
def mapExtra (node : Node) (change : Extra → Extra) : Node :=
  { node with extra := some (change (node.extra.getD {})) }

/-- The annotation of a type on the node. -/
def annot? (node : Node) : Option Node :=
  match node.form with
  | .identifier _ annot _ => annot
  | .objectPattern _ annot _ => annot
  | .arrayPattern _ annot _ => annot
  | .restElement _ annot _ => annot
  | .objectExpression _ annot => annot
  | .arrayExpression _ annot => annot
  | .assignmentPattern _ _ annot => annot
  | .assignmentExpression _ _ _ annot => annot
  | _ => none

/-- The node with an annotation of a type, if its form has a place for one. -/
def withAnnot? (node : Node) (annot : Node) : Option Node :=
  let place (form : Form) : Option Node := some { node with form := form }
  match node.form with
  | .identifier name _ isOptional => place (.identifier name (some annot) isOptional)
  | .objectPattern properties _ isOptional =>
    place (.objectPattern properties (some annot) isOptional)
  | .arrayPattern elements _ isOptional =>
    place (.arrayPattern elements (some annot) isOptional)
  | .restElement argument _ isOptional =>
    place (.restElement argument (some annot) isOptional)
  | .objectExpression properties _ => place (.objectExpression properties (some annot))
  | .arrayExpression elements _ => place (.arrayExpression elements (some annot))
  | .assignmentPattern left right _ => place (.assignmentPattern left right (some annot))
  | .assignmentExpression operator left right _ =>
    place (.assignmentExpression operator left right (some annot))
  | _ => none

/-- The node marked as optional, if its form can be. -/
def asOptional? (node : Node) : Option Node :=
  let place (form : Form) : Option Node := some { node with form := form }
  match node.form with
  | .identifier name annot _ => place (.identifier name annot true)
  | .objectPattern properties annot _ => place (.objectPattern properties annot true)
  | .arrayPattern elements annot _ => place (.arrayPattern elements annot true)
  | .restElement argument annot _ => place (.restElement argument annot true)
  | _ => none

end Node

end EcmaSyntax
