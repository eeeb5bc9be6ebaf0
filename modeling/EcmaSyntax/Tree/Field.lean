import EcmaSyntax.Json.Basic
import EcmaSyntax.Tree.Node

namespace EcmaSyntax

/-- A field holds nodes or a datum. -/
inductive Field where
  | child (node : Node)
  | children (nodes : List Node)
  | holes (nodes : List (Option Node))
  | text (value : String)
  | flag (value : Bool)
  | number (value : Float)
  | template (raw cooked : String)
  | absent

namespace Field

/-- The nodes that a field holds. -/
def nodes : Field → List Node
  | .child node => [node]
  | .children nodes => nodes
  | .holes nodes => nodes.filterMap id
  | _ => []

/-- A part that may be missing. -/
def ofOption : Option Node → Field
  | some node => .child node
  | none => .absent

end Field

namespace Form

/-- A field for a part, if the part is there. -/
def fieldIf (name : String) : Option Node → List (String × Field)
  | some node => [(name, .child node)]
  | none => []

/-- A field for a list, if it holds anything. -/
def listIf (name : String) : List Node → List (String × Field)
  | [] => []
  | node :: rest => [(name, .children (node :: rest))]

/-- A field for a mark, if it is set. -/
def flagIf (name : String) (value : Bool) : List (String × Field) :=
  if value then [(name, .flag true)] else []

/-- A field for a word, if there is one. -/
def textIf (name : String) : Option String → List (String × Field)
  | some value => [(name, .text value)]
  | none => []

end Form

/-- The fields of a function. -/
def FunctionForm.fields (function : FunctionForm) : List (String × Field) :=
  [("id", Field.ofOption function.id)] ++
    Form.fieldIf "typeParameters" function.typeParameters ++
    [("params", .children function.params)] ++
    Form.fieldIf "returnType" function.returnType ++
    [("body", .child function.body), ("generator", .flag function.generator),
      ("async", .flag function.isAsync), ("expression", .flag function.isExpression)]

/-- The fields of a class. -/
def ClassForm.fields (heading : ClassForm) : List (String × Field) :=
  Form.listIf "decorators" heading.decorators ++
    [("id", Field.ofOption heading.id)] ++
    Form.fieldIf "typeParameters" heading.typeParameters ++
    [("superClass", Field.ofOption heading.superClass)] ++
    Form.fieldIf "superTypeParameters" heading.superTypeParameters ++
    (match heading.implemented with
      | some nodes => [("implements", .children nodes)]
      | none => []) ++
    [("body", .child heading.body)]

/-- The nodes that a function consists of, in the order of their places in the text. -/
def FunctionForm.children (function : FunctionForm) : List Node :=
  function.id.toList ++ function.typeParameters.toList ++ function.params ++
    function.returnType.toList ++ [function.body]

/-- The nodes that a class consists of, in the order of their places in the text. -/
def ClassForm.children (heading : ClassForm) : List Node :=
  heading.decorators ++ heading.id.toList ++ heading.typeParameters.toList ++
    heading.superClass.toList ++ heading.superTypeParameters.toList ++
    heading.implemented.getD [] ++ [heading.body]

namespace Form

/-- The name of the type of a node. -/
def typeName : Form → String
  | .program .. => "Program"
  | .directive .. => "Directive"
  | .directiveLiteral .. => "DirectiveLiteral"
  | .identifier .. => "Identifier"
  | .regExpLiteral .. => "RegExpLiteral"
  | .nullLiteral => "NullLiteral"
  | .stringLiteral .. => "StringLiteral"
  | .booleanLiteral .. => "BooleanLiteral"
  | .numericLiteral .. => "NumericLiteral"
  | .expressionStatement .. => "ExpressionStatement"
  | .blockStatement .. => "BlockStatement"
  | .emptyStatement => "EmptyStatement"
  | .debuggerStatement => "DebuggerStatement"
  | .withStatement .. => "WithStatement"
  | .returnStatement .. => "ReturnStatement"
  | .labeledStatement .. => "LabeledStatement"
  | .breakStatement .. => "BreakStatement"
  | .continueStatement .. => "ContinueStatement"
  | .ifStatement .. => "IfStatement"
  | .switchStatement .. => "SwitchStatement"
  | .switchCase .. => "SwitchCase"
  | .throwStatement .. => "ThrowStatement"
  | .tryStatement .. => "TryStatement"
  | .catchClause .. => "CatchClause"
  | .whileStatement .. => "WhileStatement"
  | .doWhileStatement .. => "DoWhileStatement"
  | .forStatement .. => "ForStatement"
  | .forInStatement .. => "ForInStatement"
  | .forOfStatement .. => "ForOfStatement"
  | .functionDeclaration .. => "FunctionDeclaration"
  | .variableDeclaration .. => "VariableDeclaration"
  | .variableDeclarator .. => "VariableDeclarator"
  | .decorator .. => "Decorator"
  | .superKeyword => "Super"
  | .thisExpression => "ThisExpression"
  | .arrowFunctionExpression .. => "ArrowFunctionExpression"
  | .yieldExpression .. => "YieldExpression"
  | .awaitExpression .. => "AwaitExpression"
  | .arrayExpression .. => "ArrayExpression"
  | .objectExpression .. => "ObjectExpression"
  | .objectProperty .. => "ObjectProperty"
  | .objectMethod .. => "ObjectMethod"
  | .spreadProperty .. => "SpreadProperty"
  | .restProperty .. => "RestProperty"
  | .functionExpression .. => "FunctionExpression"
  | .unaryExpression .. => "UnaryExpression"
  | .updateExpression .. => "UpdateExpression"
  | .binaryExpression .. => "BinaryExpression"
  | .assignmentExpression .. => "AssignmentExpression"
  | .logicalExpression .. => "LogicalExpression"
  | .spreadElement .. => "SpreadElement"
  | .memberExpression .. => "MemberExpression"
  | .bindExpression .. => "BindExpression"
  | .conditionalExpression .. => "ConditionalExpression"
  | .callExpression .. => "CallExpression"
  | .newExpression .. => "NewExpression"
  | .sequenceExpression .. => "SequenceExpression"
  | .doExpression .. => "DoExpression"
  | .templateLiteral .. => "TemplateLiteral"
  | .taggedTemplateExpression .. => "TaggedTemplateExpression"
  | .templateElement .. => "TemplateElement"
  | .metaProperty .. => "MetaProperty"
  | .objectPattern .. => "ObjectPattern"
  | .arrayPattern .. => "ArrayPattern"
  | .restElement .. => "RestElement"
  | .assignmentPattern .. => "AssignmentPattern"
  | .classBody .. => "ClassBody"
  | .classMethod .. => "ClassMethod"
  | .classProperty .. => "ClassProperty"
  | .classDeclaration .. => "ClassDeclaration"
  | .classExpression .. => "ClassExpression"
  | .importDeclaration .. => "ImportDeclaration"
  | .importSpecifier .. => "ImportSpecifier"
  | .importDefaultSpecifier .. => "ImportDefaultSpecifier"
  | .importNamespaceSpecifier .. => "ImportNamespaceSpecifier"
  | .exportNamedDeclaration .. => "ExportNamedDeclaration"
  | .exportDefaultDeclaration .. => "ExportDefaultDeclaration"
  | .exportAllDeclaration .. => "ExportAllDeclaration"
  | .exportSpecifier .. => "ExportSpecifier"
  | .exportDefaultSpecifier .. => "ExportDefaultSpecifier"
  | .exportNamespaceSpecifier .. => "ExportNamespaceSpecifier"
  | .jsxAttribute .. => "JSXAttribute"
  | .jsxClosingElement .. => "JSXClosingElement"
  | .jsxElement .. => "JSXElement"
  | .jsxEmptyExpression => "JSXEmptyExpression"
  | .jsxExpressionContainer .. => "JSXExpressionContainer"
  | .jsxSpreadAttribute .. => "JSXSpreadAttribute"
  | .jsxIdentifier .. => "JSXIdentifier"
  | .jsxMemberExpression .. => "JSXMemberExpression"
  | .jsxNamespacedName .. => "JSXNamespacedName"
  | .jsxOpeningElement .. => "JSXOpeningElement"
  | .jsxText .. => "JSXText"
  | .typeAlias .. => "TypeAlias"
  | .interfaceDeclaration .. => "InterfaceDeclaration"
  | .interfaceExtends .. => "InterfaceExtends"
  | .declareClass .. => "DeclareClass"
  | .declareFunction .. => "DeclareFunction"
  | .declareVariable .. => "DeclareVariable"
  | .declareModule .. => "DeclareModule"
  | .classImplements .. => "ClassImplements"
  | .typeCastExpression .. => "TypeCastExpression"
  | .typeAnnot .. => "TypeAnnotation"
  | .typeParameterDeclaration .. => "TypeParameterDeclaration"
  | .typeParameterInstantiation .. => "TypeParameterInstantiation"
  | .existentialTypeParam => "ExistentialTypeParam"
  | .anyType => "AnyTypeAnnotation"
  | .voidType => "VoidTypeAnnotation"
  | .booleanType => "BooleanTypeAnnotation"
  | .mixedType => "MixedTypeAnnotation"
  | .numberType => "NumberTypeAnnotation"
  | .stringType => "StringTypeAnnotation"
  | .stringLiteralType .. => "StringLiteralTypeAnnotation"
  | .numericLiteralType .. => "NumericLiteralTypeAnnotation"
  | .booleanLiteralType .. => "BooleanLiteralTypeAnnotation"
  | .nullLiteralType => "NullLiteralTypeAnnotation"
  | .thisType => "ThisTypeAnnotation"
  | .genericType .. => "GenericTypeAnnotation"
  | .qualifiedTypeIdentifier .. => "QualifiedTypeIdentifier"
  | .typeofType .. => "TypeofTypeAnnotation"
  | .tupleType .. => "TupleTypeAnnotation"
  | .arrayType .. => "ArrayTypeAnnotation"
  | .nullableType .. => "NullableTypeAnnotation"
  | .unionType .. => "UnionTypeAnnotation"
  | .intersectionType .. => "IntersectionTypeAnnotation"
  | .functionType .. => "FunctionTypeAnnotation"
  | .functionTypeParam .. => "FunctionTypeParam"
  | .objectType .. => "ObjectTypeAnnotation"
  | .objectTypeProperty .. => "ObjectTypeProperty"
  | .objectTypeIndexer .. => "ObjectTypeIndexer"
  | .objectTypeCallProperty .. => "ObjectTypeCallProperty"

/-- The fields of a form, in the order in which the nodes in them are visited. A missing part
has a field or has none, as its form wants it. -/
def fields : Form → List (String × Field)
  | .program sourceType directives body =>
    [("sourceType", .text sourceType.text), ("directives", .children directives),
      ("body", .children body)]
  | .directive value => [("value", .child value)]
  | .directiveLiteral value => [("value", .text value)]
  | .identifier name annot isOptional =>
    [("name", .text name)] ++ fieldIf "typeAnnotation" annot ++ flagIf "optional" isOptional
  | .regExpLiteral pattern flags => [("pattern", .text pattern), ("flags", .text flags)]
  | .nullLiteral => []
  | .stringLiteral value => [("value", .text value)]
  | .booleanLiteral value => [("value", .flag value)]
  | .numericLiteral value => [("value", .number value)]
  | .expressionStatement expression => [("expression", .child expression)]
  | .blockStatement directives body =>
    [("directives", .children directives), ("body", .children body)]
  | .emptyStatement => []
  | .debuggerStatement => []
  | .withStatement object body => [("object", .child object), ("body", .child body)]
  | .returnStatement argument => [("argument", Field.ofOption argument)]
  | .labeledStatement label body => [("label", .child label), ("body", .child body)]
  | .breakStatement label => [("label", Field.ofOption label)]
  | .continueStatement label => [("label", Field.ofOption label)]
  | .ifStatement test consequent alternate =>
    [("test", .child test), ("consequent", .child consequent),
      ("alternate", Field.ofOption alternate)]
  | .switchStatement discriminant cases =>
    [("discriminant", .child discriminant), ("cases", .children cases)]
  | .switchCase test consequent =>
    [("test", Field.ofOption test), ("consequent", .children consequent)]
  | .throwStatement argument => [("argument", .child argument)]
  | .tryStatement block handler guardedHandlers finalizer =>
    [("block", .child block), ("handler", Field.ofOption handler),
      ("guardedHandlers", .children guardedHandlers), ("finalizer", Field.ofOption finalizer)]
  | .catchClause param body => [("param", .child param), ("body", .child body)]
  | .whileStatement test body => [("test", .child test), ("body", .child body)]
  | .doWhileStatement body test => [("body", .child body), ("test", .child test)]
  | .forStatement init test update body =>
    [("init", Field.ofOption init), ("test", Field.ofOption test),
      ("update", Field.ofOption update), ("body", .child body)]
  | .forInStatement left right body =>
    [("left", .child left), ("right", .child right), ("body", .child body)]
  | .forOfStatement left right body =>
    [("left", .child left), ("right", .child right), ("body", .child body)]
  | .functionDeclaration function => function.fields
  | .variableDeclaration kind declarations =>
    [("kind", .text kind.text), ("declarations", .children declarations)]
  | .variableDeclarator id init => [("id", .child id), ("init", Field.ofOption init)]
  | .decorator expression => [("expression", .child expression)]
  | .superKeyword => []
  | .thisExpression => []
  | .arrowFunctionExpression function => function.fields
  | .yieldExpression delegate argument =>
    [("delegate", .flag delegate), ("argument", Field.ofOption argument)]
  | .awaitExpression all argument => [("all", .flag all), ("argument", .child argument)]
  | .arrayExpression elements annot =>
    [("elements", .holes elements)] ++ fieldIf "typeAnnotation" annot
  | .objectExpression properties annot =>
    [("properties", .children properties)] ++ fieldIf "typeAnnotation" annot
  | .objectProperty method shorthand computed decorators key value =>
    [("method", .flag method), ("shorthand", .flag shorthand), ("computed", .flag computed)] ++
      listIf "decorators" decorators ++ [("key", .child key), ("value", .child value)]
  | .objectMethod kind method shorthand computed decorators key function =>
    [("kind", .text kind.text), ("method", .flag method), ("shorthand", .flag shorthand),
      ("computed", .flag computed)] ++ listIf "decorators" decorators ++ [("key", .child key)] ++
      function.fields
  | .spreadProperty argument => [("argument", .child argument)]
  | .restProperty argument => [("argument", .child argument)]
  | .functionExpression function => function.fields
  | .unaryExpression operator isPrefix argument =>
    [("operator", .text operator), ("prefix", .flag isPrefix), ("argument", .child argument)]
  | .updateExpression operator isPrefix argument =>
    [("operator", .text operator), ("prefix", .flag isPrefix), ("argument", .child argument)]
  | .binaryExpression operator left right =>
    [("operator", .text operator), ("left", .child left), ("right", .child right)]
  | .assignmentExpression operator left right annot =>
    [("operator", .text operator), ("left", .child left), ("right", .child right)] ++
      fieldIf "typeAnnotation" annot
  | .logicalExpression operator left right =>
    [("operator", .text operator), ("left", .child left), ("right", .child right)]
  | .spreadElement argument => [("argument", .child argument)]
  | .memberExpression object property computed =>
    [("object", .child object), ("property", .child property), ("computed", .flag computed)]
  | .bindExpression object callee =>
    [("object", Field.ofOption object), ("callee", .child callee)]
  | .conditionalExpression test consequent alternate =>
    [("test", .child test), ("consequent", .child consequent), ("alternate", .child alternate)]
  | .callExpression callee arguments =>
    [("callee", .child callee), ("arguments", .children arguments)]
  | .newExpression callee arguments =>
    [("callee", .child callee), ("arguments", .children arguments)]
  | .sequenceExpression expressions => [("expressions", .children expressions)]
  | .doExpression body => [("body", .child body)]
  | .templateLiteral quasis expressions =>
    [("quasis", .children quasis), ("expressions", .children expressions)]
  | .taggedTemplateExpression tag quasi => [("tag", .child tag), ("quasi", .child quasi)]
  | .templateElement raw cooked tail => [("value", .template raw cooked), ("tail", .flag tail)]
  | .metaProperty metaName property => [("meta", .child metaName), ("property", .child property)]
  | .objectPattern properties annot isOptional =>
    [("properties", .children properties)] ++ fieldIf "typeAnnotation" annot ++
      flagIf "optional" isOptional
  | .arrayPattern elements annot isOptional =>
    [("elements", .holes elements)] ++ fieldIf "typeAnnotation" annot ++
      flagIf "optional" isOptional
  | .restElement argument annot isOptional =>
    [("argument", .child argument)] ++ fieldIf "typeAnnotation" annot ++
      flagIf "optional" isOptional
  | .assignmentPattern left right annot =>
    [("left", .child left), ("right", .child right)] ++ fieldIf "typeAnnotation" annot
  | .classBody body => [("body", .children body)]
  | .classMethod kind computed isStatic decorators key function =>
    [("kind", .text kind.text), ("computed", .flag computed), ("static", .flag isStatic)] ++
      listIf "decorators" decorators ++ [("key", .child key)] ++ function.fields
  | .classProperty computed isStatic decorators key annot value =>
    [("computed", .flag computed), ("static", .flag isStatic)] ++
      listIf "decorators" decorators ++ [("key", .child key)] ++ fieldIf "typeAnnotation" annot ++
      [("value", Field.ofOption value)]
  | .classDeclaration heading => heading.fields
  | .classExpression heading => heading.fields
  | .importDeclaration specifiers source importKind =>
    [("specifiers", .children specifiers), ("source", .child source)] ++
      textIf "importKind" (importKind.map BindingKind.text)
  | .importSpecifier imported localName =>
    [("imported", .child imported), ("local", .child localName)]
  | .importDefaultSpecifier localName => [("local", .child localName)]
  | .importNamespaceSpecifier localName => [("local", .child localName)]
  | .exportNamedDeclaration declaration specifiers source exportKind =>
    [("declaration", Field.ofOption declaration), ("specifiers", .children specifiers),
      ("source", Field.ofOption source)] ++ textIf "exportKind" (exportKind.map BindingKind.text)
  | .exportDefaultDeclaration declaration => [("declaration", .child declaration)]
  | .exportAllDeclaration source => [("source", .child source)]
  | .exportSpecifier localName exported =>
    [("local", .child localName), ("exported", .child exported)]
  | .exportDefaultSpecifier exported => [("exported", .child exported)]
  | .exportNamespaceSpecifier exported => [("exported", .child exported)]
  | .jsxAttribute name value => [("name", .child name), ("value", Field.ofOption value)]
  | .jsxClosingElement name => [("name", .child name)]
  | .jsxElement openingElement children closingElement =>
    [("openingElement", .child openingElement), ("children", .children children),
      ("closingElement", Field.ofOption closingElement)]
  | .jsxEmptyExpression => []
  | .jsxExpressionContainer expression => [("expression", .child expression)]
  | .jsxSpreadAttribute argument => [("argument", .child argument)]
  | .jsxIdentifier name => [("name", .text name)]
  | .jsxMemberExpression object property =>
    [("object", .child object), ("property", .child property)]
  | .jsxNamespacedName space name => [("namespace", .child space), ("name", .child name)]
  | .jsxOpeningElement name attributes selfClosing =>
    [("name", .child name), ("attributes", .children attributes),
      ("selfClosing", .flag selfClosing)]
  | .jsxText value => [("value", .text value)]
  | .typeAlias id typeParameters right =>
    [("id", .child id), ("typeParameters", Field.ofOption typeParameters),
      ("right", .child right)]
  | .interfaceDeclaration id typeParameters supers body =>
    [("id", .child id), ("typeParameters", Field.ofOption typeParameters),
      ("extends", .children supers), ("body", .child body)]
  | .interfaceExtends id typeParameters =>
    [("id", .child id), ("typeParameters", Field.ofOption typeParameters)]
  | .declareClass id typeParameters supers body =>
    [("id", .child id), ("typeParameters", Field.ofOption typeParameters),
      ("extends", .children supers), ("body", .child body)]
  | .declareFunction id => [("id", .child id)]
  | .declareVariable id => [("id", .child id)]
  | .declareModule id body => [("id", .child id), ("body", .child body)]
  | .classImplements id typeParameters =>
    [("id", .child id), ("typeParameters", Field.ofOption typeParameters)]
  | .typeCastExpression expression annot _ =>
    [("expression", .child expression), ("typeAnnotation", .child annot)]
  | .typeAnnot annot => [("typeAnnotation", .child annot)]
  | .typeParameterDeclaration params => [("params", .children params)]
  | .typeParameterInstantiation params => [("params", .children params)]
  | .existentialTypeParam => []
  | .anyType => []
  | .voidType => []
  | .booleanType => []
  | .mixedType => []
  | .numberType => []
  | .stringType => []
  | .stringLiteralType value => [("value", .text value)]
  | .numericLiteralType value => [("value", .number value)]
  | .booleanLiteralType value => [("value", .flag value)]
  | .nullLiteralType => []
  | .thisType => []
  | .genericType id typeParameters =>
    [("id", .child id), ("typeParameters", Field.ofOption typeParameters)]
  | .qualifiedTypeIdentifier qualification id =>
    [("qualification", .child qualification), ("id", .child id)]
  | .typeofType argument => [("argument", .child argument)]
  | .tupleType types => [("types", .children types)]
  | .arrayType elementType => [("elementType", .child elementType)]
  | .nullableType annot => [("typeAnnotation", .child annot)]
  | .unionType types => [("types", .children types)]
  | .intersectionType types => [("types", .children types)]
  | .functionType typeParameters params rest returnType =>
    [("typeParameters", Field.ofOption typeParameters), ("params", .children params),
      ("rest", Field.ofOption rest), ("returnType", .child returnType)]
  | .functionTypeParam name isOptional annot =>
    [("name", .child name), ("optional", .flag isOptional), ("typeAnnotation", .child annot)]
  | .objectType properties indexers callProperties =>
    [("properties", .children properties), ("indexers", .children indexers),
      ("callProperties", .children callProperties)]
  | .objectTypeProperty key value isOptional isStatic =>
    [("key", .child key), ("value", .child value), ("optional", .flag isOptional),
      ("static", .flag isStatic)]
  | .objectTypeIndexer id key value isStatic =>
    [("id", .child id), ("key", .child key), ("value", .child value), ("static", .flag isStatic)]
  | .objectTypeCallProperty value isStatic =>
    [("value", .child value), ("static", .flag isStatic)]

/-- The chunks of a template and the expressions between them, in turn. -/
def interleave : List Node → List Node → List Node
  | [], _ => []
  | quasi :: quasis, [] => quasi :: interleave quasis []
  | quasi :: quasis, expression :: expressions =>
    quasi :: expression :: interleave quasis expressions

/-- The nodes that a form consists of, in the order of their places in the text. -/
def children : Form → List Node
  | .program _ directives body => directives ++ body
  | .blockStatement directives body => directives ++ body
  | .directive value => [value]
  | .identifier _ annot _ => annot.toList
  | .expressionStatement expression => [expression]
  | .withStatement object body => [object, body]
  | .returnStatement argument => argument.toList
  | .labeledStatement label body => [label, body]
  | .breakStatement label => label.toList
  | .continueStatement label => label.toList
  | .ifStatement test consequent alternate => [test, consequent] ++ alternate.toList
  | .switchStatement discriminant cases => discriminant :: cases
  | .switchCase test consequent => test.toList ++ consequent
  | .throwStatement argument => [argument]
  | .tryStatement block handler guardedHandlers finalizer =>
    [block] ++ handler.toList ++ guardedHandlers ++ finalizer.toList
  | .catchClause param body => [param, body]
  | .whileStatement test body => [test, body]
  | .doWhileStatement body test => [body, test]
  | .forStatement init test update body =>
    init.toList ++ test.toList ++ update.toList ++ [body]
  | .forInStatement left right body => [left, right, body]
  | .forOfStatement left right body => [left, right, body]
  | .functionDeclaration function => function.children
  | .functionExpression function => function.children
  | .arrowFunctionExpression function => function.children
  | .variableDeclaration _ declarations => declarations
  | .variableDeclarator id init => [id] ++ init.toList
  | .decorator expression => [expression]
  | .yieldExpression _ argument => argument.toList
  | .awaitExpression _ argument => [argument]
  | .arrayExpression elements annot => elements.filterMap id ++ annot.toList
  | .objectExpression properties annot => properties ++ annot.toList
  | .objectProperty _ _ _ decorators key value => decorators ++ [key, value]
  | .objectMethod _ _ _ _ decorators key function => decorators ++ [key] ++ function.children
  | .classMethod _ _ _ decorators key function => decorators ++ [key] ++ function.children
  | .spreadProperty argument => [argument]
  | .restProperty argument => [argument]
  | .spreadElement argument => [argument]
  | .unaryExpression _ _ argument => [argument]
  | .updateExpression _ _ argument => [argument]
  | .binaryExpression _ left right => [left, right]
  | .logicalExpression _ left right => [left, right]
  | .assignmentExpression _ left right annot => [left, right] ++ annot.toList
  | .assignmentPattern left right annot => [left, right] ++ annot.toList
  | .memberExpression object property _ => [object, property]
  | .bindExpression object callee => object.toList ++ [callee]
  | .conditionalExpression test consequent alternate => [test, consequent, alternate]
  | .callExpression callee arguments => callee :: arguments
  | .newExpression callee arguments => callee :: arguments
  | .sequenceExpression expressions => expressions
  | .doExpression body => [body]
  | .templateLiteral quasis expressions => interleave quasis expressions
  | .taggedTemplateExpression tag quasi => [tag, quasi]
  | .metaProperty metaName property => [metaName, property]
  | .objectPattern properties annot _ => properties ++ annot.toList
  | .arrayPattern elements annot _ => elements.filterMap id ++ annot.toList
  | .restElement argument annot _ => [argument] ++ annot.toList
  | .classBody body => body
  | .classProperty _ _ decorators key annot value =>
    decorators ++ [key] ++ annot.toList ++ value.toList
  | .classDeclaration heading => heading.children
  | .classExpression heading => heading.children
  | .importDeclaration specifiers source _ => specifiers ++ [source]
  | .importSpecifier imported localName => [imported, localName]
  | .importDefaultSpecifier localName => [localName]
  | .importNamespaceSpecifier localName => [localName]
  | .exportNamedDeclaration declaration specifiers source _ =>
    declaration.toList ++ specifiers ++ source.toList
  | .exportDefaultDeclaration declaration => [declaration]
  | .exportAllDeclaration source => [source]
  | .exportSpecifier localName exported => [localName, exported]
  | .exportDefaultSpecifier exported => [exported]
  | .exportNamespaceSpecifier exported => [exported]
  | .jsxAttribute name value => [name] ++ value.toList
  | .jsxClosingElement name => [name]
  | .jsxElement openingElement children closingElement =>
    [openingElement] ++ children ++ closingElement.toList
  | .jsxExpressionContainer expression => [expression]
  | .jsxSpreadAttribute argument => [argument]
  | .jsxMemberExpression object property => [object, property]
  | .jsxNamespacedName space name => [space, name]
  | .jsxOpeningElement name attributes _ => name :: attributes
  | .typeAlias id typeParameters right => [id] ++ typeParameters.toList ++ [right]
  | .interfaceDeclaration id typeParameters supers body =>
    [id] ++ typeParameters.toList ++ supers ++ [body]
  | .declareClass id typeParameters supers body =>
    [id] ++ typeParameters.toList ++ supers ++ [body]
  | .interfaceExtends id typeParameters => [id] ++ typeParameters.toList
  | .classImplements id typeParameters => [id] ++ typeParameters.toList
  | .genericType id typeParameters => [id] ++ typeParameters.toList
  | .declareFunction id => [id]
  | .declareVariable id => [id]
  | .declareModule id body => [id, body]
  | .typeCastExpression expression annot _ => [expression, annot]
  | .typeAnnot annot => [annot]
  | .nullableType annot => [annot]
  | .typeParameterDeclaration params => params
  | .typeParameterInstantiation params => params
  | .qualifiedTypeIdentifier qualification id => [qualification, id]
  | .typeofType argument => [argument]
  | .tupleType types => types
  | .unionType types => types
  | .intersectionType types => types
  | .arrayType elementType => [elementType]
  | .functionType typeParameters params rest returnType =>
    typeParameters.toList ++ params ++ rest.toList ++ [returnType]
  | .functionTypeParam name _ annot => [name, annot]
  | .objectType properties indexers callProperties => properties ++ indexers ++ callProperties
  | .objectTypeProperty key value _ _ => [key, value]
  | .objectTypeIndexer id key value _ => [id, key, value]
  | .objectTypeCallProperty value _ => [value]
  | .directiveLiteral _ | .regExpLiteral .. | .nullLiteral | .stringLiteral _
  | .booleanLiteral _ | .numericLiteral _ | .emptyStatement | .debuggerStatement
  | .superKeyword | .thisExpression | .templateElement .. | .jsxEmptyExpression
  | .jsxIdentifier _ | .jsxText _ | .existentialTypeParam | .anyType | .voidType
  | .booleanType | .mixedType | .numberType | .stringType | .stringLiteralType _
  | .numericLiteralType _ | .booleanLiteralType _ | .nullLiteralType | .thisType => []

end Form

namespace Node

/-- The children of a node, in the order of their places in the text. -/
def children (node : Node) : List Node := node.form.children

end Node

namespace Field

@[simp] theorem nodes_child (node : Node) : (child node).nodes = [node] := rfl

@[simp] theorem nodes_children (nodes : List Node) : (children nodes).nodes = nodes := rfl

@[simp] theorem nodes_holes (slots : List (Option Node)) :
    (holes slots).nodes = slots.filterMap id := rfl

@[simp] theorem nodes_text (value : String) : (text value).nodes = [] := rfl

@[simp] theorem nodes_flag (value : Bool) : (flag value).nodes = [] := rfl

@[simp] theorem nodes_number (value : Float) : (number value).nodes = [] := rfl

@[simp] theorem nodes_template (raw cooked : String) : (template raw cooked).nodes = [] := rfl

@[simp] theorem nodes_ofOption (part : Option Node) : (ofOption part).nodes = part.toList := by
  cases part <;> rfl

/-- The nodes in some fields. -/
def gather (fields : List (String × Field)) : List Node := fields.flatMap fun field => field.2.nodes

@[simp] theorem gather_nil : gather [] = [] := rfl

@[simp] theorem gather_cons (field : String × Field) (rest : List (String × Field)) :
    gather (field :: rest) = field.2.nodes ++ gather rest := rfl

/-- The nodes in two lists of fields are those of the one and then those of the other. -/
@[simp] theorem gather_append (first second : List (String × Field)) :
    gather (first ++ second) = gather first ++ gather second := List.flatMap_append

@[simp] theorem gather_fieldIf (name : String) (part : Option Node) :
    gather (Form.fieldIf name part) = part.toList := by
  cases part <;> rfl

@[simp] theorem gather_listIf (name : String) (nodes : List Node) :
    gather (Form.listIf name nodes) = nodes := by
  cases nodes <;> simp [Form.listIf]

@[simp] theorem gather_flagIf (name : String) (value : Bool) :
    gather (Form.flagIf name value) = [] := by
  cases value <;> rfl

@[simp] theorem gather_textIf (name : String) (value : Option String) :
    gather (Form.textIf name value) = [] := by
  cases value <;> rfl

end Field

/-- The nodes that a function consists of. -/
def FunctionForm.parts (function : FunctionForm) : List Node := Field.gather function.fields

/-- The nodes in the fields of a function are its parts. -/
@[simp] theorem Field.gather_function (function : FunctionForm) :
    gather function.fields = function.parts := rfl

/-- A function has a body at least. -/
theorem FunctionForm.parts_ne_nil (function : FunctionForm) : function.parts ≠ [] := by
  simp [parts, fields]

/-- The children of a function are its parts. -/
theorem FunctionForm.children_eq_parts (function : FunctionForm) :
    function.children = function.parts := by
  simp [children, parts, fields]

/-- The nodes that a class consists of. -/
def ClassForm.parts (heading : ClassForm) : List Node := Field.gather heading.fields

/-- The parts of a class are its decorators and then the others in their order. -/
theorem ClassForm.parts_eq (heading : ClassForm) : heading.parts = heading.decorators ++
    (heading.id.toList ++ heading.typeParameters.toList ++ heading.superClass.toList ++
      heading.superTypeParameters.toList ++ heading.implemented.getD [] ++ [heading.body]) := by
  rcases heading with ⟨decorators, id, typeParameters, superClass, superTypes, implemented, body⟩
  cases implemented <;> simp [parts, fields]

/-- The children of a class are its parts. -/
theorem ClassForm.children_eq_parts (heading : ClassForm) :
    heading.children = heading.parts := by
  rw [parts_eq]
  simp [children]

namespace Form

variable {form : Form} {node : Node} {quasis expressions : List Node}

/-- The nodes that a form consists of, field by field. -/
def parts (form : Form) : List Node := Field.gather form.fields

/-- A part stands in one of the fields. -/
theorem mem_parts : node ∈ form.parts ↔ ∃ field ∈ form.fields, node ∈ field.2.nodes :=
  List.mem_flatMap

/-- The form is a template. Its children are its parts and its expressions in turn, so some of them
may be no children. -/
def isTemplate : Form → Bool
  | .templateLiteral .. => true
  | _ => false

/-- The children of a form are the nodes in its fields, unless it is a template. -/
theorem children_eq_parts (other : form.isTemplate = false) : form.children = form.parts := by
  cases form
  case templateLiteral => cases other
  case classDeclaration heading => exact heading.children_eq_parts
  case classExpression heading => exact heading.children_eq_parts
  all_goals
    rw [parts]
    delta fields
    dsimp only [children]
    simp only [Field.gather_nil, Field.gather_cons, Field.gather_append, Field.gather_fieldIf,
      Field.gather_listIf, Field.gather_flagIf, Field.gather_textIf, Field.gather_function,
      FunctionForm.children_eq_parts, Field.nodes_child, Field.nodes_children, Field.nodes_holes,
      Field.nodes_text, Field.nodes_flag, Field.nodes_number, Field.nodes_template,
      Field.nodes_ofOption, List.append_assoc, List.append_nil, List.nil_append,
      List.cons_append]

/-- The chunks and expressions of a template are the nodes of its two lists. -/
theorem mem_interleave {quasis expressions : List Node} {node : Node}
    (member : node ∈ interleave quasis expressions) : node ∈ quasis ∨ node ∈ expressions := by
  induction quasis generalizing expressions with
  | nil => simp [interleave] at member
  | cons quasi rest inductionHypothesis =>
      cases expressions with
      | nil =>
          simp only [interleave, List.mem_cons] at member
          rcases member with same | inside
          · simp [same]
          · rcases inductionHypothesis inside with found | found
            · simp [found]
            · simp at found
      | cons expression others =>
          simp only [interleave, List.mem_cons] at member
          rcases member with same | same | inside
          · simp [same]
          · simp [same]
          · rcases inductionHypothesis inside with found | found
            · simp [found]
            · simp [found]

/-- The children of a form are in its fields. -/
theorem mem_parts_of_mem_children (member : node ∈ form.children) : node ∈ form.parts := by
  cases same : form.isTemplate with
  | false => exact children_eq_parts same ▸ member
  | true =>
      cases form <;> cases same
      simpa [parts, fields] using mem_interleave member

end Form

end EcmaSyntax
