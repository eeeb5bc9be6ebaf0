import EcmaSyntax.Tree.Walk

namespace EcmaSyntax

/-- The nodes that a function consists of fulfil a condition, and its body another one. -/
structure FunctionForm.Has (part body : Node → Prop) (function : FunctionForm) : Prop where
  id : ∀ node ∈ function.id, part node
  typeParameters : ∀ node ∈ function.typeParameters, part node
  params : ∀ node ∈ function.params, part node
  returnType : ∀ node ∈ function.returnType, part node
  body : body function.body

/-- The nodes that a class consists of fulfil a condition, its decorators another one, and its body
a third one. -/
structure ClassForm.Has (decorated part body : Node → Prop) (heading : ClassForm) : Prop where
  decorators : ∀ node ∈ heading.decorators, decorated node
  id : ∀ node ∈ heading.id, part node
  typeParameters : ∀ node ∈ heading.typeParameters, part node
  superClass : ∀ node ∈ heading.superClass, part node
  superTypeParameters : ∀ node ∈ heading.superTypeParameters, part node
  implemented : ∀ nodes ∈ heading.implemented, ∀ node ∈ nodes, part node
  body : body heading.body

/-- The nodes that a form consists of fulfil a condition. The bodies of functions, and the block of
an expression that is one, fulfil another one. -/
def Form.Has (part inner : Node → Prop) : Form → Prop
  | .program _ directives body =>
    (∀ node ∈ directives, part node) ∧ ∀ node ∈ body, part node
  | .directive value => part value
  | .identifier _ annot _ => ∀ node ∈ annot, part node
  | .expressionStatement expression => part expression
  | .blockStatement directives body =>
    (∀ node ∈ directives, part node) ∧ ∀ node ∈ body, part node
  | .withStatement object body => part object ∧ part body
  | .returnStatement argument => ∀ node ∈ argument, part node
  | .labeledStatement label body => part label ∧ part body
  | .breakStatement label => ∀ node ∈ label, part node
  | .continueStatement label => ∀ node ∈ label, part node
  | .ifStatement test consequent alternate =>
    part test ∧ part consequent ∧ ∀ node ∈ alternate, part node
  | .switchStatement discriminant cases => part discriminant ∧ ∀ node ∈ cases, part node
  | .switchCase test consequent =>
    (∀ node ∈ test, part node) ∧ ∀ node ∈ consequent, part node
  | .throwStatement argument => part argument
  | .tryStatement block handler guardedHandlers finalizer =>
    part block ∧ (∀ node ∈ handler, part node) ∧
      (∀ node ∈ guardedHandlers, part node) ∧ ∀ node ∈ finalizer, part node
  | .catchClause param body => part param ∧ part body
  | .whileStatement test body => part test ∧ part body
  | .doWhileStatement body test => part body ∧ part test
  | .forStatement init test update body =>
    (∀ node ∈ init, part node) ∧ (∀ node ∈ test, part node) ∧
      (∀ node ∈ update, part node) ∧ part body
  | .forInStatement left right body => part left ∧ part right ∧ part body
  | .forOfStatement left right body => part left ∧ part right ∧ part body
  | .functionDeclaration function => function.Has part inner
  | .variableDeclaration _ declarations => ∀ node ∈ declarations, part node
  | .variableDeclarator id init => part id ∧ ∀ node ∈ init, part node
  | .decorator expression => part expression
  | .arrowFunctionExpression function => function.Has part inner
  | .yieldExpression _ argument => ∀ node ∈ argument, part node
  | .awaitExpression _ argument => part argument
  | .arrayExpression elements annot =>
    (∀ node, some node ∈ elements → part node) ∧ ∀ node ∈ annot, part node
  | .objectExpression properties annot =>
    (∀ node ∈ properties, part node) ∧ ∀ node ∈ annot, part node
  | .objectProperty _ _ _ decorators key value =>
    (∀ node ∈ decorators, part node) ∧ part key ∧ part value
  | .objectMethod _ _ _ _ decorators key function =>
    (∀ node ∈ decorators, part node) ∧ part key ∧ function.Has part inner
  | .spreadProperty argument => part argument
  | .restProperty argument => part argument
  | .functionExpression function => function.Has part inner
  | .unaryExpression _ _ argument => part argument
  | .updateExpression _ _ argument => part argument
  | .binaryExpression _ left right => part left ∧ part right
  | .assignmentExpression _ left right annot =>
    part left ∧ part right ∧ ∀ node ∈ annot, part node
  | .logicalExpression _ left right => part left ∧ part right
  | .spreadElement argument => part argument
  | .memberExpression object property _ => part object ∧ part property
  | .bindExpression object callee => (∀ node ∈ object, part node) ∧ part callee
  | .conditionalExpression test consequent alternate =>
    part test ∧ part consequent ∧ part alternate
  | .callExpression callee arguments => part callee ∧ ∀ node ∈ arguments, part node
  | .newExpression callee arguments => part callee ∧ ∀ node ∈ arguments, part node
  | .sequenceExpression expressions => ∀ node ∈ expressions, part node
  | .doExpression body => inner body
  | .templateLiteral quasis expressions =>
    (∀ node ∈ quasis, part node) ∧ ∀ node ∈ expressions, part node
  | .taggedTemplateExpression tag quasi => part tag ∧ part quasi
  | .metaProperty metaName property => part metaName ∧ part property
  | .objectPattern properties annot _ =>
    (∀ node ∈ properties, part node) ∧ ∀ node ∈ annot, part node
  | .arrayPattern elements annot _ =>
    (∀ node, some node ∈ elements → part node) ∧ ∀ node ∈ annot, part node
  | .restElement argument annot _ => part argument ∧ ∀ node ∈ annot, part node
  | .assignmentPattern left right annot =>
    part left ∧ part right ∧ ∀ node ∈ annot, part node
  | .classBody body => ∀ node ∈ body, part node
  | .classMethod _ _ _ decorators key function =>
    (∀ node ∈ decorators, part node) ∧ part key ∧ function.Has part inner
  | .classProperty _ _ decorators key annot value =>
    (∀ node ∈ decorators, part node) ∧ part key ∧ (∀ node ∈ annot, part node) ∧
      ∀ node ∈ value, part node
  | .classDeclaration heading => heading.Has part part part
  | .classExpression heading => heading.Has part part part
  | .importDeclaration specifiers source _ =>
    (∀ node ∈ specifiers, part node) ∧ part source
  | .importSpecifier imported localName => part imported ∧ part localName
  | .importDefaultSpecifier localName => part localName
  | .importNamespaceSpecifier localName => part localName
  | .exportNamedDeclaration declaration specifiers source _ =>
    (∀ node ∈ declaration, part node) ∧ (∀ node ∈ specifiers, part node) ∧
      ∀ node ∈ source, part node
  | .exportDefaultDeclaration declaration => part declaration
  | .exportAllDeclaration source => part source
  | .exportSpecifier localName exported => part localName ∧ part exported
  | .exportDefaultSpecifier exported => part exported
  | .exportNamespaceSpecifier exported => part exported
  | .jsxAttribute name value => part name ∧ ∀ node ∈ value, part node
  | .jsxClosingElement name => part name
  | .jsxElement openingElement children closingElement =>
    part openingElement ∧ (∀ node ∈ children, part node) ∧
      ∀ node ∈ closingElement, part node
  | .jsxExpressionContainer expression => part expression
  | .jsxSpreadAttribute argument => part argument
  | .jsxMemberExpression object property => part object ∧ part property
  | .jsxNamespacedName space name => part space ∧ part name
  | .jsxOpeningElement name attributes _ => part name ∧ ∀ node ∈ attributes, part node
  | .typeAlias id typeParameters right =>
    part id ∧ (∀ node ∈ typeParameters, part node) ∧ part right
  | .interfaceDeclaration id typeParameters supers body =>
    part id ∧ (∀ node ∈ typeParameters, part node) ∧ (∀ node ∈ supers, part node) ∧
      part body
  | .interfaceExtends id typeParameters => part id ∧ ∀ node ∈ typeParameters, part node
  | .declareClass id typeParameters supers body =>
    part id ∧ (∀ node ∈ typeParameters, part node) ∧ (∀ node ∈ supers, part node) ∧
      part body
  | .declareFunction id => part id
  | .declareVariable id => part id
  | .declareModule id body => part id ∧ part body
  | .classImplements id typeParameters => part id ∧ ∀ node ∈ typeParameters, part node
  | .typeCastExpression expression annot _ => part expression ∧ part annot
  | .typeAnnot annot => part annot
  | .typeParameterDeclaration params => ∀ node ∈ params, part node
  | .typeParameterInstantiation params => ∀ node ∈ params, part node
  | .genericType id typeParameters => part id ∧ ∀ node ∈ typeParameters, part node
  | .qualifiedTypeIdentifier qualification id => part qualification ∧ part id
  | .typeofType argument => part argument
  | .tupleType types => ∀ node ∈ types, part node
  | .arrayType elementType => part elementType
  | .nullableType annot => part annot
  | .unionType types => ∀ node ∈ types, part node
  | .intersectionType types => ∀ node ∈ types, part node
  | .functionType typeParameters params rest returnType =>
    (∀ node ∈ typeParameters, part node) ∧ (∀ node ∈ params, part node) ∧
      (∀ node ∈ rest, part node) ∧ part returnType
  | .functionTypeParam name _ annot => part name ∧ part annot
  | .objectType properties indexers callProperties =>
    (∀ node ∈ properties, part node) ∧ (∀ node ∈ indexers, part node) ∧
      ∀ node ∈ callProperties, part node
  | .objectTypeProperty key value _ _ => part key ∧ part value
  | .objectTypeIndexer id key value _ => part id ∧ part key ∧ part value
  | .objectTypeCallProperty value _ => part value
  | _ => True

/-- A field of the form begins code of its own: the body of a function, or the block of an
expression that is one. -/
def Form.opens : Form → String → Bool
  | .functionDeclaration _, name => name == "body"
  | .functionExpression _, name => name == "body"
  | .arrowFunctionExpression _, name => name == "body"
  | .objectMethod .., name => name == "body"
  | .classMethod .., name => name == "body"
  | .doExpression _, name => name == "body"
  | _, _ => false

/-- Nodes of this form are taken apart to make other ones of their parts. -/
def Form.isSpine : Form → Bool
  | .identifier .. | .arrayExpression .. | .objectExpression .. | .objectProperty ..
  | .spreadProperty .. | .spreadElement .. | .assignmentExpression .. | .sequenceExpression ..
  | .objectPattern .. | .arrayPattern .. | .restElement .. | .assignmentPattern ..
  | .typeCastExpression .. => true
  | _ => false

/-- The form is neither a binary nor a unary operator. -/
def Form.isWhole : Form → Bool
  | .binaryExpression .. | .logicalExpression .. | .unaryExpression .. => false
  | _ => true

/-- The nodes in a list of fields fulfil what the name of their field asks for. -/
def Field.Each (condition : String → Node → Prop) (fields : List (String × Field)) : Prop :=
  ∀ field ∈ fields, ∀ child ∈ field.2.nodes, condition field.1 child

section Fields

variable {condition : String → Node → Prop} {name : String}

@[simp] theorem Field.each_nil : Field.Each condition [] := by simp [Field.Each]

/-- All children in fields fulfil a condition if those in the first and those in the others do. -/
@[simp] theorem Field.each_cons {field : Field} {rest : List (String × Field)} :
    Field.Each condition ((name, field) :: rest) ↔
      (∀ child ∈ field.nodes, condition name child) ∧ Field.Each condition rest := by
  simp [Field.Each]

@[simp] theorem Field.each_append {first second : List (String × Field)} :
    Field.Each condition (first ++ second) ↔
      Field.Each condition first ∧ Field.Each condition second := by
  simp [Field.Each, or_imp, forall_and]

/-- The nodes among elements are those that are no holes. -/
@[simp] theorem Field.mem_nodes_holes {nodes : List (Option Node)} {node : Node} :
    node ∈ (Field.holes nodes).nodes ↔ some node ∈ nodes := by
  simp [Field.nodes]

@[simp] theorem Field.mem_nodes_ofOption {part : Option Node} {node : Node} :
    node ∈ (Field.ofOption part).nodes ↔ node ∈ part := by
  cases part <;> simp [Field.ofOption, Field.nodes, eq_comm]

@[simp] theorem Form.each_fieldIf {part : Option Node} :
    Field.Each condition (fieldIf name part) ↔ ∀ child ∈ part, condition name child := by
  cases part <;> simp [fieldIf]

@[simp] theorem Form.each_listIf {nodes : List Node} :
    Field.Each condition (listIf name nodes) ↔ ∀ child ∈ nodes, condition name child := by
  cases nodes <;> simp [listIf]

@[simp] theorem Form.each_flagIf {value : Bool} : Field.Each condition (flagIf name value) := by
  cases value <;> simp [flagIf]

@[simp] theorem Form.each_textIf {value : Option String} :
    Field.Each condition (textIf name value) := by
  cases value <;> simp [textIf]

end Fields

section Has

variable {part inner : Node → Prop}

/-- The children of a function are its parts and its body. -/
theorem FunctionForm.has_iff {function : FunctionForm} : function.Has part inner ↔
    Field.Each (fun name child => if name == "body" then inner child else part child)
      function.fields := by
  simp only [fields, Field.each_append, Field.each_cons, Field.each_nil, Field.mem_nodes_ofOption,
    Field.nodes_child, Field.nodes_children, Field.nodes_flag, Form.each_fieldIf,
    List.mem_singleton, forall_eq, List.not_mem_nil, false_implies, implies_true, and_true]
  constructor
  · rintro ⟨id, typeParameters, params, returnType, body⟩
    exact ⟨⟨⟨⟨id, typeParameters⟩, params⟩, returnType⟩, body⟩
  · rintro ⟨⟨⟨⟨id, typeParameters⟩, params⟩, returnType⟩, body⟩
    exact ⟨id, typeParameters, params, returnType, body⟩

/-- The children of a class are its decorators, its parts and its body. -/
theorem ClassForm.has_iff {decorated body : Node → Prop} {heading : ClassForm} :
    heading.Has decorated part body ↔ Field.Each (fun name child =>
      if name == "decorators" then decorated child
      else if name == "body" then body child else part child) heading.fields := by
  have parts : heading.Has decorated part body ↔
      (∀ node ∈ heading.decorators, decorated node) ∧ (∀ node ∈ heading.id, part node) ∧
      (∀ node ∈ heading.typeParameters, part node) ∧ (∀ node ∈ heading.superClass, part node) ∧
      (∀ node ∈ heading.superTypeParameters, part node) ∧
      (∀ nodes ∈ heading.implemented, ∀ node ∈ nodes, part node) ∧ body heading.body :=
    ⟨fun ⟨first, second, third, fourth, fifth, sixth, seventh⟩ =>
      ⟨first, second, third, fourth, fifth, sixth, seventh⟩,
      fun ⟨first, second, third, fourth, fifth, sixth, seventh⟩ =>
        ⟨first, second, third, fourth, fifth, sixth, seventh⟩⟩
  rw [parts, fields]
  cases heading.implemented <;> simp

theorem ClassForm.Has.mono {decorated body other dressed whole : Node → Prop} {heading : ClassForm}
    (has : heading.Has decorated part body) (decorators : ∀ node, decorated node → dressed node)
    (parts : ∀ node, part node → other node) (bodies : ∀ node, body node → whole node) :
    heading.Has dressed other whole where
  decorators node inside := decorators node (has.decorators node inside)
  id node inside := parts node (has.id node inside)
  typeParameters node inside := parts node (has.typeParameters node inside)
  superClass node inside := parts node (has.superClass node inside)
  superTypeParameters node inside := parts node (has.superTypeParameters node inside)
  implemented nodes inside node member := parts node (has.implemented nodes inside node member)
  body := bodies heading.body has.body

/-- A form consists of the nodes in its fields. -/
theorem Form.has_iff {form : Form} : form.Has part inner ↔
    Field.Each (fun name child => if form.opens name then inner child else part child)
      form.fields := by
  cases form
  case functionDeclaration function => exact FunctionForm.has_iff
  case functionExpression function => exact FunctionForm.has_iff
  case arrowFunctionExpression function => exact FunctionForm.has_iff
  case doExpression body => simp [fields, Has, opens]
  case objectMethod kind method shorthand computed decorators key function =>
    simp [fields, Has, opens, FunctionForm.has_iff]
  case classMethod kind computed isStatic decorators key function =>
    simp [fields, Has, opens, FunctionForm.has_iff]
  all_goals
    delta fields
    dsimp only [Has, opens]
    simp only [Field.each_append, Field.each_cons, Field.each_nil, Field.mem_nodes_ofOption,
      Field.mem_nodes_holes, Field.nodes_child, Field.nodes_children, Field.nodes_text,
      Field.nodes_flag, Field.nodes_number, Field.nodes_template, each_fieldIf, each_listIf,
      each_flagIf, each_textIf, ClassForm.has_iff, ite_self, List.mem_singleton, forall_eq,
      List.not_mem_nil, false_implies, implies_true, and_true, true_and, and_assoc,
      Bool.false_eq_true, if_false]

theorem Form.Has.mono {form : Form} {weaker other : Node → Prop} (has : form.Has part inner)
    (parts : ∀ node, part node → weaker node) (inners : ∀ node, inner node → other node) :
    form.Has weaker other := by
  rw [has_iff] at has ⊢
  intro field member child inside
  have known := has field member child inside
  dsimp only at known ⊢
  split at known <;> rename_i opens
  · exact if_pos opens ▸ inners child known
  · exact if_neg opens ▸ parts child known

/-- What a form consists of are its children. -/
theorem Form.Has.children {form : Form} (has : form.Has part part) :
    ∀ child ∈ form.children, part child := by
  rw [has_iff] at has
  simp only [ite_self] at has
  intro child inside
  obtain ⟨field, member, held⟩ := mem_parts.mp (mem_parts_of_mem_children inside)
  exact has field member child held

/-- The children of a node are all that it consists of, unless it is a template. -/
theorem Form.each_of_children {form : Form} (other : form.isTemplate = false)
    (all : ∀ child ∈ form.children, part child) : Field.Each (fun _ => part) form.fields := by
  rw [children_eq_parts other] at all
  exact fun field member child inside => all child (mem_parts.mpr ⟨field, member, inside⟩)

/-- What lies along the spine of a pattern is no template. -/
theorem Form.isTemplate_of_isSpine {form : Form} (spine : form.isSpine = true) :
    form.isTemplate = false := by
  cases form <;> first | rfl | cases spine

/-- The children of a node that may be taken apart are all that it consists of. -/
theorem Form.has_of_children {form : Form} (spine : form.isSpine = true)
    (all : ∀ child ∈ form.children, part child) : form.Has part part := by
  rw [has_iff]
  simp only [ite_self]
  exact each_of_children (isTemplate_of_isSpine spine) all

end Has

end EcmaSyntax
