import EcmaSyntax.Proofs.Tree.Mode
import EcmaSyntax.Proofs.Tree.Pattern
import EcmaSyntax.Proofs.Tree.Tag

namespace EcmaSyntax

section Members

/-- The name of a key, if it is written as an identifier or as a string. -/
def Node.keyName? (key : Node) : Option String :=
  match key.form with
  | .identifier name _ _ => some name
  | .stringLiteral name => some name
  | _ => none

/-- The node is a method of a class of the given kind. -/
def Node.isMethod (kind : MethodKind) (node : Node) : Bool :=
  match node.form with
  | .classMethod other _ _ _ _ _ => other == kind
  | _ => false

/-- A getter has no parameters, and a setter has one. -/
structure FunctionForm.Accesses (function : FunctionForm) (kind : MethodKind) : Prop where
  getter : kind = .getter → function.params.length = 0
  setter : kind = .setter → function.params.length = 1

/-- What a method of a class keeps to because of its kind and its key. -/
structure MethodRules (kind : MethodKind) (computed isStatic : Bool) (decorators : List Node)
    (key : Node) (function : FunctionForm) : Prop where
  constructor : kind = .constructing → isStatic = false ∧ computed = false ∧
    function.generator = false ∧ function.isAsync = false ∧ decorators = []
  named : isStatic = false → computed = false → key.keyName? = some "constructor" →
    kind ≠ .calling → kind = .constructing
  called : kind = .calling → decorators = []
  prototype : isStatic = true → computed = false → key.keyName? ≠ some "prototype"

/-- If a form is a method of a class, it keeps to its rules. -/
def Form.FollowsRules : Form → Prop
  | .classMethod kind computed isStatic decorators key function =>
    MethodRules kind computed isStatic decorators key function
  | _ => True

/-- The methods of a class keep to their rules, and the class has one constructor at most, and one
method at most for when it is called. -/
structure ClassRules (members : List Node) : Prop where
  methods : ∀ member ∈ members, member.form.FollowsRules
  constructors : members.countP (Node.isMethod .constructing) ≤ 1
  calls : members.countP (Node.isMethod .calling) ≤ 1

/-- The body of a class keeps to the rules for its members, and a method to that for the parameters
of getters and setters. -/
def Form.Regular : Form → Prop
  | .classBody members => ClassRules members
  | .classMethod kind _ _ _ _ function => function.Accesses kind
  | .objectMethod kind _ _ _ _ _ function => function.Accesses kind
  | _ => True

/-- A method that is neither a getter nor a setter has any parameters. -/
theorem FunctionForm.Accesses.plain {function : FunctionForm} : function.Accesses .plain :=
  ⟨nofun, nofun⟩

end Members

section Targets

/-- The node refers to something: it is a name or a member. -/
def Node.isReference (node : Node) : Bool :=
  match node.form with
  | .identifier .. | .memberExpression .. => true
  | _ => false

/-- The node refers to something, or is a pattern that takes a value apart. -/
def Node.isTarget (node : Node) : Bool :=
  match node.form with
  | .objectPattern .. | .arrayPattern .. => true
  | _ => node.isReference

/-- The node is a pattern with a default. -/
def Node.isDefaulted (node : Node) : Bool :=
  match node.form with
  | .assignmentPattern .. => true
  | _ => false

/-- A loop may give each of its values to the node, unless it gives it to variables. -/
def Node.isHead (node : Node) : Bool :=
  match node.form with
  | .variableDeclaration .. => true
  | _ => node.isTarget || node.isDefaulted

/-- The form gives a value to something that has been there before. -/
def Form.assigns : Form → Bool
  | .assignmentExpression .. | .updateExpression .. | .forInStatement .. | .forOfStatement .. => true
  | _ => false

/-- What a form assigns to may be assigned to. An assignment in parentheses may stand there as a
pattern with a default, and one without parentheses in the head of a loop. -/
def Form.Targeted : Form → Prop
  | .assignmentExpression operator left _ _ =>
    if operator = "=" then
      left.isTarget = true ∨ left.isDefaulted = true ∧ left.isParenthesized = true
    else left.isReference = true
  | .updateExpression _ _ argument => argument.isReference = true
  | .forInStatement left _ _ => left.isHead = true
  | .forOfStatement left _ _ => left.isHead = true
  | _ => True

/-- A reference may be assigned to. -/
theorem Node.isTarget_of_isReference {node : Node} (reference : node.isReference = true) :
    node.isTarget = true := by
  unfold isReference at reference
  unfold isTarget
  split
  · rfl
  · rfl
  · exact reference

/-- A declaration may head a loop. -/
theorem Node.isHead_of_declaration {node : Node} {kind : VariableKind} {declarations : List Node}
    (same : node.form = .variableDeclaration kind declarations) : node.isHead = true := by
  rw [isHead, same]

/-- A target may head a loop, also with a default. -/
theorem Node.isHead_of_target {node : Node} (target : node.isTarget = true ∨ node.isDefaulted = true) :
    node.isHead = true := by
  unfold isHead
  split
  · rfl
  · simpa using target

/-- What refers to something may be assigned to with every operator. -/
theorem Form.targeted_of_isReference {operator : String} {left right : Node} {annot : Option Node}
    (reference : left.isReference = true) :
    (Form.assignmentExpression operator left right annot).Targeted := by
  change if operator = "=" then _ else _
  split
  · exact .inl (Node.isTarget_of_isReference reference)
  · exact reference

/-- The node is a property of an object, and its value is a pattern with a default. -/
def Node.isDefaultedProperty (node : Node) : Bool :=
  match node.form with
  | .objectProperty _ _ _ _ _ value => value.isDefaulted
  | _ => false

/-- No property of an object has a default if the object is an expression. Only those of a pattern
may. -/
def Form.Undefaulted : Form → Prop
  | .objectExpression properties _ =>
    ∀ property ∈ properties, property.isDefaultedProperty = false
  | _ => True

end Targets

/-- The code of a function is strict, from its name on. -/
def FunctionForm.isStrict (function : FunctionForm) (mode : Mode) : Bool :=
  mode.strict || (!function.isExpression && Grammar.declaresStrict function.body)

/-- The parameters of an arrow function, and those of any strict function, bind no name twice. -/
def FunctionForm.Distinct (function : FunctionForm) (mode : Mode) (isArrow : Bool) : Prop :=
  (function.isStrict mode || isArrow) = true → (function.params.flatMap Node.boundNames).Nodup

/-- The name and the parameters of a strict function may be bound in strict code. -/
structure FunctionForm.Bindable (function : FunctionForm) (mode : Mode) : Prop where
  id : function.isStrict mode = true → ∀ node ∈ function.id, node.Bindable
  params : function.isStrict mode = true → ∀ node ∈ function.params, node.Bindable

/-- The parameters of a function are patterns, unless it is an arrow function, whose parameters are
made of expressions. In those of an arrow function, and of any strict function, nothing but names
stands where something is bound. -/
structure FunctionForm.Patterned (function : FunctionForm) (mode : Mode) (isArrow : Bool) :
    Prop where
  read : isArrow = false → PatternList function.params
  names : (function.isStrict mode || isArrow) = true →
    ∀ node ∈ function.params, node.NamesOnly mode.types

/-- What a function binds is permitted. -/
structure FunctionForm.Permitted (function : FunctionForm) (mode : Mode) (isArrow : Bool) :
    Prop where
  distinct : function.Distinct mode isArrow
  bindable : function.Bindable mode
  patterned : function.Patterned mode isArrow

/-- In strict code the name of a class is none of the words that are reserved there. -/
def ClassForm.Named (heading : ClassForm) (mode : Mode) : Prop :=
  mode.strict = true → ∀ node ∈ heading.id, node.Unreserved

namespace Form

/-- The form is an arrow function. -/
def isArrow : Form → Bool
  | .arrowFunctionExpression _ => true
  | _ => false

/-- If a form is a function, its parameters bind no name twice where that matters. -/
def Distinct (mode : Mode) (form : Form) : Prop :=
  ∀ function ∈ form.function?, function.Distinct mode form.isArrow

/-- The names that a form binds are not reserved in the code that they are bound in. -/
def Bindable (mode : Mode) : Form → Prop
  | .variableDeclarator id _ => mode.strict = true → id.Bindable
  | .catchClause param _ => mode.strict = true → param.Bindable
  | .importSpecifier _ localName => mode.strict = true → localName.Bindable
  | .importDefaultSpecifier localName => mode.strict = true → localName.Bindable
  | .importNamespaceSpecifier localName => mode.strict = true → localName.Bindable
  | form => (∀ function ∈ form.function?, function.Bindable mode) ∧
    ∀ heading ∈ form.class?, heading.Named mode

/-- What a form binds is a pattern, and where it is checked, nothing but names stands in it where
something is bound. -/
def Patterned (mode : Mode) : Form → Prop
  | .variableDeclarator id _ => id.Pattern ∧ id.NamesOnly mode.types
  | .catchClause param _ => param.Pattern ∧ param.NamesOnly mode.types
  | form => ∀ function ∈ form.function?, function.Patterned mode form.isArrow

/-- If a form yields, it is in a generator. -/
def Generates (mode : Mode) : Form → Prop
  | .yieldExpression .. => mode.inGenerator = true
  | _ => True

/-- A template has one chunk more than it has expressions, so that each of these stands between
two chunks. -/
def Alternates : Form → Prop
  | .templateLiteral quasis expressions => quasis.length = expressions.length + 1
  | _ => True

/-- The code around a form permits what it binds and what it does, no part of it is left over, the
methods in it keep to their rules, and its tags match. In a language without types it assigns to
what may be assigned to, and has defaults only where it is a pattern. -/
structure Permitted (untyped : Prop) (mode : Mode) (form : Form) : Prop where
  distinct : form.Distinct mode
  bindable : form.Bindable mode
  patterned : form.Patterned mode
  generates : form.Generates mode
  alternates : form.Alternates
  regular : form.Regular
  matched : form.Matched
  targeted : untyped → form.Targeted
  undefaulted : untyped → form.Undefaulted

/-- A form is permitted everywhere. -/
def isFree : Form → Bool
  | .variableDeclarator .. | .catchClause .. | .importSpecifier .. | .importDefaultSpecifier ..
  | .importNamespaceSpecifier .. | .yieldExpression .. | .templateLiteral .. | .classBody ..
  | .jsxElement .. | .objectExpression .. => false
  | form => form.function?.isNone && form.class?.isNone && !form.assigns

theorem function?_of_isFree {form : Form} (free : form.isFree = true) : form.function? = none := by
  cases form <;> first | rfl | cases free

theorem class?_of_isFree {form : Form} (free : form.isFree = true) : form.class? = none := by
  cases form <;> first | rfl | cases free

variable {untyped : Prop}

/-- A free form is permitted everywhere. -/
theorem permitted_of_isFree {mode : Mode} {form : Form} (free : form.isFree = true) :
    form.Permitted untyped mode := by
  have function : ∀ function ∈ form.function?, False := by simp [function?_of_isFree free]
  have heading : ∀ heading ∈ form.class?, False := by simp [class?_of_isFree free]
  refine ⟨fun _ found => (function _ found).elim, ?_, ?_, ?_, ?_, ?_, ?_, fun _ => ?_, fun _ => ?_⟩
  · cases form <;> first
      | exact ⟨fun _ found => (function _ found).elim, fun _ found => (heading _ found).elim⟩
      | cases free
  · cases form <;> first | exact fun _ found => (function _ found).elim | cases free
  · cases form <;> trivial
  · cases form <;> trivial
  · cases form <;> trivial
  · cases form <;> trivial
  · cases form <;> trivial
  · cases form <;> trivial

/-- A function is permitted if what it binds is. -/
theorem permitted_of_function {mode : Mode} {form : Form} {function : FunctionForm}
    (same : form.function? = some function) (permitted : function.Permitted mode form.isArrow)
    (regular : form.Regular) : form.Permitted untyped mode := by
  have known : ∀ other ∈ form.function?, other.Permitted mode form.isArrow := fun other found =>
    Option.some.inj (same.symm.trans found) ▸ permitted
  refine ⟨fun other found => (known other found).distinct, ?_, ?_, ?_, ?_, regular, ?_, fun _ => ?_,
    fun _ => ?_⟩
  · cases form <;> cases same <;> exact ⟨fun other found => (known other found).bindable, nofun⟩
  · cases form <;> cases same <;> exact fun other found => (known other found).patterned
  · cases form <;> trivial
  · cases form <;> trivial
  · cases form <;> cases same <;> trivial
  · cases form <;> cases same <;> trivial
  · cases form <;> cases same <;> trivial

/-- A class is permitted if its name is. -/
theorem permitted_of_class {mode : Mode} {form : Form} {heading : ClassForm}
    (same : form.class? = some heading) (named : heading.Named mode) :
    form.Permitted untyped mode := by
  have known : ∀ other ∈ form.class?, other.Named mode := fun other found =>
    Option.some.inj (same.symm.trans found) ▸ named
  cases form <;> cases same <;>
    exact ⟨nofun, ⟨nofun, known⟩, nofun, trivial, trivial, trivial, trivial, fun _ => trivial,
      fun _ => trivial⟩

/-- A template is permitted if chunks and expressions alternate in it. -/
theorem permitted_of_template {mode : Mode} {quasis expressions : List Node}
    (alternates : (templateLiteral quasis expressions).Alternates) :
    (templateLiteral quasis expressions).Permitted untyped mode :=
  ⟨nofun, ⟨nofun, nofun⟩, nofun, trivial, alternates, trivial, trivial, fun _ => trivial,
    fun _ => trivial⟩

/-- The body of a class is permitted if its members keep to their rules. -/
theorem permitted_of_classBody {mode : Mode} {members : List Node} (rules : ClassRules members) :
    (classBody members).Permitted untyped mode :=
  ⟨nofun, ⟨nofun, nofun⟩, nofun, trivial, trivial, rules, trivial, fun _ => trivial,
    fun _ => trivial⟩

/-- An element is permitted if its tags match. -/
theorem permitted_of_element {mode : Mode} {opening : Node} {children : List Node}
    {closing : Option Node} (matched : (jsxElement opening children closing).Matched) :
    (jsxElement opening children closing).Permitted untyped mode :=
  ⟨nofun, ⟨nofun, nofun⟩, nofun, trivial, trivial, trivial, matched, fun _ => trivial,
    fun _ => trivial⟩

/-- An assignment is permitted if its target is one. -/
theorem permitted_of_assigns {mode : Mode} {form : Form} (assigns : form.assigns = true)
    (targeted : untyped → form.Targeted) : form.Permitted untyped mode := by
  cases form <;> first
    | cases assigns; done
    | exact ⟨nofun, ⟨nofun, nofun⟩, nofun, trivial, trivial, trivial, trivial, targeted,
        fun _ => trivial⟩

/-- The form binds the names in another node, and is neither a function nor a class. -/
def binds : Form → Bool
  | .variableDeclarator .. | .catchClause .. | .importSpecifier .. | .importDefaultSpecifier ..
  | .importNamespaceSpecifier .. => true
  | _ => false

/-- What binds names is permitted if the names are. -/
theorem permitted_of_binds {mode : Mode} {form : Form} (binds : form.binds = true)
    (bindable : form.Bindable mode) (patterned : form.Patterned mode) :
    form.Permitted untyped mode := by
  cases form <;> first
    | cases binds; done
    | exact ⟨nofun, bindable, patterned, trivial, trivial, trivial, trivial, fun _ => trivial,
        fun _ => trivial⟩

/-- A yield is permitted in a generator. -/
theorem permitted_of_yield {mode : Mode} {delegate : Bool} {argument : Option Node}
    (generates : mode.inGenerator = true) :
    (yieldExpression delegate argument).Permitted untyped mode :=
  ⟨nofun, ⟨nofun, nofun⟩, nofun, generates, trivial, trivial, trivial, fun _ => trivial,
    fun _ => trivial⟩

/-- An object is permitted if it has no defaults. -/
theorem permitted_of_object {mode : Mode} {properties : List Node} {annot : Option Node}
    (undefaulted : untyped → (objectExpression properties annot).Undefaulted) :
    (objectExpression properties annot).Permitted untyped mode :=
  ⟨nofun, ⟨nofun, nofun⟩, nofun, trivial, trivial, trivial, trivial, fun _ => trivial, undefaulted⟩

/-- A form is another one with other decorators, or with other types. -/
inductive Redressed : Form → Form → Prop
  | declaration (heading : ClassForm) (decorators : List Node) :
    Redressed (.classDeclaration heading) (.classDeclaration { heading with decorators })
  | expression (heading : ClassForm) (decorators : List Node) :
    Redressed (.classExpression heading) (.classExpression { heading with decorators })
  | method (kind : MethodKind) (isMethod shorthand computed : Bool) (decorators : List Node)
    (key : Node) (function : FunctionForm) (typeParameters : Option Node) :
    Redressed (.objectMethod kind isMethod shorthand computed decorators key function)
      (.objectMethod kind isMethod shorthand computed decorators key
        { function with typeParameters })
  | assignment (operator : String) (left right : Node) (former annot : Option Node) :
    Redressed (.assignmentExpression operator left right former)
      (.assignmentExpression operator left right annot)
  | object (properties : List Node) (former annot : Option Node) :
    Redressed (.objectExpression properties former) (.objectExpression properties annot)

theorem Redressed.isWhole {form other : Form} (redressed : form.Redressed other) :
    other.isWhole = true := by
  cases redressed <;> rfl

theorem Redressed.isTemplate {form other : Form} (redressed : form.Redressed other) :
    form.isTemplate = false := by
  cases redressed <;> rfl

theorem Redressed.jumps {form other : Form} {enclosures : List Enclosure}
    (redressed : form.Redressed other) : other.Jumps enclosures := by
  cases redressed <;> trivial

theorem Redressed.targeted {form other : Form} (redressed : form.Redressed other)
    (targeted : form.Targeted) : other.Targeted := by
  cases redressed with
  | assignment => exact targeted
  | _ => trivial

theorem Redressed.undefaulted {form other : Form} (redressed : form.Redressed other)
    (undefaulted : form.Undefaulted) : other.Undefaulted := by
  cases redressed with
  | object => exact undefaulted
  | _ => trivial

/-- What is permitted has nothing to do with decorators and types. -/
theorem Permitted.redressed {mode : Mode} {form other : Form}
    (permitted : form.Permitted untyped mode) (redressed : form.Redressed other) :
    other.Permitted untyped mode := by
  obtain ⟨distinct, bindable, patterned, -, -, regular, -, targeted, undefaulted⟩ := permitted
  cases redressed with
  | declaration heading decorators =>
      exact permitted_of_class rfl (bindable.2 heading rfl)
  | expression heading decorators =>
      exact permitted_of_class rfl (bindable.2 heading rfl)
  | method kind isMethod shorthand computed decorators key function typeParameters =>
      have bound := bindable.1 function rfl
      have known := patterned function rfl
      exact permitted_of_function rfl
        ⟨distinct function rfl, ⟨bound.id, bound.params⟩, ⟨known.read, known.names⟩⟩
        ⟨regular.getter, regular.setter⟩
  | assignment operator left right former annot => exact permitted_of_assigns rfl targeted
  | object properties former annot => exact permitted_of_object undefaulted

end Form

end EcmaSyntax
