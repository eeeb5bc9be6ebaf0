import EcmaSyntax.Json.Basic
import EcmaSyntax.Token.Basic
import EcmaSyntax.Tree.File
import EcmaSyntax.Tree.Walk

namespace EcmaSyntax

def Position.toJson (position : Position) : Json :=
  .object [("line", .nat position.line), ("column", .nat position.column)]

def Location.toJson (location : Location) : Json :=
  .object [("start", location.start.toJson), ("end", location.stop.toJson)]

def Comment.toJson (comment : Comment) : Json :=
  .object [("type", .string (if comment.isBlock then "CommentBlock" else "CommentLine")),
    ("value", .string comment.value), ("start", .nat comment.start),
    ("end", .nat comment.stop), ("loc", comment.loc.toJson)]

/-- The traits of a kind. -/
def Kind.toJson (kind : Kind) : Json :=
  .object [("label", .string kind.label), ("keyword", .optionalString kind.keyword?),
    ("beforeExpr", .bool kind.beforeExpr), ("startsExpr", .bool kind.startsExpr),
    ("rightAssociative", .bool kind.rightAssociative), ("isLoop", .bool kind.isLoop),
    ("isAssign", .bool kind.isAssign), ("prefix", .bool kind.isPrefixOp),
    ("postfix", .bool kind.isPostfixOp), ("binop", .optionalNat kind.precedence?),
    ("updateContext", .null)]

/-- The value of a token, given how numbers are written. -/
def Value.toJson (number : Float → Json) : Value → Json
  | .none => .null
  | .text content => .string content
  | .number value => number value
  | .regexp pattern flags => .object [("pattern", .string pattern), ("flags", .string flags)]

def Token.toJson (number : Float → Json) (token : Token) : Json :=
  .object [("type", token.kind.toJson), ("value", token.value.toJson number),
    ("start", .nat token.start), ("end", .nat token.stop), ("loc", token.loc.toJson)]

def Entry.toJson (number : Float → Json) : Entry → Json
  | .token read => read.toJson number
  | .comment passed => passed.toJson

/-- How the parts of a tree are written that stand outside of its nodes: numbers, and the
comments that belong to a node. -/
structure TreeStyle where
  number : Float → Json
  attachments : Attachments

/-- A member for a list of comments, if it is there. -/
def commentMember (name : String) : Option (List Comment) → List (String × Json)
  | some comments => [(name, .array (comments.map Comment.toJson))]
  | none => []

/-- The members for the comments that belong to a node. -/
def Attached.members (attached : Attached) : List (String × Json) :=
  commentMember "leadingComments" attached.leading ++
    commentMember "trailingComments" attached.trailing ++
    commentMember "innerComments" attached.inner

namespace TreeStyle

/-- The members for the comments that belong to what has a given identity. -/
def commentMembers (style : TreeStyle) (id : NodeId) : List (String × Json) :=
  match style.attachments[id]? with
  | some attached => attached.members
  | none => []

def rawValue (style : TreeStyle) : RawValue → Json
  | .text value => .string value
  | .number value => style.number value

/-- The member for how a node was written; it holds only what is known. -/
def extraMember (style : TreeStyle) : Option Extra → List (String × Json)
  | none => []
  | some extra =>
    let known : List (String × Option Json) :=
      [("raw", extra.raw.map Json.string),
        ("rawValue", extra.rawValue.map style.rawValue),
        ("parenthesized", if extra.parenthesized then some (.bool true) else none),
        ("parenStart", extra.parenStart.map Json.nat),
        ("parenthesizedArgument", extra.parenthesizedArgument.map Json.bool)]
    [("extra", .object (known.filterMap fun (name, value) => value.map fun json => (name, json)))]

end TreeStyle

/-- A field is written by writing the nodes in it. -/
def Field.toJson (number : Float → Json) (field : Field)
    (write : (node : Node) → node ∈ field.nodes → Json) : Json :=
  match field with
  | .child node => write node (List.mem_singleton.mpr rfl)
  | .children nodes => .array (nodes.attach.map fun node => write node.1 node.2)
  | .holes slots =>
    .array (slots.attach.map fun slot =>
      match same : slot.1 with
      | some node => write node (List.mem_filterMap.mpr ⟨slot.1, slot.2, same⟩)
      | none => .null)
  | .text value => .string value
  | .flag value => .bool value
  | .number value => number value
  | .template raw cooked => .object [("raw", .string raw), ("cooked", .string cooked)]
  | .absent => .null

/-- A node is an object with its type, its place, its fields and its comments. -/
def Node.toJson (style : TreeStyle) (node : Node) : Json :=
  let fields := node.form.fields.attach.map fun field =>
    (field.1.1, field.1.2.toJson style.number fun child _inside => child.toJson style)
  .object ([("type", .string node.form.typeName), ("start", .nat node.start),
    ("end", .nat node.stop), ("loc", node.loc.toJson)] ++ fields ++
    style.extraMember node.extra ++ style.commentMembers node.id)
termination_by sizeOf node
decreasing_by
  exact Nat.lt_trans (node.form.fields_below field.2 _inside) node.sizeOf_form_lt

/-- The comments that have been recorded for a node are given to it. -/
def Attached.give (recorded given : Attachments) (node : Node) : Attachments :=
  match recorded[node.id]? with
  | some attached => given.insert node.id attached
  | none => given

/-- The comments that have been recorded for nodes are given to those that a walk visits. -/
def Node.transferred (node : Node) (recorded : Attachments) : Attachments :=
  node.walk.foldl (Attached.give recorded) {}

/-- How the program of a file is written. -/
def File.style (number : Float → Json) (file : File) : TreeStyle :=
  ⟨number, file.program.transferred file.attachments⟩

/-- A file is an object with its program and comments, and with its tokens if wanted. -/
def File.toJson (number : Float → Json) (withTokens : Bool) (file : File) : Json :=
  let entries :=
    if withTokens then [("tokens", .array (file.entries.map fun entry => entry.toJson number))]
    else []
  .object ([("type", .string "File"), ("start", .nat file.start), ("end", .nat file.stop),
    ("loc", file.loc.toJson), ("program", file.program.toJson (file.style number)),
    ("comments", .array (file.comments.map Comment.toJson))] ++ entries ++
    TreeStyle.commentMembers ⟨number, file.attachments⟩ file.id)

end EcmaSyntax
