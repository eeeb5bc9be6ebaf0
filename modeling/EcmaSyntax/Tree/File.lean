import EcmaSyntax.Token.Basic
import EcmaSyntax.Tree.Node
import Std.Data.TreeMap

namespace EcmaSyntax

/-- The comments that belong to a node: before it, after it and within it. -/
structure Attached where
  leading : Option (List Comment) := none
  trailing : Option (List Comment) := none
  inner : Option (List Comment) := none
deriving DecidableEq, Inhabited, Repr

/-- The comments that belong to each node, under the identity of the node. -/
abbrev Attachments := Std.TreeMap NodeId Attached

/-- A file holds a program with its tokens and comments. Like a node it has an identity, under
which comments may belong to it. -/
structure File where
  id : NodeId
  start : Nat
  stop : Nat
  loc : Location
  program : Node
  comments : List Comment
  entries : List Entry
  attachments : Attachments

namespace File

/-- The statements of the program. -/
def statements (file : File) : List Node :=
  match file.program.form with
  | .program _ _ body => body
  | _ => []

/-- The directives of the program. -/
def directives (file : File) : List Node :=
  match file.program.form with
  | .program _ directives _ => directives
  | _ => []

end File

end EcmaSyntax
