/-
This file names the rules of the grammar that refer to each other in a circle.
-/

import EcmaSyntax.Grammar.Build

namespace EcmaSyntax

namespace Grammar

/-- A value that may still be read as a pattern. If a shorthand property in it has a default,
which only a pattern may have, the offset of the first such default is pending. -/
structure Cover (α : Type) where
  value : α
  pending : Option Nat := none

/-- A value that is used as an expression must have nothing pending. -/
def Cover.settle {α : Type} (cover : Cover α) : Parse α :=
  match cover.pending with
  | some pos => unexpectedAt pos
  | none => return cover.value

/-- What a rule of the circle reads. -/
inductive Goal where
  /-- A statement; a declaration may not stand everywhere, nor an import or export. -/
  | statement (declaration topLevel : Bool)
  /-- An expression without commas; the word for membership may be kept from it. An item of
  a parenthesized list may be followed by a type. -/
  | assignment (noIn inParens : Bool)
  /-- The operators that bind tighter than a level and follow a left operand. -/
  | operators (left : Node) (mark : Mark) (level : Nat) (noIn : Bool)
  /-- An operand with its unary operators. -/
  | unary
  /-- An expression that no operator takes apart. -/
  | atom
  /-- A name or a pattern that binds names. -/
  | binding
  /-- An element of markup after its first mark. -/
  | element (mark : Mark)
  | type
  /-- A type without the operators that join types. -/
  | prefixType
  /-- A type without any operators. -/
  | primaryType
  /-- A declaration after the word that says that it only declares. -/
  | declared (mark : Mark)

/-- What a rule results in. -/
@[reducible] def Goal.Result : Goal → Type
  | .assignment .. => Cover Node
  | .unary => Cover Node
  | .atom => Cover Node
  | _ => Node

/-- The rules of the circle, each for its goal. -/
abbrev Rules := (goal : Goal) → Parse goal.Result

namespace Rules

/-- A statement. -/
def statement (rules : Rules) (declaration topLevel : Bool) : Parse Node :=
  rules (.statement declaration topLevel)

/-- An expression without commas that may still be read as a pattern. -/
def cover (rules : Rules) (noIn : Bool) : Parse (Cover Node) := rules (.assignment noIn false)

/-- An expression without commas. -/
def assignment (rules : Rules) (noIn : Bool) : Parse Node := do
  (← rules.cover noIn).settle

/-- An operand with its unary operators, as an expression. -/
def operand (rules : Rules) : Parse Node := do
  (← rules .unary).settle

/-- An expression that no operator takes apart, as an expression. -/
def atom (rules : Rules) : Parse Node := do
  (← rules .atom).settle

/-- A name or a pattern that binds names. -/
def binding (rules : Rules) : Parse Node := rules .binding

/-- A type. -/
def type (rules : Rules) : Parse Node := rules .type

end Rules

end Grammar

end EcmaSyntax
