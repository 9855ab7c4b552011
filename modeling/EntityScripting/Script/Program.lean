import EntityScripting.Number.Double
import EntityScripting.Text.Utf8

/-!
# Programs

A level script as a tree of statements and expressions. Each part that can fail when it runs carries
the line that its failure is reported for.
-/

namespace EntityScripting.Script

open Number Text

/-- The name of a variable or of a method. -/
abbrev Name := Bytes

inductive UnaryOp where
  | negate
  | complement
  | not
  | length
deriving DecidableEq, Repr

/-- The operators on two values; `and` and `or` are not among them, since they do not always
evaluate both operands. -/
inductive BinaryOp where
  | add
  | sub
  | mul
  | mod
  | pow
  | div
  | floorDiv
  | bitAnd
  | bitOr
  | bitXor
  | shiftLeft
  | shiftRight
  | concat
  | eq
  | ne
  | lt
  | le
  | gt
  | ge
deriving DecidableEq, Repr

/-- What a local variable is declared as. -/
inductive Attribute where
  | variable
  | constant
  | toClose
deriving DecidableEq, Repr

mutual

inductive Expr where
  | nil
  | boolean (b : Bool)
  | integer (n : Int64)
  | number (x : Double)
  | text (s : Bytes)
  /-- All arguments of the function beyond its parameters. -/
  | varargs
  | name (x : Name) (line : Nat)
  | index (object key : Expr) (line : Nat)
  | call (callee : Expr) (args : List Expr) (line : Nat)
  /-- A call of a field of the object, with the object as the first argument. -/
  | method (object : Expr) (name : Name) (args : List Expr) (nameLine line : Nat)
  | function (params : List Name) (isVararg : Bool) (body : List Statement)
  | unary (op : UnaryOp) (operand : Expr) (line : Nat)
  | binary (op : BinaryOp) (left right : Expr) (line : Nat)
  | and (left right : Expr)
  | or (left right : Expr)
  /-- Exactly one value, whatever the inner expression has. -/
  | paren (inner : Expr)
  | table (fields : List TableField)

inductive TableField where
  /-- A value for the next position. -/
  | item (value : Expr)
  | entry (key value : Expr) (line : Nat)

inductive Statement where
  | call (e : Expr)
  | declare (names : List (Name × Attribute)) (values : List Expr) (line : Nat)
  | declareFunction (name : Name) (params : List Name) (isVararg : Bool) (body : List Statement)
  | assign (targets values : List Expr) (line : Nat)
  | block (body : List Statement)
  | whileLoop (condition : Expr) (body : List Statement)
  /-- The condition sees the variables of the body. -/
  | repeatLoop (body : List Statement) (condition : Expr)
  | branch (condition : Expr) (positive negative : List Statement)
  | countLoop (name : Name) (start limit : Expr) (step : Option Expr) (body : List Statement)
      (line : Nat)
  | eachLoop (names : List Name) (values : List Expr) (body : List Statement) (line : Nat)
  | ret (values : List Expr)
  | leave

end

/-- A function of a program. -/
structure FunctionBody where
  params : List Name
  isVararg : Bool
  body : List Statement

end EntityScripting.Script
