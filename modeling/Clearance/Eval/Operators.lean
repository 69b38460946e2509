/-
# Operators

The binary operators on raw operands. Objects are converted by their methods, left operand
first.
-/
import Clearance.Eval.Function

namespace Clearance

open Clearance.Action Script

/-- The text of an unlabeled text value. -/
def Value.text? (v : Value) : Option String :=
  if v.isLabeled then none else match v.raw with
    | .string s => some s
    | _ => none

/-- Both operands as numbers. -/
def twoNumbers (left right : Raw) : Action (Float × Float) := do
  let a ← numberOf left
  let b ← numberOf right
  return (a, b)

/-- Addition, or concatenation if an operand is a text. -/
def addValues (left right : Raw) : Action Raw := do
  let a ← toPrimitive left .number
  let b ← toPrimitive right .number
  let heap ← look Store.heap
  if a.text?.isSome || b.text?.isSome then return .string (heap.text a.raw ++ heap.text b.raw)
  else return .number (heap.number a.raw + heap.number b.raw)

/-- The orders of the relational operators. -/
def related {α : Type} [LT α] [LE α] [DecidableLT α] [DecidableLE α] (op : BinaryOp) (x y : α) :
    Bool :=
  match op with
  | .lt => x < y
  | .gt => y < x
  | .le => x ≤ y
  | _ => y ≤ x

/-- The relational operators. Two texts are compared by their characters, everything else as
numbers; what is no number is not related. -/
def compareValues (op : BinaryOp) (left right : Raw) : Action Raw := do
  let a ← toPrimitive left .number
  let b ← toPrimitive right .number
  match a.text?, b.text? with
  | some s, some t => return .bool (related op s t)
  | _, _ =>
    let heap ← look Store.heap
    return .bool (related op (heap.number a.raw) (heap.number b.raw))

/-- The signed number of a word. -/
def ofSigned (w : UInt32) : Float := Decimal.ofInt w.toInt32.toInt

/-- The operators on 32-bit words. Shifts use the low five bits of their right operand. -/
def bitwise (op : BinaryOp) (x y : Float) : Float :=
  let a := Decimal.toWord x
  let b := Decimal.toWord y
  let shift := b &&& 31
  match op with
  | .bitAnd => ofSigned (a &&& b)
  | .bitOr => ofSigned (a ||| b)
  | .bitXor => ofSigned (a ^^^ b)
  | .shiftLeft => ofSigned (a <<< shift)
  | .shiftRight => Decimal.ofInt (a.toInt32 >>> shift.toInt32).toInt
  | _ => Decimal.ofNat (a >>> shift).toNat

/-- Applies a binary operator. -/
def binaryOp (op : BinaryOp) (left right : Raw) : Action Raw := do
  match op with
  | .add => addValues left right
  | .sub =>
    let (a, b) ← twoNumbers left right
    return .number (a - b)
  | .mul =>
    let (a, b) ← twoNumbers left right
    return .number (a * b)
  | .div =>
    let (a, b) ← twoNumbers left right
    return .number (a / b)
  | .mod =>
    let (a, b) ← twoNumbers left right
    return .number (Decimal.remainder a b)
  | .eq => return .bool (← looseEquals left right)
  | .ne => return .bool (!(← looseEquals left right))
  | .same => return .bool (left.same right)
  | .notSame => return .bool (!left.same right)
  | .lt | .gt | .le | .ge => compareValues op left right
  | .bitAnd | .bitOr | .bitXor | .shiftLeft | .shiftRight | .shiftRightZero =>
    let (a, b) ← twoNumbers left right
    return .number (bitwise op a b)
  | .isIn =>
    match right.object? with
    | none => typeError ("invalid 'in' operand " ++ (← inspect right))
    | some o =>
      let name ← stringOf left
      return .bool (← look fun s => s.heap.has o.id name)
  | .instanceOf =>
    match right.constructor? with
    | some f => return (← invoke (.hasInstance f left)).raw
    | none => typeError ("invalid 'instanceof' operand " ++ (← inspect right))
  | .other text => fail (.internal ("unknown binary operator " ++ text))

end Clearance
