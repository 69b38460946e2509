/-
# The built-in functions

Every function that the machine provides, by name. What each of them does is defined where
its subject is.
-/

namespace Clearance

/-- Functions of one number that compute a number. -/
inductive MathFn where
  | abs | floor | ceil | round | sqrt | exp | log | sin | cos | tan | asin | acos | atan
deriving DecidableEq, Repr

/-- Methods of strings that only need the text and their arguments. -/
inductive StringFn where
  | charAt | charCodeAt | indexOf | lastIndexOf | substring | substr | slice
  | toUpperCase | toLowerCase | trim | concat | toString | valueOf | split
deriving DecidableEq, Repr

/-- Methods of arrays. -/
inductive ArrayFn where
  | push | pop | shift | unshift | splice | reverse | sort | slice | concat | join | toString
  | indexOf | forEach | map | filter | some | every | reduce
deriving DecidableEq, Repr

/-- The built-in functions. -/
inductive Builtin where
  -- objects
  | object | keys | getPrototypeOf | objectToString | objectValueOf | hasOwnProperty
  | propertyIsEnumerable
  -- functions
  | function | call | apply | functionToString
  -- errors
  | error (name : String) | errorToString
  -- arrays
  | array | isArray | arrayMethod (m : ArrayFn)
  -- strings
  | string | newString | fromCharCode | stringMethod (m : StringFn)
  | matchPattern | searchPattern | replacePattern
  -- numbers
  | number | newNumber | numberToString | toFixed | numberValueOf
  -- booleans
  | boolean | newBoolean | booleanValueOf | booleanToString
  -- mathematics
  | math (f : MathFn) | pow | atan2 | random | max | min
  -- patterns
  | regexp | exec | test | regexpToString
  -- the global object
  | eval | isNaN | isFinite | parseInt | parseFloat | print
  -- the launcher
  | version | quit | load
deriving DecidableEq, Repr

end Clearance
