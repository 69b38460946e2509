/-
# A fresh store

The global object with all built-in functions, and the prototypes that they share. Objects are
allocated in a fixed order.
-/
import Clearance.Machine.State

namespace Clearance.Library

/-- Steps that allocate and change objects. -/
abbrev Build := StateM Heap

/-- Allocates an object; its number. -/
def add (o : Object) : Build Nat := fun h => h.add o

/-- Installs a property. -/
def put (id : Nat) (name : String) (p : Property) : Build Unit :=
  modify fun h => h.update id (·.define name p)

/-- Installs a property that enumerations skip. -/
def putHidden (id : Nat) (name : String) (r : Raw) : Build Unit := put id name (.hiddenData r)

/-- Installs a hidden constant. -/
def putConstant (id : Nat) (name : String) (r : Raw) : Build Unit := put id name (.constant r)

/-- The object of a native function. -/
def nativeObject (functionProto : Nat) (name : String) (arity : Nat) (fn ctor : Option Native) :
    Object :=
  let blank := Object.blank "Function" (some functionProto) .none
  ({ blank with behaviour := .native name arity fn ctor }).define "length"
    (.constant (Raw.ofNat arity))

/-- Installs a built-in function on an object. -/
def method (functionProto id : Nat) (name : String) (arity : Nat) (b : Builtin) : Build Unit := do
  let f ← add (nativeObject functionProto name arity (some (.builtin b)) none)
  putHidden id name (.object ⟨f, .native⟩)

/-- Installs several built-in functions on an object. -/
def methods (functionProto id : Nat) : List (String × Nat × Builtin) → Build Unit
  | [] => pure ()
  | (name, arity, b) :: rest => do
    method functionProto id name arity b
    methods functionProto id rest

/-- Installs a constructor on the global object, linked with its prototype; its number. -/
def constructor (functionProto global : Nat) (name : String) (arity proto : Nat)
    (fn ctor : Builtin) : Build Nat := do
  let object := nativeObject functionProto name arity (some (.builtin fn)) (some (.builtin ctor))
  let f ← add (object.define "prototype" (.constant (Raw.object ⟨proto, .plain⟩)))
  putHidden proto "constructor" (.object ⟨f, .native⟩)
  putHidden global name (.object ⟨f, .native⟩)
  return f

/-- Installs several constants. -/
def constants (id : Nat) : List (String × Float) → Build Unit
  | [] => pure ()
  | (name, x) :: rest => do
    putConstant id name (.number x)
    constants id rest

/-- Installs an error class under a prototype; its name and prototype. -/
def errorClass (functionProto global parent : Nat) (name : String) : Build (String × Nat) := do
  let blank := Object.blank "Object" (some parent) .none
  let proto ← add ((blank.setHidden "name" (Raw.string name)).setHidden "message" (Raw.string ""))
  let _ ← constructor functionProto global name 1 proto (.error name) (.error name)
  return (name, proto)

/-- Installs several error classes under one prototype. -/
def errorClasses (functionProto global parent : Nat) : List String → Build (List (String × Nat))
  | [] => pure []
  | name :: rest => do
    let first ← errorClass functionProto global parent name
    let others ← errorClasses functionProto global parent rest
    return first :: others

/-- The error classes below the general one. -/
def errorNames : List String :=
  ["TypeError", "ReferenceError", "SyntaxError", "RangeError", "InternalError"]

/-- The methods of arrays and their arities. -/
def arrayMethods : List (String × Nat × Builtin) :=
  [("push", 1, .arrayMethod .push), ("pop", 0, .arrayMethod .pop),
   ("shift", 0, .arrayMethod .shift), ("unshift", 1, .arrayMethod .unshift),
   ("splice", 2, .arrayMethod .splice), ("reverse", 0, .arrayMethod .reverse),
   ("sort", 1, .arrayMethod .sort), ("slice", 2, .arrayMethod .slice),
   ("concat", 1, .arrayMethod .concat), ("join", 1, .arrayMethod .join),
   ("toString", 0, .arrayMethod .toString), ("indexOf", 1, .arrayMethod .indexOf),
   ("forEach", 1, .arrayMethod .forEach), ("map", 1, .arrayMethod .map),
   ("filter", 1, .arrayMethod .filter), ("some", 1, .arrayMethod .some),
   ("every", 1, .arrayMethod .every), ("reduce", 1, .arrayMethod .reduce)]

/-- The methods of strings and their arities. -/
def stringMethods : List (String × Nat × Builtin) :=
  [("charAt", 1, .stringMethod .charAt), ("charCodeAt", 1, .stringMethod .charCodeAt),
   ("indexOf", 2, .stringMethod .indexOf), ("lastIndexOf", 1, .stringMethod .lastIndexOf),
   ("substring", 2, .stringMethod .substring), ("substr", 2, .stringMethod .substr),
   ("slice", 2, .stringMethod .slice), ("toUpperCase", 0, .stringMethod .toUpperCase),
   ("toLowerCase", 0, .stringMethod .toLowerCase), ("trim", 0, .stringMethod .trim),
   ("concat", 0, .stringMethod .concat), ("toString", 0, .stringMethod .toString),
   ("valueOf", 0, .stringMethod .valueOf), ("split", 2, .stringMethod .split)]

/-- The functions of mathematics and their arities. -/
def mathMethods : List (String × Nat × Builtin) :=
  [("abs", 1, .math .abs), ("floor", 1, .math .floor), ("ceil", 1, .math .ceil),
   ("round", 1, .math .round), ("sqrt", 1, .math .sqrt), ("pow", 2, .pow),
   ("exp", 1, .math .exp), ("log", 1, .math .log), ("sin", 1, .math .sin),
   ("cos", 1, .math .cos), ("tan", 1, .math .tan), ("asin", 1, .math .asin),
   ("acos", 1, .math .acos), ("atan", 1, .math .atan), ("atan2", 2, .atan2),
   ("random", 0, .random), ("max", 0, .max), ("min", 0, .min)]

/-- The constants of mathematics. -/
def mathConstants : List (String × Float) :=
  [("PI", 3.141592653589793), ("E", 2.718281828459045), ("LN2", 0.6931471805599453),
   ("LN10", 2.302585092994046), ("LOG2E", 1.4426950408889634), ("LOG10E", 0.4342944819032518),
   ("SQRT2", 1.4142135623730951), ("SQRT1_2", 0.7071067811865476)]

/-- The constants of numbers. -/
def numberConstants : List (String × Float) :=
  [("MAX_VALUE", 1.7976931348623157e308), ("MIN_VALUE", 5e-324), ("NaN", 0.0 / 0.0),
   ("POSITIVE_INFINITY", 1.0 / 0.0), ("NEGATIVE_INFINITY", -1.0 / 0.0)]

/-- How a machine is set up. -/
structure Options where
  lattice : Lattice
  /-- The bound on nested activations; `defaultDepth` if it is not positive. -/
  maxDepth : Int
  strictEnumeration : Bool
  traced : Bool

/-- The bound on nested activations when none is given. -/
def defaultDepth : Nat := 4096

/-- The standard options. -/
def Options.standard : Options := ⟨.standard, 0, false, false⟩

/-- Builds the heap; the fixed part of the machine refers to it. -/
def install (o : Options) : Build Realm := do
  let bottom := o.lattice.bottom
  let objectProto ← add (.blank "Object" none .none)
  let functionProto ← add (.blank "Function" (some objectProto) .none)
  let plain := Object.blank "Object" (some objectProto) .none
  let arrayProto ← add plain
  let stringProto ← add plain
  let numberProto ← add plain
  let booleanProto ← add plain
  let regexpProto ← add plain
  let global ← add (.blank "global" (some objectProto) bottom)
  let _ ← add (.blank "Activation" none o.lattice.top)
  let methods := methods functionProto
  let constructor := constructor functionProto global
  putConstant global "NaN" (.number (0.0 / 0.0))
  putConstant global "Infinity" (.number (1.0 / 0.0))
  putConstant global "undefined" .undefined
  let object ← constructor "Object" 1 objectProto .object .object
  methods object [("keys", 1, .keys), ("getPrototypeOf", 1, .getPrototypeOf)]
  methods objectProto
    [("toString", 0, .objectToString), ("valueOf", 0, .objectValueOf),
     ("hasOwnProperty", 1, .hasOwnProperty), ("propertyIsEnumerable", 1, .propertyIsEnumerable)]
  let _ ← constructor "Function" 1 functionProto .function .function
  methods functionProto
    [("call", 1, .call), ("apply", 2, .apply), ("toString", 0, .functionToString)]
  let base ← errorClass functionProto global objectProto "Error"
  methods base.2 [("toString", 0, .errorToString)]
  let errors ← errorClasses functionProto global base.2 errorNames
  let array ← constructor "Array" 1 arrayProto .array .array
  methods array [("isArray", 1, .isArray)]
  methods arrayProto arrayMethods
  let string ← constructor "String" 1 stringProto .string .newString
  methods string [("fromCharCode", 0, .fromCharCode)]
  methods stringProto stringMethods
  let number ← constructor "Number" 1 numberProto .number .newNumber
  constants number numberConstants
  methods numberProto
    [("toString", 1, .numberToString), ("toFixed", 1, .toFixed), ("valueOf", 0, .numberValueOf)]
  let _ ← constructor "Boolean" 1 booleanProto .boolean .newBoolean
  methods booleanProto [("valueOf", 0, .booleanValueOf), ("toString", 0, .booleanToString)]
  let math ← add (.blank "Math" (some objectProto) bottom)
  constants math mathConstants
  methods math mathMethods
  putHidden global "Math" (.object ⟨math, .plain⟩)
  let _ ← constructor "RegExp" 2 regexpProto .regexp .regexp
  methods regexpProto [("exec", 1, .exec), ("test", 1, .test), ("toString", 0, .regexpToString)]
  methods stringProto
    [("match", 1, .matchPattern), ("search", 1, .searchPattern), ("replace", 2, .replacePattern)]
  methods global
    [("eval", 1, .eval), ("isNaN", 1, .isNaN), ("isFinite", 1, .isFinite),
     ("parseInt", 2, .parseInt), ("parseFloat", 1, .parseFloat), ("print", 1, .print)]
  return { lattice := o.lattice,
           maxDepth := if o.maxDepth ≤ 0 then defaultDepth else o.maxDepth.toNat,
           strictEnumeration := o.strictEnumeration, traced := o.traced, global, globalFrame := 0,
           objectProto, functionProto, arrayProto, stringProto, numberProto, booleanProto,
           regexpProto, errorProtos := base :: errors }

end Clearance.Library
