/-
# Character classes and case

The classes letter, digit and printable, and the one-to-one case mappings, are read off the
tables of the Unicode standard.
-/
import Clearance.Text.Table.Category
import Clearance.Text.Table.Case
import Clearance.Text.Table.Script

namespace Clearance.Text

/-- The pieces of a text between single separators; the text of no piece is one empty piece. -/
def splitChars (sep : Char) : List Char → List (List Char)
  | [] => [[]]
  | c :: rest =>
    if c == sep then [] :: splitChars sep rest
    else match splitChars sep rest with
      | [] => [[c]]
      | piece :: pieces => (c :: piece) :: pieces

/-- A space or the end of a line. -/
def isGap (c : Char) : Bool := c == ' ' || c == '\n'

/-- The pieces of a text between gaps. -/
def wordsOf (s : String) : List (List Char) :=
  (splitChars ' ' (s.toList.map fun c => if isGap c then ' ' else c)).filter fun w => !w.isEmpty

/-- The number written by the leading decimal digits. -/
def decimalOf (cs : List Char) : Nat :=
  (cs.takeWhile Char.isDigit).foldl (fun n c => 10 * n + (c.toNat - 48)) 0

/-- An optional minus sign and a decimal number. -/
def signedOf : List Char → Int
  | '-' :: cs => - Int.ofNat (decimalOf cs)
  | cs => Int.ofNat (decimalOf cs)

/-- Runs of consecutive code points with a common tag: the first code point of a run, the
first code point after it, and the tag. -/
abbrev Runs := Array (Nat × Nat × String)

/-- Reads the runs of equal general category. -/
def readCategories (src : String) : Runs :=
  let step := fun (acc : Runs × Nat) (item : List Char) =>
    let n := decimalOf item
    (acc.1.push (acc.2, acc.2 + n, String.ofList (item.dropWhile Char.isDigit)), acc.2 + n)
  ((wordsOf src).foldl step (#[], 0)).1

/-- The runs of equal general category. -/
def categories : Runs := readCategories Table.categoryRuns

/-- The tag of the run that holds `n`, by bisection between positions `lo` and `hi`. -/
def Runs.bisect (runs : Runs) (n : Nat) : Nat → Nat → Nat → String
  | 0, _, _ => ""
  | fuel + 1, lo, hi =>
    if lo ≥ hi then ""
    else
      let mid := (lo + hi) / 2
      match runs[mid]? with
      | none => ""
      | some (a, b, tag) =>
        if n < a then bisect runs n fuel lo mid
        else if n < b then tag
        else bisect runs n fuel (mid + 1) hi

/-- The two-letter general category of a character. -/
def category (c : Char) : String :=
  categories.bisect c.toNat (categories.size + 1) 0 categories.size

/-- The major class of a character: the first letter of its general category. -/
def major (c : Char) : Char := (category c).toList.headD 'C'

/-- A letter of any script. -/
def isLetter (c : Char) : Bool :=
  if c.toNat < 128 then c.isAlpha else major c == 'L'

/-- A decimal digit of any script. -/
def isDigit (c : Char) : Bool :=
  if c.toNat < 128 then c.isDigit else category c == "Nd"

/-- A character with a visible form, or the ordinary space. -/
def isPrint (c : Char) : Bool :=
  if c.toNat < 128 then 32 ≤ c.toNat && c.toNat < 127
  else
    let m := major c
    m == 'L' || m == 'M' || m == 'N' || m == 'P' || m == 'S'

/-- A run of a case mapping: its first and last code point, the step between its members and
the shift that maps them. -/
structure CaseRun where
  lo : Nat
  hi : Nat
  step : Nat
  shift : Int

/-- Reads the runs of a case mapping. -/
def readCase (src : String) : Array CaseRun :=
  ((wordsOf src).map fun item =>
    match splitChars ':' item with
    | [a, b, s, d] => ⟨decimalOf a, decimalOf b, decimalOf s, signedOf d⟩
    | _ => ⟨0, 0, 1, 0⟩).toArray

/-- A code point belongs to a run when it lies on the run's steps. -/
def CaseRun.holds (r : CaseRun) (n : Nat) : Bool :=
  r.lo ≤ n && n ≤ r.hi && (n - r.lo) % r.step == 0

/-- The image of a code point under a case mapping. -/
def mapCase (runs : Array CaseRun) (n : Nat) : Nat :=
  match runs.find? (fun r => r.holds n) with
  | some r => (Int.ofNat n + r.shift).toNat
  | none => n

/-- The runs of the upper case mapping. -/
def upperCase : Array CaseRun := readCase Table.upperRuns

/-- The runs of the lower case mapping. -/
def lowerCase : Array CaseRun := readCase Table.lowerRuns

/-- The runs of the case folding. -/
def caseFolding : Array CaseRun := readCase Table.foldRuns

/-- The upper case form of a character. -/
def toUpper (c : Char) : Char :=
  if c.toNat < 128 then c.toUpper else Char.ofNat (mapCase upperCase c.toNat)

/-- The lower case form of a character. -/
def toLower (c : Char) : Char :=
  if c.toNat < 128 then c.toLower else Char.ofNat (mapCase lowerCase c.toNat)

/-- The code point that stands for all code points equal to `n` up to case. -/
def foldCase (n : Nat) : Nat :=
  if n < 128 then (if 65 ≤ n && n ≤ 90 then n + 32 else n) else mapCase caseFolding n

/-- The code points that the case folding changes, each after the one that stands for it. -/
def foldedPairs : List (Nat × Nat) :=
  caseFolding.toList.flatMap fun run =>
    (List.range ((run.hi - run.lo) / run.step + 1)).map fun i =>
      let n := run.lo + i * run.step
      ((Int.ofNat n + run.shift).toNat, n)

/-- Gathers the second components of pairs with equal first components, which stand next to
each other; the common first component is gathered too. -/
def gatherPairs : List (Nat × Nat) → List (List Nat)
  | [] => []
  | (rep, n) :: rest =>
    match rest, gatherPairs rest with
    | (rep', _) :: _, members :: more =>
      if rep = rep' then (n :: members) :: more else [n, rep] :: members :: more
    | _, more => [n, rep] :: more

/-- The classes of code points that are equal up to case and have more than one member. -/
def caseClasses : Array (List Nat) :=
  (gatherPairs (foldedPairs.mergeSort fun a b => a.1 ≤ b.1)).toArray

/-- The members of all these classes in increasing order, each with the number of its class. -/
def caseMembers : List (Nat × Nat) :=
  (caseClasses.toList.zipIdx.flatMap fun (ns, i) => ns.map fun n => (n, i)).mergeSort
    fun a b => a.1 ≤ b.1

/-- Ranges of code points, both ends included. -/
abbrev Ranges := List (Nat × Nat)

/-- Joins ranges that overlap or touch; they come in increasing order of their first ends. -/
def joinRanges : Ranges → Ranges
  | [] => []
  | [r] => [r]
  | (a, b) :: (c, d) :: rest =>
    if c ≤ b + 1 then joinRanges ((a, max b d) :: rest) else (a, b) :: joinRanges ((c, d) :: rest)
termination_by rs => rs.length

/-- The ranges of the code points whose general category satisfies `p`. -/
def categoryRanges (p : String → Bool) : Ranges :=
  joinRanges ((categories.toList.filter (fun r => p r.2.2)).map (fun r => (r.1, r.2.1 - 1)))

/-- Reads one range, a single code point or two with a dash. -/
def readRange (item : List Char) : Nat × Nat :=
  match splitChars '-' item with
  | [a, b] => (decimalOf a, decimalOf b)
  | _ => (decimalOf item, decimalOf item)

/-- Names of classes count without blanks, dashes and underscores, and up to case. -/
def plainName (name : List Char) : String :=
  String.ofList ((name.filter fun c => c != '_' && c != '-' && c != ' ').map Char.toLower)

/-- Reads the scripts by name. -/
def readScripts (src : String) : List (String × Ranges) :=
  (splitChars ';' src.toList).filterMap fun item =>
    match splitChars '=' (item.filter fun c => !isGap c) with
    | [name, ranges] => some (plainName name, (splitChars ',' ranges).map readRange)
    | _ => none

/-- The scripts by name. -/
def scripts : List (String × Ranges) := readScripts Table.scriptRanges

/-- The general categories of two letters and their long names. -/
def categoryNames : List (String × List String) :=
  [("Cc", ["Control", "cntrl"]), ("Cf", ["Format"]), ("Cn", ["Unassigned"]),
   ("Co", ["Private_Use"]), ("Cs", ["Surrogate"]), ("Ll", ["Lowercase_Letter"]),
   ("Lm", ["Modifier_Letter"]), ("Lo", ["Other_Letter"]), ("Lt", ["Titlecase_Letter"]),
   ("Lu", ["Uppercase_Letter"]), ("Mc", ["Spacing_Mark"]), ("Me", ["Enclosing_Mark"]),
   ("Mn", ["Nonspacing_Mark"]), ("Nd", ["Decimal_Number", "digit"]), ("Nl", ["Letter_Number"]),
   ("No", ["Other_Number"]), ("Pc", ["Connector_Punctuation"]), ("Pd", ["Dash_Punctuation"]),
   ("Pe", ["Close_Punctuation"]), ("Pf", ["Final_Punctuation"]),
   ("Pi", ["Initial_Punctuation"]), ("Po", ["Other_Punctuation"]), ("Ps", ["Open_Punctuation"]),
   ("Sc", ["Currency_Symbol"]), ("Sk", ["Modifier_Symbol"]), ("Sm", ["Math_Symbol"]),
   ("So", ["Other_Symbol"]), ("Zl", ["Line_Separator"]), ("Zp", ["Paragraph_Separator"]),
   ("Zs", ["Space_Separator"])]

/-- The major classes and their long names. -/
def majorNames : List (Char × List String) :=
  [('C', ["Other"]), ('L', ["Letter"]), ('M', ["Mark", "Combining_Mark"]), ('N', ["Number"]),
   ('P', ["Punctuation", "punct"]), ('S', ["Symbol"]), ('Z', ["Separator"])]

/-- The classes that are not a single category, a major class or a script. -/
def otherClasses : List (String × Ranges) :=
  let cased := categoryRanges fun c => c == "Lu" || c == "Ll" || c == "Lt"
  [("any", [(0, 0x10FFFF)]), ("ascii", [(0, 127)]),
   ("assigned", categoryRanges fun c => c != "Cn"), ("lc", cased), ("casedletter", cased)]

/-- The ranges of all classes by name. -/
def classTable : List (String × Ranges) :=
  let named := fun (short : String) (long : List String) (ranges : Ranges) =>
    (short :: long).map fun name => (plainName name.toList, ranges)
  otherClasses ++
    (majorNames.flatMap fun (m, long) =>
      named m.toString long (categoryRanges fun c => c.toList.head? == some m)) ++
    (categoryNames.flatMap fun (c, long) => named c long (categoryRanges (· == c))) ++
    scripts

/-- The code points of a named general category, script or other class. -/
def named? (name : String) : Option Ranges := classTable.lookup (plainName name.toList)

end Clearance.Text
