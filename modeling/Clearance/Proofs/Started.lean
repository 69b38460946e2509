/-
# Sessions as hosts start them

A host opens a session, sets some globals and has a script run.

The runs of fixed scripts are evaluated in the kernel, where most of the time would be spent on
decoding the text of the script. A literal shows its characters, so they are parsed instead
(`Script.parse_ofList`).
-/
import Clearance.Session
import Mathlib.Tactic.Common

namespace Clearance.Session

/-- Sets globals one after the other. -/
def setGlobals : List (String × Value) → Action Unit
  | [] => return
  | (name, v) :: rest => do
    setGlobal name v
    setGlobals rest

/-- A session in which nothing has happened but that its host has set some globals. -/
def started (o : Library.Options) (globals : List (String × Value)) : State :=
  ((setGlobals globals).run (machine .none 0 0) 0 (fresh o)).state

/-- The truth value that a global holds without a label, if it does. -/
def flag? (s : State) (name : String) : Option Bool :=
  match (s.store.heap.get s.control.realm.global).own? name with
  | some p =>
    match p.value.raw with
    | .bool b => if p.value.label.isNone then some b else none
    | _ => none
  | none => none

/-- A script runs to its end, and a global then holds a truth value without a label. -/
def endsWith (p : Action Value) (hosts : Hosts) (bound : Nat) (s : State) (name : String)
    (b : Bool) : Bool :=
  match p.run (machine hosts bound bound) bound s with
  | .done _ t => flag? t name == some b
  | _ => false

lemma exists_of_endsWith {p : Action Value} {hosts : Hosts} {bound : Nat} {s : State}
    {name : String} {b : Bool} (h : endsWith p hosts bound s name b = true) :
    ∃ v t, p.run (machine hosts bound bound) bound s = .done v t ∧ flag? t name = some b := by
  unfold endsWith at h
  split at h
  · rename_i v t hrun
    exact ⟨v, t, hrun, eq_of_beq h⟩
  · cases h

end Clearance.Session

namespace Clearance.Script

/-! ## Parsing the characters of a text -/

/-- The source map of a text with these characters. -/
def SourceMap.ofChars (file : String) (cs : List Char) : Except String (Option SourceMap) :=
  let last := (cs.reverse.takeWhile (· != '\n')).reverse
  -- encoding as much of the line as the mark is long is faster than decoding the mark
  if String.ofList (last.take 42) != mark then .ok none
  else match last.dropWhile (· != ',') with
    | [] => .ok none
    | _ :: code =>
      match Text.decodeSixBits? code with
      | none => .ok none
      | some bytes => some <$> ofDocument file bytes

lemma SourceMap.ofScript_eq_ofChars (file text : String) :
    ofScript file text = ofChars file text.toList := by
  have hmark (last : List Char) :
      (!mark.toList.isPrefixOf last) = (String.ofList (last.take 42) != mark) := by
    have hlength : mark.toList.length = 42 := by rw [mark, String.toList_ofList]; rfl
    rw [Bool.eq_iff_iff, Bool.not_eq_true', bne_iff_ne, ← Bool.not_eq_true,
      List.isPrefixOf_iff_prefix, List.prefix_iff_eq_take, hlength, ne_eq, ← String.toList_inj,
      String.toList_ofList, eq_comm]
  dsimp only [ofScript, ofChars]
  rewrite [hmark]
  rfl

/-- The statements of a text with these characters. -/
def readChars (cs : List Char) : Except Fault (List RawStmt) := do
  let (first, lex) ← (LexState.mk ⟨cs, 0⟩ false false).next
  let (body, _) ← (parseScript (rules (4 * cs.length + 16))).run ⟨first, lex, .top⟩
  return body

lemma readScript_eq_readChars (text : String) : readScript text = readChars text.toList := by
  rewrite [readScript, readChars, String.length_toList]
  rfl

/-- The script of a text with these characters. -/
def parseChars (intrinsic file : String) (cs : List Char) (startLine : Int) :
    Except ParseError (Program Span) :=
  let delta := (startLine - 1).toNat
  let faultAt := fun (p : Position) (message : String) =>
    Except.error (ParseError.fault file p.line p.column message)
  match SourceMap.ofChars file cs with
  | .error m => faultAt .unknown m
  | .ok map =>
    let layout := Layout.mk (String.ofList cs).utf8ByteSize (linesFrom cs 0 [(1, 0)]) map
    match readChars cs with
    | .error f =>
      let (line, column) := f.place cs
      faultAt ⟨line + delta, column⟩ f.message
    | .ok body =>
      match (nodesOfStmts true body).findSome? Node.objection? with
      | some (extent, message) => faultAt (layout.span delta extent).start message
      | none =>
        let placed := rebuildStmts (layout.span delta) (labelCall intrinsic) body
        match (Program.mk file placed).resolve with
        | .ok p => .ok p
        | .error e => faultAt e.span.start e.message

/-- A text is parsed by its characters. -/
theorem parse_ofList (intrinsic file : String) (cs : List Char) (startLine : Int) :
    parse intrinsic file (String.ofList cs) startLine = parseChars intrinsic file cs startLine := by
  have hlayout : Layout.of (String.ofList cs) =
      Layout.mk (String.ofList cs).utf8ByteSize (linesFrom cs 0 [(1, 0)]) := by
    funext map
    rw [Layout.of, String.toList_ofList]
  rewrite [parse, parseChars, SourceMap.ofScript_eq_ofChars, readScript_eq_readChars, hlayout,
    String.toList_ofList]
  rfl

end Clearance.Script

namespace Clearance

lemma evaluate_ofList (cs : List Char) (file : String) (line : Int) :
    evaluate (String.ofList cs) file line =
      match Script.parseChars Script.defaultIntrinsic file cs line with
      | .error e => .fail (.script e)
      | .ok program => runProgram program.body file := by
  rewrite [evaluate, Script.parse_ofList]
  rfl

/-- A session with a secret and a public global. -/
def secretSession : State :=
  Session.started .standard [("secret", ⟨.bool true, ⟨2, "H"⟩⟩), ("public", Raw.bool false)]

/-- The statement of a script that consists of one. -/
def statement? (source : String) : Option (Script.Stmt Script.Span) :=
  match Script.parse Script.defaultIntrinsic "" source 1 with
  | .ok program =>
    match program.body with
    | [statement] => some statement
    | _ => none
  | .error _ => none

/-- The expression of a script that consists of one. -/
def expression? (source : String) : Option (Script.Expr Script.Span) :=
  match statement? source with
  | some (.expr e) => some e
  | _ => none

end Clearance
