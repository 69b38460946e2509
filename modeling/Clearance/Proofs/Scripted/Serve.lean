/-
# Whatever is served is formed in these ways

The built-in functions on texts, numbers and patterns and those of the global object, and with
them every request that a machine serves, provided that the functions of the host are built so too.
-/
import Clearance.Proofs.Scripted.Library

namespace Clearance

open Clearance.Action

variable {site : Site} {W N : Nat → Prop}

namespace Library

/-! ## Texts -/

lemma neat_toText : RawFn.Neat site W N toText := by
  intro this args
  cases args with
  | nil => exact .done _
  | cons v _ => exact .seq (neat_stringOf _) fun _ => .done _

lemma neat_newText (args : List Value) : Neat site W N (newText args) := by
  unfold newText
  dsimp only
  split
  · exact .seq (.done _) fun _ => .realm (fun _ _ => rfl) fun _ =>
      .seq (neat_newWrapper (by decide) ..) fun _ => .done _
  · exact .seq (neat_stringOf _) fun _ => .realm (fun _ _ => rfl) fun _ =>
      .seq (neat_newWrapper (by decide) ..) fun _ => .done _

lemma neat_fromCharCode : RawFn.Neat site W N fromCharCode :=
  fun _ _ => .seq (neat_convertFrom _ neat_numberOf _ _) fun _ => .done _

lemma neat_substring (s : List Char) (start stop : Raw) :
    Neat site W N (substring s start stop) :=
  .seq (neat_optionalIndex ..) fun _ => .seq (neat_optionalIndex ..) fun _ => .done _

lemma neat_substr (s : List Char) (start : Float) (length : Raw) :
    Neat site W N (substr s start length) :=
  .seq (neat_optionalIndex ..) fun _ => .done _

lemma neat_sliceText (s : List Char) (start stop : Raw) :
    Neat site W N (sliceText s start stop) :=
  .seq (neat_relativeIndex ..) fun _ => .seq (neat_relativeIndex ..) fun _ => .done _

lemma neat_separatorOf (v : Raw) : Neat site W N (separatorOf v) := by
  unfold separatorOf
  split
  · exact .done _
  · refine .seq (.object _) fun _ => ?_
    split
    · exact .done _
    · exact .seq (neat_stringOf _) fun _ => .done _
  · exact .seq (neat_plainText _) fun _ => .done _

lemma neat_splitText (s : List Char) (separator limit : Raw) :
    Neat site W N (splitText s separator limit) := by
  refine .ite (fun _ => .seq (.done _) fun _ => ?_)
    fun _ => .seq (.look _) fun _ => .seq (.done _) fun _ => ?_
  all_goals
    exact .seq (neat_separatorOf _) fun _ => .seq (neat_newArray _) fun _ => .done _

lemma neat_stringMethod (m : StringFn) : RawFn.Neat site W N (stringMethod m) := by
  intro this rest
  cases m with
  | charAt | charCodeAt =>
    exact .seq (neat_textAt ..) fun _ => .seq (neat_numberAt ..) fun _ => .done _
  | indexOf =>
    exact .seq (neat_textAt ..) fun _ => .seq (neat_textAt ..) fun _ =>
      .seq (neat_numberAt ..) fun _ => .done _
  | lastIndexOf => exact .seq (neat_textAt ..) fun _ => .seq (neat_textAt ..) fun _ => .done _
  | substring =>
    exact .seq (neat_textAt ..) fun _ => neat_adaptedResult _ (neat_substring ..)
  | substr =>
    exact .seq (neat_textAt ..) fun _ => .seq (neat_numberAt ..) fun _ =>
      neat_adaptedResult _ (neat_substr ..)
  | slice => exact .seq (neat_textAt ..) fun _ => neat_adaptedResult _ (neat_sliceText ..)
  | toUpperCase | toLowerCase | trim | toString | valueOf =>
    exact .seq (neat_textAt ..) fun _ => .done _
  | concat =>
    exact .seq (neat_textAt ..) fun _ =>
      .seq (neat_convertFrom _ neat_stringOf _ _) fun _ => .done _
  | split => exact .seq (neat_textAt ..) fun _ => neat_adaptedResult _ (neat_splitText ..)

/-! ## Numbers -/

lemma neat_toNumber : RawFn.Neat site W N toNumber := by
  intro this args
  cases args with
  | nil => exact .done _
  | cons v _ => exact .seq (neat_numberOf _) fun _ => .done _

lemma neat_newNumber (args : List Value) : Neat site W N (newNumber args) := by
  unfold newNumber
  dsimp only
  split
  · exact .seq (.done _) fun _ => .realm (fun _ _ => rfl) fun _ =>
      .seq (neat_newWrapper (by decide) ..) fun _ => .done _
  · exact .seq (neat_numberOf _) fun _ => .realm (fun _ _ => rfl) fun _ =>
      .seq (neat_newWrapper (by decide) ..) fun _ => .done _

lemma neat_numberInRadix (x : Float) (radix : Raw) :
    Neat site W N (numberInRadix x radix) := by
  refine .seq (neat_optionalIndex ..) fun _ => .ite (fun _ => .fail) fun _ => ?_
  split
  · exact .ite (fun _ => .done _) fun _ => .done _
  · exact .done _

lemma neat_numberText : RawFn.Neat site W N numberText :=
  fun _ _ => .seq (neat_numberAt ..) fun _ => neat_adaptedResult _ (neat_numberInRadix ..)

lemma neat_toFixed : RawFn.Neat site W N toFixed :=
  fun _ _ => .seq (neat_numberAt ..) fun _ => .seq (neat_numberAt ..) fun _ =>
    .ite (fun _ => .fail) fun _ => .done _

lemma neat_newBoolean (args : List Value) : Neat site W N (newBoolean args) :=
  .realm (fun _ _ => rfl) fun _ => .seq (neat_newWrapper (by decide) ..) fun _ => .done _

lemma neat_thisBoolean (this : Raw) : Neat site W N (thisBoolean this) := by
  unfold thisBoolean
  extract_lets checked
  have finish : ∀ inner, Neat site W N (checked inner) := by
    intro inner
    cases inner with
    | some b => exact .done _
    | none => exact .fail
  split
  · exact .seq (.done _) finish
  · refine .seq (.object _) fun _ => ?_
    split <;> exact .seq (.done _) finish
  · exact .seq (.done _) finish

/-- A step that only reseeds. Stated for any seed: the one at hand is a product of large numbers
that nobody should multiply out. -/
lemma neat_reseed {α : Type} (g : Store → α) (seed : Store → UInt64) :
    Neat site W N (.update fun s => (g s, { s with seed := seed s })) :=
  .note (fun _ => rfl) (fun _ => .refl _) fun _ => rfl

lemma neat_random : RawFn.Neat site W N random := by
  intro this args
  exact neat_reseed _ fun s => nextSeed s.seed

/-! ## Patterns -/

lemma neat_labeledRegExp (pattern flags : String) (k : Label) :
    Neat site W N (labeledRegExp pattern flags k) :=
  .seq (neat_newRegExp ..) fun _ => .done _

lemma neat_optionalText (v : Raw) : Neat site W N (optionalText v) :=
  .ite (fun _ => .done _) fun _ => neat_stringOf _

lemma neat_regExpFrom (args : List Value) : Neat site W N (regExpFrom args) := by
  unfold regExpFrom
  extract_lets given flags label made copied
  have finish : ∀ other, Neat site W N (copied other) := by
    intro other
    cases other with
    | none =>
      exact .seq (neat_optionalText _) fun _ => .seq (neat_optionalText _) fun _ =>
        neat_labeledRegExp ..
    | some id =>
      refine .ite (fun _ => ?_) fun _ => ?_
      · exact .seq (neat_patternFlags _) fun _ => .seq (neat_readQuietly ..) fun _ =>
          .seq (neat_plainText _) fun _ => neat_labeledRegExp ..
      · refine .seq (neat_readQuietly ..) fun _ => .ite (fun _ => .seq (.done _) fun _ => ?_)
          fun _ => .seq (neat_stringOf _) fun _ => ?_
        all_goals exact .seq (neat_optionalText _) fun _ => neat_labeledRegExp ..
  split
  · exact .seq (.object _) fun _ =>
      .ite (fun _ => .seq (.done _) finish) fun _ => .seq (.done _) finish
  · exact .seq (.done _) finish

lemma neat_patternOf (v : Raw) : Neat site W N (patternOf v) := by
  unfold patternOf
  split
  · refine .seq (.object _) fun _ => ?_
    split <;> exact .done _
  · exact .done _

lemma neat_thisRegExp (this : Raw) (name : String) :
    Neat site W N (thisRegExp this name) := by
  refine .seq (neat_patternOf _) fun p => ?_
  split
  · exact .done _
  · exact .fail

lemma neat_execute (re : Ref) (code : Pattern.Code) (text : String) :
    Neat site W N (execute re code text) := by
  refine .seq (neat_patternFlag ..) fun global => ?_
  -- the position is only remembered when the pattern is global, and then the guard has admitted it
  have remember : (global = true → W re.id) → ∀ (v : Value) (r : Raw), Neat site W N (do
      if global then putProperty re "lastIndex" v
      return r) := fun hw v r =>
    .ite (fun h => .seq (neat_putProperty (hw h) ..) fun _ => .done _) fun _ => .done _
  extract_lets missed reset searched
  have finish : (global = true → W re.id) → ∀ position, Neat site W N (searched position) := by
    intro hw position
    refine .ite (fun _ => remember hw _ _) fun _ => ?_
    dsimp only
    split
    · exact remember hw _ _
    · refine .furnish (built_newArray _) (fun o => ?_) (fun o _ h => ?_) (fun o h => ?_)
        fun _ _ => remember hw _ _
      · exact (Object.sameShell_set ..).trans (Object.sameShell_set ..)
      · exact (h.set (by decide) (by decide) _).set (by decide) (by decide) _
      · exact (h.set ..).set ..
  refine .ite (fun _ => ?_) fun h => .seq (.done _) (finish fun h' => absurd h' h)
  exact .bind (lasting_guardWrite ..) fun _ ho => .seq (neat_getProperty ..) fun _ =>
    .seq (neat_optionalIndex ..) (finish fun _ => ho)

lemma neat_exec : RawFn.Neat site W N exec :=
  fun _ _ => .seq (neat_thisRegExp ..) fun _ => .seq (neat_stringOf _) fun _ =>
    .seq (neat_execute ..) fun _ => .done _

lemma neat_test : RawFn.Neat site W N test := by
  intro this args
  refine .seq (neat_thisRegExp ..) fun _ => .seq (neat_stringOf _) fun _ =>
    .seq (neat_execute ..) fun r => ?_
  split <;> exact .done _

lemma neat_regExpSource : RawFn.Neat site W N regExpSource :=
  fun _ _ => .seq (neat_thisRegExp ..) fun _ => .seq (neat_patternText _) fun _ => .done _

lemma neat_toRegExp (v : Raw) : Neat site W N (toRegExp v) := by
  refine .seq (neat_patternOf _) fun p => ?_
  split
  · exact .done _
  · refine .seq (neat_optionalText _) fun _ => .seq (neat_newRegExp ..) fun _ =>
      .seq (.object _) fun _ => ?_
    split
    · exact .done _
    · exact .fail

lemma neat_matchAll : RawFn.Neat site W N matchAll := by
  intro this args
  refine .seq (neat_stringOf _) fun _ => .seq (neat_toRegExp _) fun r =>
    .seq (neat_patternFlag ..) fun _ => .ite (fun _ => ?_) fun _ => ?_
  · split
    · exact .done _
    · exact .seq (neat_newArray _) fun _ => .done _
  · exact .seq (neat_execute ..) fun _ => .done _

lemma neat_search : RawFn.Neat site W N search := by
  intro this args
  refine .seq (neat_stringOf _) fun _ => .seq (neat_toRegExp _) fun r => ?_
  obtain ⟨re, code⟩ := r
  dsimp only
  split <;> exact .done _

lemma neat_replaceFrom (s : List Char) (r : Replacement) (ms : List Pattern.Slots)
    (offset : Nat) (k : Label) : Neat site W N (replaceFrom s r ms offset k) := by
  induction ms generalizing offset k with
  | nil => exact .done _
  | cons m ms ih =>
    cases r with
    | template cs => exact .seq (.done _) fun _ => .seq (ih ..) fun _ => .done _
    | function f =>
      exact .seq (neat_invokeAt ..) fun _ => .seq (neat_stringOf _) fun _ =>
        .seq (.done _) fun _ => .seq (ih ..) fun _ => .done _

lemma neat_replace : NativeFn.Neat site W N replace := by
  intro this args
  refine .seq (neat_stringOf _) fun text => .seq (neat_patternOf _) fun p => ?_
  extract_lets searched
  have finish : ∀ pattern, Neat site W N (searched pattern) := by
    intro pattern
    dsimp only [searched]
    split
    · exact .seq (.done _) fun _ => .seq (neat_replaceFrom ..) fun _ => .done _
    · exact .seq (neat_stringOf _) fun _ => .seq (.done _) fun _ =>
        .seq (neat_replaceFrom ..) fun _ => .done _
  split
  · exact .seq (neat_patternFlag ..) fun _ => .seq (.done _) finish
  · refine .seq (neat_stringOf _) fun _ => ?_
    split
    · exact .seq (.done _) finish
    · exact .seq .fail finish

/-! ## The global object -/

lemma neat_evalValue : NativeFn.Neat site W N evalValue := by
  intro this args
  unfold evalValue
  split
  · exact .done _
  · split
    · exact neat_evalText ..
    · exact .done _

lemma neat_print : NativeFn.Neat site W N print :=
  fun _ _ => .seq (neat_showEach neat_inspect _) fun _ =>
    .seq (.revise (fun _ => rfl) (fun _ => .refl _) fun _ => rfl) fun _ => .done _

lemma neat_quit : NativeFn.Neat site W N quit := by
  intro this args
  unfold quit
  split
  · exact .fail
  · exact .seq (.look _) fun _ => .fail

lemma neat_hostCall (fn this : Value) (args : List Value) :
    Neat site W N (hostCall fn this args) := by
  refine neat_forHost ?_
  split
  · exact .seq (neat_inspect _) fun _ => .fail
  · exact .call ..

lemma neat_load : NativeFn.Neat site W N load := by
  intro this args
  unfold load
  split
  · exact .fail
  · refine .seq (neat_stringOf _) fun _ => .seq .await fun _ => ?_
    split
    · exact .fail
    · exact .realm (fun _ _ => rfl) fun _ => .seq (neat_getProperty ..) fun _ => neat_hostCall ..

/-- Every built-in function is formed in these ways. -/
theorem neat_run (b : Builtin) : NativeFn.Neat site W N (run b) := by
  cases b with
  | object => exact fun _ args => neat_newObject args
  | keys => exact neat_lift neat_keysOf
  | getPrototypeOf => exact neat_lift neat_prototypeOf
  | objectToString => exact neat_lift neat_classText
  | objectValueOf => exact fun _ _ => .done _
  | hasOwnProperty => exact neat_lift neat_hasOwnNamed
  | propertyIsEnumerable => exact neat_lift neat_isShown
  | function =>
    exact fun _ args => .seq (neat_textsOf args) fun _ => neat_functionFromTexts ..
  | call =>
    exact fun _ _ => .seq (neat_thisFunction ..) fun _ => neat_invokeAt ..
  | apply =>
    exact fun _ _ => .seq (neat_thisFunction ..) fun _ => .seq (neat_argumentList _) fun _ =>
      neat_invokeAt ..
  | functionToString =>
    exact neat_lift fun _ _ => .seq (neat_thisFunction ..) fun _ =>
      .seq (neat_plainText _) fun _ => .done _
  | error name => exact fun _ args => neat_newError name args
  | errorToString => exact neat_lift neat_errorSource
  | array => exact fun _ args => neat_arrayOf args
  | isArray => exact neat_lift neat_isArray
  | arrayMethod m => exact neat_arrayMethod m
  | string => exact neat_lift neat_toText
  | newString => exact fun _ args => neat_newText args
  | fromCharCode => exact neat_lift neat_fromCharCode
  | stringMethod m => exact neat_lift (neat_stringMethod m)
  | matchPattern => exact neat_lift neat_matchAll
  | searchPattern => exact neat_lift neat_search
  | replacePattern => exact neat_replace
  | number => exact neat_lift neat_toNumber
  | newNumber => exact fun _ args => neat_newNumber args
  | numberToString => exact neat_lift neat_numberText
  | toFixed => exact neat_lift neat_toFixed
  | numberValueOf =>
    exact neat_lift fun _ _ => .seq (neat_numberAt ..) fun _ => .done _
  | boolean => exact neat_lift fun _ _ => .done _
  | newBoolean => exact fun _ args => neat_newBoolean args
  | booleanValueOf | booleanToString =>
    exact neat_lift fun _ _ => .seq (neat_thisBoolean _) fun _ => .done _
  | math f => exact neat_lift fun _ _ => .seq (neat_numberAt ..) fun _ => .done _
  | pow | atan2 =>
    exact neat_lift fun _ _ => .seq (neat_numberAt ..) fun _ =>
      .seq (neat_numberAt ..) fun _ => .done _
  | random => exact neat_lift neat_random
  | max | min =>
    exact neat_lift fun _ _ => .seq (neat_convertFrom _ neat_numberOf _ _) fun _ => .done _
  | regexp => exact fun _ args => neat_regExpFrom args
  | exec => exact neat_lift neat_exec
  | test => exact neat_lift neat_test
  | regexpToString => exact neat_lift neat_regExpSource
  | eval => exact neat_evalValue
  | isNaN | isFinite =>
    exact neat_lift fun _ _ => .seq (neat_numberAt ..) fun _ => .done _
  | parseInt =>
    exact neat_lift fun _ _ => .seq (neat_textAt ..) fun _ =>
      .seq (neat_numberAt ..) fun _ => .done _
  | parseFloat => exact neat_lift fun _ _ => .seq (neat_textAt ..) fun _ => .done _
  | print => exact neat_print
  | version => exact neat_lift fun _ _ => .done _
  | quit => exact neat_quit
  | load => exact neat_load

end Library

/-! ## Requests -/

/-- The functions and objects of a host are put together like those of scripts. -/
structure Hosts.Scripted (hosts : Hosts) : Prop where
  call : ∀ n this args (floor : Label) (W : Nat → Prop),
    Clearance.Scripted floor W (hosts.call n this args) fun _ => True
  construct : ∀ n args (floor : Label) (W : Nat → Prop),
    Clearance.Scripted floor W (hosts.construct n args) fun _ => True
  hasInstance : ∀ n v (floor : Label) (W : Nat → Prop),
    Clearance.Scripted floor W (hosts.hasInstance n v) fun _ => True

lemma scripted_none : Hosts.none.Scripted :=
  ⟨fun _ _ _ _ _ => .fail, fun _ _ _ _ => .fail, fun _ _ _ _ => .fail⟩

/-- The functions and objects of a host are put together like those of the library, where the
program counter does not sink below a floor. Those of a host that runs scripts of its own are so
only where the floor is no label. -/
structure Hosts.Composed (hosts : Hosts) (floor : Label) : Prop where
  call : ∀ n this args (site : Site) (W : Nat → Prop), site.floor = floor →
    Routine site W (hosts.call n this args)
  construct : ∀ n args (site : Site) (W : Nat → Prop), site.floor = floor →
    Routine site W (hosts.construct n args)
  hasInstance : ∀ n v (site : Site) (W : Nat → Prop), site.floor = floor →
    Routine site W (hosts.hasInstance n v)

lemma composed_none (floor : Label) : Hosts.none.Composed floor :=
  ⟨fun _ _ _ _ _ _ => .fail, fun _ _ _ _ _ => .fail, fun _ _ _ _ _ => .fail⟩

/-- The functions and objects of a host do not look at the bound on activations either, and keep
arrays in order. -/
structure Hosts.Built (hosts : Hosts) : Prop where
  call : ∀ n this args (site : Site) (W N : Nat → Prop), site.floor = .none →
    Ordinary site W N (hosts.call n this args)
  construct : ∀ n args (site : Site) (W N : Nat → Prop), site.floor = .none →
    Ordinary site W N (hosts.construct n args)
  hasInstance : ∀ n v (site : Site) (W N : Nat → Prop), site.floor = .none →
    Ordinary site W N (hosts.hasInstance n v)

lemma built_none : Hosts.none.Built :=
  ⟨fun _ _ _ _ _ _ _ => .fail, fun _ _ _ _ _ _ => .fail, fun _ _ _ _ _ _ => .fail⟩

lemma Hosts.Built.composed {hosts : Hosts} (h : hosts.Built) : hosts.Composed .none :=
  ⟨fun n this args site W hsite => (h.call n this args site W _ hsite).routine,
    fun n args site W hsite => (h.construct n args site W _ hsite).routine,
    fun n v site W hsite => (h.hasInstance n v site W _ hsite).routine⟩

/-- The functions and objects of a host keep objects listable, too. -/
structure Hosts.Formed (hosts : Hosts) : Prop where
  call : ∀ n this args (site : Site) (W N : Nat → Prop), site.floor = .none →
    Trim site W N (hosts.call n this args)
  construct : ∀ n args (site : Site) (W N : Nat → Prop), site.floor = .none →
    Trim site W N (hosts.construct n args)
  hasInstance : ∀ n v (site : Site) (W N : Nat → Prop), site.floor = .none →
    Trim site W N (hosts.hasInstance n v)

lemma formed_none : Hosts.none.Formed :=
  ⟨fun _ _ _ _ _ _ _ => .fail, fun _ _ _ _ _ _ => .fail, fun _ _ _ _ _ _ => .fail⟩

lemma Hosts.Formed.built {hosts : Hosts} (h : hosts.Formed) : hosts.Built :=
  ⟨fun n this args site W N hsite => (h.call n this args site W N hsite).built,
    fun n args site W N hsite => (h.construct n args site W N hsite).built,
    fun n v site W N hsite => (h.hasInstance n v site W N hsite).built⟩

/-- The functions and objects of a host let last what cannot be deleted, too. -/
structure Hosts.Lasting (hosts : Hosts) : Prop where
  call : ∀ n this args (site : Site) (W N : Nat → Prop), site.floor = .none →
    Neat site W N (hosts.call n this args)
  construct : ∀ n args (site : Site) (W N : Nat → Prop), site.floor = .none →
    Neat site W N (hosts.construct n args)
  hasInstance : ∀ n v (site : Site) (W N : Nat → Prop), site.floor = .none →
    Neat site W N (hosts.hasInstance n v)

lemma lasting_none : Hosts.none.Lasting :=
  ⟨fun _ _ _ _ _ _ _ => .fail, fun _ _ _ _ _ _ => .fail, fun _ _ _ _ _ _ => .fail⟩

lemma Hosts.Lasting.formed {hosts : Hosts} (h : hosts.Lasting) : hosts.Formed :=
  ⟨fun n this args site W N hsite => (h.call n this args site W N hsite).formed,
    fun n args site W N hsite => (h.construct n args site W N hsite).formed,
    fun n v site W N hsite => (h.hasInstance n v site W N hsite).formed⟩

/-- What is done for a request: something of the evaluator or the library, or a function of the
host. -/
inductive Serves (hosts : Hosts) : Action Value → Prop
  | own {p : Action Value} : (∀ site W N, Neat site W N p) → Serves hosts p
  | call (n : Nat) (this : Value) (args : List Value) : Serves hosts (hosts.call n this args)
  | construct (n : Nat) (args : List Value) : Serves hosts (hosts.construct n args)
  | hasInstance (n : Nat) (v : Value) :
      Serves hosts (do return Raw.bool (← hosts.hasInstance n v))

lemma serves_native (hosts : Hosts) (n : Native) (this : Value) (args : List Value) :
    Serves hosts (n.run hosts this args) := by
  cases n with
  | builtin b => exact .own fun _ _ _ => Library.neat_run b this args
  | host n => exact .call n this args

/-- What is done for a request depends on the function that is asked. -/
lemma serves_perform (hosts : Hosts) (r : Request) :
    ∃ id k, perform hosts r = object id >>= k ∧ ∀ o, Serves hosts (k o) := by
  cases r with
  | call f this args =>
    refine ⟨f.id, _, rfl, fun o => ?_⟩
    split
    · exact .own fun _ _ _ => neat_callClosure ..
    · split
      · exact serves_native ..
      · exact .own fun _ _ _ => .fail
    · exact .own fun _ _ _ => .fail
  | construct f args =>
    refine ⟨f.id, _, rfl, fun o => ?_⟩
    split
    · exact .own fun _ _ _ => neat_constructClosure ..
    · split
      · exact serves_native ..
      · exact .own fun _ _ _ => .fail
    · exact .construct _ args
    · exact .own fun _ _ _ => .fail
  | hasInstance f v =>
    refine ⟨f.id, _, rfl, fun o => ?_⟩
    split
    · exact .hasInstance _ v
    · exact .own fun _ _ _ => .seq (neat_ordinaryHasInstance ..) fun _ => .done _

/-- Whatever is asked of a function, the answer is composed. -/
theorem routine_perform {hosts : Hosts} (h : hosts.Composed site.floor) (r : Request) :
    Routine site W (perform hosts r) := by
  obtain ⟨id, k, hperform, hk⟩ := serves_perform hosts r
  rw [hperform]
  refine .seq (.object id) fun o => ?_
  have hserves := hk o
  generalize k o = p at hserves ⊢
  cases hserves with
  | own hp => exact (hp site W _).routine
  | call n this args => exact h.call n this args site W rfl
  | construct n args => exact h.construct n args site W rfl
  | hasInstance n v => exact .seq (h.hasInstance n v site W rfl) fun _ => .done _

/-- Whatever is asked of a function, the answer is built in these ways. -/
theorem ordinary_perform {hosts : Hosts} (h : hosts.Built) (hfloor : site.floor = .none)
    (r : Request) : Ordinary site W N (perform hosts r) := by
  obtain ⟨id, k, hperform, hk⟩ := serves_perform hosts r
  rw [hperform]
  refine .seq (.object id) fun o => ?_
  have hserves := hk o
  generalize k o = p at hserves ⊢
  cases hserves with
  | own hp => exact (hp site W N).built
  | call n this args => exact h.call n this args site W N hfloor
  | construct n args => exact h.construct n args site W N hfloor
  | hasInstance n v => exact .seq (h.hasInstance n v site W N hfloor) fun _ => .done _

/-- Whatever is asked of a function, objects stay listable while it is answered. -/
theorem formed_perform {hosts : Hosts} (h : hosts.Formed) (hfloor : site.floor = .none)
    (r : Request) : Trim site W N (perform hosts r) := by
  obtain ⟨id, k, hperform, hk⟩ := serves_perform hosts r
  rw [hperform]
  refine .seq (Lasting.object id).formed fun o => ?_
  have hserves := hk o
  generalize k o = p at hserves ⊢
  cases hserves with
  | own hp => exact (hp site W N).formed
  | call n this args => exact h.call n this args site W N hfloor
  | construct n args => exact h.construct n args site W N hfloor
  | hasInstance n v => exact .seq (h.hasInstance n v site W N hfloor) fun _ => .done _

/-- Whatever is asked of a function, what cannot be deleted lasts while it is answered. -/
theorem neat_perform {hosts : Hosts} (h : hosts.Lasting) (hfloor : site.floor = .none)
    (r : Request) : Neat site W N (perform hosts r) := by
  obtain ⟨id, k, hperform, hk⟩ := serves_perform hosts r
  rw [hperform]
  refine .seq (.object id) fun o => ?_
  have hserves := hk o
  generalize k o = p at hserves ⊢
  cases hserves with
  | own hp => exact hp site W N
  | call n this args => exact h.call n this args site W N hfloor
  | construct n args => exact h.construct n args site W N hfloor
  | hasInstance n v => exact .seq (h.hasInstance n v site W N hfloor) fun _ => .done _

/-- Whatever is asked of a function, the answer is scripted. -/
theorem scripted_perform {floor : Label} {hosts : Hosts} (h : hosts.Scripted) (r : Request) :
    Scripted floor W (perform hosts r) fun _ => True := by
  obtain ⟨id, k, hperform, hk⟩ := serves_perform hosts r
  rw [hperform]
  refine .andThen (R := fun _ => True) (.note fun _ => rfl) fun o _ => ?_
  have hserves := hk o
  generalize k o = p at hserves ⊢
  cases hserves with
  | own hp => exact (hp ⟨floor, none, false⟩ W _).routine.scripted rfl
  | call n this args => exact h.call n this args floor W
  | construct n args => exact h.construct n args floor W
  | hasInstance n v => exact .andThen (h.hasInstance n v floor W) fun _ _ => .give trivial

end Clearance
