/-
# Calls of `exec` one after the other

A global pattern object remembers in `lastIndex` where its next search starts. Calls of `exec` on a
text are steps of a scan of it (`finds_scan`): each call gives the next match of `Code.Scan`, and
counts the characters that have been passed. They end when a call gives null, or else there is an
empty match at the end of the text, which all further calls give.

`match` looks for all matches at once, and does not forget what is in front of the rest of a text.
If the pattern does not look back and no match is empty, it gives the same matches.
-/
import Clearance.Library.Global
import Clearance.Proofs.Elements
import Clearance.Proofs.Searching

namespace Clearance

open Clearance.Action Clearance.Library

/-! ## Positions -/

/-- A position within 32 bits is kept. -/
lemma toIndex_ofNat {n : Nat} (hn : n < 2 ^ 31) : toIndex n.toUInt64.toFloat = n := by
  have hbeq : (n.toUInt64.toFloat == Decimal.ofNat n) = true := by
    rw [ofNat_eq_toFloat (Nat.le_of_lt (Nat.lt_trans hn (by decide)))]
    exact toFloat_beq (Nat.lt_trans hn (by decide))
  rw [toIndex, Decimal.isNaN_of_beq hbeq, if_neg Bool.false_ne_true,
    Decimal.truncate?_of_beq (Nat.lt_trans hn (by decide)) hbeq]
  dsimp only
  omega

lemma charsBefore_start (h : Pattern.Hit) :
    Text.charsBefore h.range.1 h.text = h.before.length := by
  rw [Pattern.Hit.range, Pattern.Hit.text, List.append_assoc, Text.charsBefore_byteSize]

/-- The next search starts behind what has been passed. -/
lemma charsBefore_resumeOffset (h : Pattern.Hit) :
    Text.charsBefore (resumeOffset h.text h.range.1 h.range.2) h.text = h.passed.length := by
  obtain ⟨before, matched, after⟩ := h
  dsimp only [Pattern.Hit.range, Pattern.Hit.text, Pattern.Hit.passed]
  by_cases hempty : matched = []
  · subst hempty
    rw [resumeOffset, List.append_nil, if_pos rfl, Text.dropBytes_byteSize]
    cases after with
    | nil =>
      have hend := Text.charsBefore_byteSize before []
      rw [List.append_nil] at hend
      simp [hend]
    | cons c cs =>
      have hstep : Text.byteSize before + c.utf8Size = Text.byteSize (before ++ [c]) := by
        simp [Text.byteSize_append, Text.byteSize]
      dsimp only
      rw [hstep, List.append_cons before c cs, Text.charsBefore_byteSize]
      simp
  · have hpos := Text.byteSize_pos hempty
    rw [resumeOffset, if_neg (by rw [Text.byteSize_append]; omega), Text.charsBefore_byteSize,
      if_neg hempty, List.append_nil]

/-! ## Pattern objects -/

/-- A global pattern object whose next search starts at a position. -/
structure Object.Resumes (o : Object) (code : Pattern.Code) (n : Nat) : Prop where
  pattern : o.pattern = some code
  compiled : ∃ source, Pattern.compile source = .ok code
  global : ∃ q, Slots.find? "global" o.slots = some q ∧ q.isAccessor = false ∧
    q.value.raw.truth = true
  lastIndex : ∃ q, Slots.find? "lastIndex" o.slots = some q ∧ q.Plain ∧ q.value.raw = Raw.ofNat n

/-- A global pattern object that can be changed. -/
structure State.Resumes (s : State) (id : Nat) (code : Pattern.Code) (n : Nat) : Prop where
  object : (s.store.heap.get id).Resumes code n
  low : s.control.pc.leq (s.store.heap.get id).partition = true

/-- Where the next search starts. -/
def Object.lastIndex? (o : Object) : Option Raw :=
  (Slots.find? "lastIndex" o.slots).map (·.value.raw)

/-- The array of a match: the text that matches, where it starts, counted in characters, and the
text that was searched in. -/
structure Object.Shows (o : Object) (hit : Pattern.Hit) : Prop where
  matched : ∃ q, Slots.find? (indexName 0) o.slots = some q ∧
    q.value = Raw.string (String.ofList hit.matched)
  index : ∃ q, Slots.find? "index" o.slots = some q ∧ q.value = Raw.ofNat hit.before.length
  input : ∃ q, Slots.find? "input" o.slots = some q ∧ q.value = Raw.string (String.ofList hit.text)

namespace Object

/-- An array whose first element is the text of a match is described as the array of it. -/
lemma shows_set {o : Object} {hit : Pattern.Hit} (hfirst : Slots.find? (indexName 0) o.slots =
    some (.data (Raw.string (String.ofList hit.matched)))) :
    ((o.set "index" (Raw.ofNat hit.before.length)).set "input"
      (Raw.string (String.ofList hit.text))).Shows hit := by
  obtain ⟨q, hq, hindex⟩ := o.find?_set_self "index" (Raw.ofNat hit.before.length)
  refine ⟨⟨.data (Raw.string (String.ofList hit.matched)), ?_, rfl⟩, ⟨q, ?_, hindex⟩,
    find?_set_self ..⟩
  · rw [find?_set_ne _ (by decide), find?_set_ne _ (by decide), hfirst]
  · rw [find?_set_ne _ (by decide), hq]

end Object

section

variable {serve : Service} {fuel : Nat} {s : State} {o : Ref} {code : Pattern.Code} {n : Nat}

lemma Object.Resumes.lt_size {h : Heap} {id : Nat} (hresumes : (h.get id).Resumes code n) :
    id < h.size := by
  by_contra hge
  have hpattern := hresumes.pattern
  rw [Heap.get_of_size_le (Nat.le_of_not_lt hge)] at hpattern
  cases hpattern

lemma run_patternFlag_global (h : s.Resumes o.id code n) :
    (patternFlag o "global").run serve fuel s = .done true s := by
  obtain ⟨q, hq, hdata, htruth⟩ := h.object.global
  unfold patternFlag readQuietly
  simp only [run_bind, run_attempt]
  rw [run_getProperty_slot hq hdata]
  simp [htruth]

lemma run_guardWrite_low (h : s.Resumes o.id code n) (name : String) :
    (guardWrite o name).run serve fuel s = .done () s := by
  unfold guardWrite
  simp only [run_bind, run_pc, run_object, Label.not_less_of_leq h.low,
    Bool.false_eq_true, if_false, run_pure]

variable (serve fuel) in
/-- Setting where the next search starts. -/
lemma run_putProperty_lastIndex (h : s.Resumes o.id code n) (k : Nat) : ∃ f,
    (putProperty o "lastIndex" (Raw.ofNat k)).run serve fuel s =
        .done () (s.withHeap (s.store.heap.update o.id f)) ∧
      (s.withHeap (s.store.heap.update o.id f)).Resumes o.id code k := by
  obtain ⟨q, hq, hplain, hraw⟩ := h.object.lastIndex
  refine ⟨(·.define "lastIndex" { q with value := Raw.ofNat k }), ?_, ?_, ?_⟩
  · rw [run_putProperty_slot hq hplain.data hplain.writable, if_neg (by simp)]
    rfl
  · rw [State.heap_withHeap, Heap.get_update_self h.object.lt_size]
    obtain ⟨q', hq', hglobal⟩ := h.object.global
    refine ⟨h.object.pattern, h.object.compiled, ⟨q', ?_, hglobal⟩,
      ⟨{ q with value := Raw.ofNat k }, ?_, ⟨hplain.data, hplain.writable⟩, rfl⟩⟩
    · rw [Object.find?_define, if_neg (by decide), hq']
    · rw [Object.find?_define, if_pos rfl]
  · rw [State.heap_withHeap, Heap.get_update_self h.object.lt_size]
    exact h.low

/-- Reads where a search starts. -/
def position (o : Ref) : Action Int := do
  guardWrite o "lastIndex"
  optionalIndex (← getProperty o "lastIndex").raw 0

/-- Sets where the next search starts, and gives a result. -/
def finishAt (o : Ref) (n : Nat) (r : Raw) : Action Raw := do
  putProperty o "lastIndex" (Raw.ofNat n)
  return r

/-- A position within 32 bits is read back. -/
lemma run_optionalIndex_ofNat (hn : n < 2 ^ 31) :
    (optionalIndex (Raw.ofNat n) 0).run serve fuel s = .done (n : Int) s :=
  congrArg (Outcome.done · s) (toIndex_ofNat hn)

lemma run_position (h : s.Resumes o.id code n) (hn : n < 2 ^ 31) :
    (position o).run serve fuel s = .done (n : Int) s := by
  obtain ⟨q, hq, hplain, hraw⟩ := h.object.lastIndex
  unfold position
  rw [run_bind_of_done (run_guardWrite_low h _),
    run_bind_of_done (run_getProperty_slot hq hplain.data), hraw, run_optionalIndex_ofNat hn]

variable (serve fuel) in
lemma run_finishAt (h : s.Resumes o.id code n) (k : Nat) (r : Raw) : ∃ f,
    (finishAt o k r).run serve fuel s = .done r (s.withHeap (s.store.heap.update o.id f)) ∧
      (s.withHeap (s.store.heap.update o.id f)).Resumes o.id code k := by
  obtain ⟨f, hput, hresumes⟩ := run_putProperty_lastIndex serve fuel h k
  exact ⟨f, run_bind_of_done hput _, hresumes⟩

/-! ## What is left of a call -/

section

variable {s₁ s' : State} {p : Int} {text : String} {done rest pre matched post : List Char}
  {m : Pattern.Slots}

/-- The parts of `position` in front of something else. -/
lemma run_bind_position (hposition : (position o).run serve fuel s = .done p s') {α : Type}
    (k : Int → Action α) :
    (guardWrite o "lastIndex" >>= fun _ => getProperty o "lastIndex" >>= fun v =>
      optionalIndex v.raw 0 >>= k).run serve fuel s = (k p).run serve fuel s' := by
  obtain ⟨_, _, hguard, hrest⟩ := run_bind_done.1 hposition
  obtain ⟨_, _, hget, hindex⟩ := run_bind_done.1 hrest
  rw [run_bind_of_done hguard, run_bind_of_done hget, run_bind_of_done hindex]

/-- The first capture is the whole match. -/
lemma captureValues_zero (done : List Char) (hcuts : m.Cuts 0 pre matched post rest) :
    (captureValues (done ++ rest) (Text.byteSize done) m)[0]? =
      some (.string (String.ofList matched)) := by
  have hsize : 1 < m.size := (Array.getElem?_eq_some_iff.1 hcuts.stop).1
  have hslice := Text.sliceBytes_byteSize (done ++ pre) matched post
  rw [captureValues, List.getElem?_map, List.getElem?_range (by omega), Option.map_some,
    Nat.mul_zero, hcuts.start, hcuts.stop]
  simp only [Text.byteSize_append, List.append_assoc] at hslice
  simp [hcuts.whole, Text.byteSize_append, hslice]

section

variable (hflag : (patternFlag o "global").run serve fuel s = .done true s₁)
  (hposition : (position o).run serve fuel s₁ = .done p s')
include hflag hposition

variable (hp : p = done.length) (htext : text.toList = done ++ rest)
include hp htext

lemma run_execute_none (hnone : code.find rest = none) :
    (execute o code text).run serve fuel s = (finishAt o 0 .null).run serve fuel s' := by
  subst hp
  have hdone : done.length ≤ text.toList.length := by simp [htext]
  unfold execute
  rw [run_bind_of_done hflag]
  dsimp only
  rw [if_pos rfl, run_bind_position hposition, if_neg (by simpa using hdone), htext,
    Text.byteOffset_length, Text.dropBytes_byteSize, hnone]
  rfl

/-- The array is made and described, and then the pattern object is changed. -/
lemma run_execute_some (hsome : code.find rest = some m) (hcuts : m.Cuts 0 pre matched post rest) :
    ∃ h : Heap, (h.get s'.store.heap.size).Shows ⟨done ++ pre, matched, post⟩ ∧
      (∀ id < s'.store.heap.size, h.get id = s'.store.heap.get id) ∧
      (execute o code text).run serve fuel s =
        (finishAt o (Pattern.Hit.mk (done ++ pre) matched post).passed.length
          (.object ⟨s'.store.heap.size, .plain⟩)).run serve fuel (s'.withHeap h) := by
  subst hp
  have hdone : done.length ≤ text.toList.length := by simp [htext]
  have hwhole : done ++ rest = (Pattern.Hit.mk (done ++ pre) matched post).text :=
    hcuts.text_eq done
  have hstart : Text.byteSize done + m.range.1 =
      (Pattern.Hit.mk (done ++ pre) matched post).range.1 := by
    simp [hcuts.range_eq, Pattern.Hit.range, Text.byteSize_append]
  have hstop : Text.byteSize done + m.range.2 =
      (Pattern.Hit.mk (done ++ pre) matched post).range.2 := by
    simp [hcuts.range_eq, Pattern.Hit.range, Text.byteSize_append]
  let shown := Heap.arrayOf (some s'.control.realm.arrayProto) s'.control.pc
    ((captureValues (done ++ rest) (Text.byteSize done) m).map Value.plain)
  -- the match is a new array, with two more properties
  let describe := fun (a : Object) =>
    (a.set "index" (Raw.ofNat (done ++ pre).length)).set "input" (Raw.string text)
  let found := (Heap.update (s'.store.heap.push shown) s'.store.heap.size describe : Heap)
  refine ⟨found, ?_, fun id hid => ?_, ?_⟩
  · have hfirst : Slots.find? (indexName 0) shown.slots =
        some (.data (Raw.string (String.ofList matched))) := by
      rw [Heap.find?_arrayOf _ _ _ (by decide), List.getElem?_map, captureValues_zero done hcuts]
      rfl
    have hshows := @Object.shows_set shown ⟨done ++ pre, matched, post⟩ hfirst
    rw [← hwhole, ← htext, String.ofList_toList] at hshows
    rw [Heap.get_update_self (by simp), Heap.get_push_size]
    exact hshows
  · rw [Heap.get_update_ne (Nat.ne_of_lt hid), Heap.get_push_lt hid]
  · unfold execute
    rw [run_bind_of_done hflag]
    dsimp only
    rw [if_pos rfl, run_bind_position hposition, if_neg (by simpa using hdone), htext,
      Text.byteOffset_length, Text.dropBytes_byteSize, hsome]
    dsimp only
    rw [hstart, hstop, hwhole, charsBefore_start, charsBefore_resumeOffset, ← hwhole]
    have hmake :
        (newArray ((captureValues (done ++ rest) (Text.byteSize done) m).map Value.plain)).run
        serve fuel s' = .done ⟨s'.store.heap.size, .plain⟩
          (s'.withHeap (s'.store.heap.push shown)) := rfl
    have hdescribe : (change s'.store.heap.size describe).run serve fuel
        (s'.withHeap (s'.store.heap.push shown)) = .done () (s'.withHeap found) := rfl
    rw [run_bind_of_done hmake, run_bind_of_done hdescribe, if_pos rfl]
    rfl

end

/-- The object at another place of the heap is not changed. -/
lemma State.Resumes.congr {id : Nat} {h' : Heap} (h : s.Resumes id code n)
    (hget : h'.get id = s.store.heap.get id) : (s.withHeap h').Resumes id code n := by
  refine ⟨?_, ?_⟩ <;> rw [State.heap_withHeap, hget]
  · exact h.object
  · exact h.low

section

variable (serve fuel) (h : s.Resumes o.id code done.length) (htext : text.toList = done ++ rest)
  (hlength : text.toList.length < 2 ^ 31)
include h htext hlength

lemma run_execute_miss (hnone : code.find rest = none) : ∃ t,
    (execute o code text).run serve fuel s = .done .null t ∧ t.Resumes o.id code 0 := by
  have hdone : done.length ≤ text.toList.length := by simp [htext]
  obtain ⟨f, hfinish, hresumes⟩ := run_finishAt serve fuel h 0 .null
  refine ⟨_, ?_, hresumes⟩
  rw [run_execute_none (run_patternFlag_global h)
    (run_position h (by omega)) rfl htext hnone, hfinish]

lemma run_execute_hit (hsome : code.find rest = some m)
    (hcuts : m.Cuts 0 pre matched post rest) : ∃ t,
    (execute o code text).run serve fuel s = .done (.object ⟨s.store.heap.size, .plain⟩) t ∧
      (t.store.heap.get s.store.heap.size).Shows ⟨done ++ pre, matched, post⟩ ∧
      t.Resumes o.id code (Pattern.Hit.mk (done ++ pre) matched post).passed.length := by
  have hdone : done.length ≤ text.toList.length := by simp [htext]
  have hlt := h.object.lt_size
  obtain ⟨found, hshows, hkept, hrun⟩ := run_execute_some (run_patternFlag_global h)
    (run_position h (by omega)) rfl htext hsome hcuts
  obtain ⟨f, hfinish, hresumes⟩ := run_finishAt serve fuel (h.congr (hkept _ hlt))
    (Pattern.Hit.mk (done ++ pre) matched post).passed.length (.object ⟨s.store.heap.size, .plain⟩)
  refine ⟨_, hrun.trans hfinish, ?_, hresumes⟩
  rw [State.heap_withHeap, State.heap_withHeap, Heap.get_update_ne (Nat.ne_of_gt hlt)]
  exact hshows

end

end

/-! ## Calls -/

lemma rawAt_map_raw (args : List Value) (i : Nat) :
    rawAt (args.map Value.raw) i = (argAt args i).raw := by
  unfold rawAt argAt
  rw [List.getD_eq_getElem?_getD, List.getD_eq_getElem?_getD, List.getElem?_map]
  cases args[i]? <;> rfl

variable {this : Value} {args : List Value}

/-- A call of `exec` on a text. -/
lemma run_exec (hthis : this.raw = .object o) (harg : (argAt args 0).raw = .string text)
    (h : s.Resumes o.id code n) {r : Raw} {t : State}
    (hrun : (execute ⟨o.id, .plain⟩ code text).run serve fuel s = .done r t) :
    (Library.run .exec this args).run serve fuel s =
      .done ((r : Value).wrap (Value.joinLabels (this :: args))) t := by
  have hpattern : (thisRegExp (.object o) "exec").run serve fuel s =
      .done (⟨o.id, .plain⟩, code) s := by
    unfold thisRegExp patternOf
    simp only [run_bind, run_object, h.object.pattern, run_pure]
  have htext : (stringOf (.string text)).run serve fuel s = .done text s := rfl
  change (lift exec this args).run serve fuel s = _
  unfold lift exec
  rw [run_bind, hthis, run_bind_of_done hpattern]
  dsimp only
  rw [rawAt_map_raw, harg, run_bind_of_done htext, run_bind_of_done hrun]
  rfl

/-- The texts of matches are those of the matches in the same places. -/
lemma map_matchText_eq {cs : List Char} {ms : List Pattern.Slots} {hits : List Pattern.Hit}
    (hranges : ms.map Pattern.Slots.range = hits.map Pattern.Hit.range)
    (hwhole : ∀ hit ∈ hits, hit.text = cs) :
    ms.map (matchText cs) =
      (hits.map Pattern.Hit.matched).map fun cs => Raw.string (String.ofList cs) := by
  let slice := fun (r : Nat × Nat) => Raw.string (String.ofList (Text.sliceBytes r.1 r.2 cs))
  calc ms.map (matchText cs) = (ms.map Pattern.Slots.range).map slice := by rw [List.map_map]; rfl
    _ = hits.map (slice ∘ Pattern.Hit.range) := by rw [hranges, List.map_map]
    _ = (hits.map Pattern.Hit.matched).map fun cs => Raw.string (String.ofList cs) := by
      rw [List.map_map]
      refine List.map_congr_left fun hit hhit => ?_
      have hslice := Text.sliceBytes_byteSize hit.before hit.matched hit.after
      change Raw.string (String.ofList (Text.sliceBytes hit.range.1 hit.range.2 cs)) =
        Raw.string (String.ofList hit.matched)
      rw [← hwhole hit hhit, Pattern.Hit.text, Pattern.Hit.range, hslice]

/-- A value that is null if there are no texts, and otherwise an array of them. -/
inductive State.GivesTexts (s : State) (v : Value) : List (List Char) → Prop where
  | nothing (hnull : v.raw = .null) : GivesTexts s v []
  | array {texts : List (List Char)} (hne : texts ≠ []) {a : Ref} (harray : v.raw = .object a)
    (hholds : (s.store.heap.get a.id).Holds
      (texts.map fun cs => some (Raw.string (String.ofList cs)))) : GivesTexts s v texts

/-- A call of `match` with a global pattern. -/
lemma run_matchPattern (hthis : this.raw = .string text) (harg : (argAt args 0).raw = .object o)
    (h : s.Resumes o.id code n) {texts : List (List Char)} (hcount : texts.length ≤ maxLength)
    (hmatches : (code.findAll none text.toList).map (matchText text.toList) =
      texts.map fun cs => Raw.string (String.ofList cs)) : ∃ v u,
    (Library.run .matchPattern this args).run serve fuel s = .done v u ∧ u.GivesTexts v texts := by
  have hpattern : (toRegExp (.object o)).run serve fuel s = .done (⟨o.id, .plain⟩, code) s := by
    unfold toRegExp patternOf
    simp only [run_bind, run_object, h.object.pattern, run_pure]
  have htext : (stringOf (.string text)).run serve fuel s = .done text s := rfl
  have hflag : (patternFlag ⟨o.id, .plain⟩ "global").run serve fuel s = .done true s :=
    run_patternFlag_global h
  change ∃ v u, (lift matchAll this args).run serve fuel s = .done v u ∧ _
  unfold lift matchAll
  rw [run_bind, hthis, run_bind_of_done htext, rawAt_map_raw, harg, run_bind_of_done hpattern]
  dsimp only
  rw [run_bind_of_done hflag, if_pos rfl]
  cases hms : code.findAll none text.toList with
  | nil =>
    rw [hms, List.map_nil, eq_comm, List.map_eq_nil_iff] at hmatches
    subst hmatches
    exact ⟨_, _, rfl, .nothing (Value.wrap_raw ..)⟩
  | cons m ms =>
    rw [hms] at hmatches
    have hne : texts ≠ [] := by
      rintro rfl
      cases hmatches
    have hvalues : ((m :: ms).map fun m => (matchText text.toList m : Value)) =
        texts.map fun cs => (Raw.string (String.ofList cs) : Value) := by
      simpa [List.map_map, Function.comp_def] using congrArg (List.map Value.plain) hmatches
    have hlength : (texts.map fun cs => (Raw.string (String.ofList cs) : Value)).length ≤
        maxLength := by simpa using hcount
    have hholds := Heap.holds_arrayOf (some s.control.realm.arrayProto) s.control.pc hlength
    refine ⟨_, _, rfl, .array hne (Value.wrap_raw ..) ?_⟩
    rw [List.map_map] at hholds
    rw [hvalues]
    exact Heap.get_push_size.symm ▸ hholds

end

/-! ## Scans -/

/-- Calls of an action one after the other. Each of them gives the array of the next match, and
leaves the pattern object with the number of characters that have been passed. -/
inductive State.Finds (serve : Service) (fuel : Nat) (p : Action Value) (id : Nat) :
    State → List Pattern.Hit → State → Prop where
  | none (s : State) : Finds serve fuel p id s [] s
  | next {s t u : State} {v : Value} {a : Ref} {hit : Pattern.Hit} {hits : List Pattern.Hit}
    (hrun : p.run serve fuel s = .done v t) (harray : v.raw = .object a)
    (hshows : (t.store.heap.get a.id).Shows hit)
    (hindex : (t.store.heap.get id).lastIndex? = some (Raw.ofNat hit.passed.length))
    (hrest : Finds serve fuel p id t hits u) : Finds serve fuel p id s (hit :: hits) u

/-- A call that gives null and leaves the pattern object as at the start. -/
def State.FindsNothing (serve : Service) (fuel : Nat) (p : Action Value) (id : Nat) (s : State) :
    Prop :=
  ∃ v t, p.run serve fuel s = .done v t ∧ v.raw = .null ∧
    (t.store.heap.get id).lastIndex? = some (Raw.ofNat 0)

section

variable {serve : Service} {fuel : Nat} {s t u : State} {p : Action Value} {id n : Nat}
  {code : Pattern.Code} {hits hits' : List Pattern.Hit}

lemma State.Finds.append (h : s.Finds serve fuel p id hits t)
    (h' : t.Finds serve fuel p id hits' u) :
    s.Finds serve fuel p id (hits ++ hits') u := by
  induction h with
  | none => exact h'
  | next hrun harray hshows hindex _ ih => exact .next hrun harray hshows hindex (ih h')

lemma Object.Resumes.lastIndex?_eq {o : Object} (h : o.Resumes code n) :
    o.lastIndex? = some (Raw.ofNat n) := by
  obtain ⟨q, hq, -, hraw⟩ := h.lastIndex
  rw [lastIndex?, hq, Option.map_some, hraw]

lemma Object.Resumes.sound {o : Object} (h : o.Resumes code n) : code.Sound := by
  obtain ⟨source, hcompile⟩ := h.compiled
  exact Pattern.sound_of_compile hcompile

end

section

variable (serve : Service) (fuel : Nat) {o : Ref} {code : Pattern.Code} {text : String}
  {this : Value} {args : List Value} {done rest : List Char} {hits : List Pattern.Hit}
    {stalls : Bool}
  (hthis : this.raw = .object o) (harg : (argAt args 0).raw = .string text)
  (hlength : text.toList.length < 2 ^ 31)
include hthis harg hlength

/-- One call of `exec`. -/
lemma finds_hit {s : State} (h : s.Resumes o.id code done.length)
    (htext : text.toList = done ++ rest)
    {pre matched post : List Char} {m : Pattern.Slots} (hsome : code.find rest = some m)
    (hcuts : m.Cuts 0 pre matched post rest) : ∃ t,
    s.Finds serve fuel (Library.run .exec this args) o.id [⟨done ++ pre, matched, post⟩] t ∧
      t.Resumes o.id code (Pattern.Hit.mk (done ++ pre) matched post).passed.length := by
  obtain ⟨t, hrun, hshows, hresumes⟩ := run_execute_hit (o := ⟨o.id, .plain⟩) serve fuel h
    htext hlength hsome hcuts
  exact ⟨t, .next (run_exec hthis harg h hrun)
    (Value.wrap_raw ..) hshows hresumes.object.lastIndex?_eq
    (.none t), hresumes⟩

lemma findsNothing {s : State} (h : s.Resumes o.id code done.length)
    (htext : text.toList = done ++ rest) (hnone : code.find rest = none) :
    s.FindsNothing serve fuel (Library.run .exec this args) o.id := by
  obtain ⟨t, hrun, hresumes⟩ := run_execute_miss (o := ⟨o.id, .plain⟩) serve fuel h htext
    hlength hnone
  exact ⟨_, t, run_exec hthis harg h hrun, Value.wrap_raw .., hresumes.object.lastIndex?_eq⟩

/-- An empty match at the end of the text leaves the pattern object as it is. -/
lemma finds_end {s : State} (h : s.Resumes o.id code text.toList.length) {m : Pattern.Slots}
    (hsome : code.find [] = some m) : ∃ t,
    s.Finds serve fuel (Library.run .exec this args) o.id [⟨text.toList, [], []⟩] t ∧
      t.Resumes o.id code text.toList.length := by
  obtain ⟨pre, matched, post, hcuts⟩ := Pattern.cuts_search h.object.sound hsome
  obtain ⟨rfl, rfl, rfl⟩ : pre = [] ∧ matched = [] ∧ post = [] := by simpa using hcuts.whole
  obtain ⟨t, hfinds, hresumes⟩ := finds_hit serve fuel hthis harg hlength h
    (List.append_nil _).symm hsome hcuts
  rw [List.append_nil] at hfinds hresumes
  exact ⟨t, hfinds, by simpa [Pattern.Hit.passed] using hresumes⟩

/-- So it is found again and again. -/
lemma finds_replicate {m : Pattern.Slots} (hsome : code.find [] = some m) (n : Nat) :
    ∀ {s : State}, s.Resumes o.id code text.toList.length → ∃ t,
      s.Finds serve fuel (Library.run .exec this args) o.id
        (List.replicate n ⟨text.toList, [], []⟩) t := by
  induction n with
  | zero => exact fun _ => ⟨_, .none _⟩
  | succ n ih =>
    intro s h
    obtain ⟨t, hfinds, hresumes⟩ := finds_end serve fuel hthis harg hlength h hsome
    obtain ⟨u, hrest⟩ := ih hresumes
    exact ⟨u, hfinds.append hrest⟩

/-- Calls of `exec` follow the scan of the text. By induction on the scan. -/
lemma finds_scan (hscan : code.Scan done rest hits stalls) : ∀ {s : State},
    s.Resumes o.id code done.length → text.toList = done ++ rest → ∃ t,
      s.Finds serve fuel (Library.run .exec this args) o.id hits t ∧
        (stalls = false → t.FindsNothing serve fuel (Library.run .exec this args) o.id) ∧
        (stalls = true → ∀ n, ∃ u, t.Finds serve fuel (Library.run .exec this args) o.id
          (List.replicate n ⟨text.toList, [], []⟩) u) := by
  induction hscan with
  | miss hnone =>
    intro s h htext
    exact ⟨s, .none s, fun _ => findsNothing serve fuel hthis harg hlength h htext hnone,
      Bool.noConfusion⟩
  | stall hsome =>
    intro s h htext
    rw [List.append_nil] at htext
    subst htext
    obtain ⟨t, hfinds, hresumes⟩ := finds_end serve fuel hthis harg hlength h hsome
    exact ⟨t, hfinds, Bool.noConfusion, fun _ n =>
      finds_replicate serve fuel hthis harg hlength hsome n hresumes⟩
  | @hit done _ _ _ _ _ _ _ _ hsome hcuts _ ih =>
    intro s h htext
    obtain ⟨t, hfinds, hresumes⟩ := finds_hit serve fuel hthis harg hlength h htext hsome hcuts
    have hleft := (hcuts.text_eq done).trans (Pattern.Hit.passed_append_rest _).symm
    obtain ⟨u, hrest, hends⟩ := ih hresumes (htext.trans hleft)
    exact ⟨u, hfinds.append hrest, hends⟩

end

/-! ## The contract -/

/-- What calls of `exec` on a text and a call of `match` do, where `hits` are the matches that are
found in what is left of the text one after the other. -/
structure State.SearchContract (s : State) (serve : Service) (fuel : Nat) (exec all : Action Value)
    (o : Ref) (text : String) (code : Pattern.Code) (hits : List Pattern.Hit) (stalls : Bool) :
    Prop where
  /-- The matches are in the text, and there are at most one more than characters. -/
  whole : ∀ hit ∈ hits, hit.text = text.toList
  few : hits.length ≤ text.toList.length + 1
  /-- The calls of `exec` find the matches. Then they give null, unless the scan stalls. -/
  ends : stalls = false → ∃ t, s.Finds serve fuel exec o.id hits t ∧
    t.FindsNothing serve fuel exec o.id
  /-- If it does, each call finds the empty match at the end of the text. -/
  never : stalls = true → ∀ n, ∃ t,
    s.Finds serve fuel exec o.id (hits ++ List.replicate n ⟨text.toList, [], []⟩) t
  /-- If the pattern does not look back and no match is empty, the scan does not stall, and `match`
  gives the same matches. -/
  agrees : code.Blind → (∀ hit ∈ hits, hit.matched ≠ []) → stalls = false ∧
    ∃ v u, all.run serve fuel s = .done v u ∧ u.GivesTexts v (hits.map Pattern.Hit.matched)

/-- Calls of `exec` on a text, by a global pattern object whose search starts at the front, follow
the scan of the text. -/
theorem repeated_exec_scans (serve : Service) (fuel : Nat) {s : State} {o : Ref}
    {code : Pattern.Code} {text : String} {this this' : Value} {args args' : List Value}
    (h : s.Resumes o.id code 0) (hlength : text.toList.length < 2 ^ 31)
    (hthis : this.raw = .object o) (harg : (argAt args 0).raw = .string text)
    (hthis' : this'.raw = .string text) (harg' : (argAt args' 0).raw = .object o) :
    ∃ hits stalls, code.Scan [] text.toList hits stalls ∧
      s.SearchContract serve fuel (Library.run .exec this args)
        (Library.run .matchPattern this' args')
        o text code hits stalls := by
  obtain ⟨hits, stalls, hscan⟩ := h.object.sound.exists_scan [] text.toList
  obtain ⟨t, hfinds, hends, hstalls⟩ := finds_scan serve fuel hthis harg hlength
    hscan h rfl
  have hfew := hscan.length_le
  refine ⟨hits, stalls, hscan, hscan.text_eq, hfew, fun hstalls => ⟨t, hfinds, hends hstalls⟩,
    fun hstalls' n => ?_, fun hblind hne => ⟨hscan.stalls_eq_false hne, ?_⟩⟩
  · obtain ⟨u, hrest⟩ := hstalls hstalls' n
    exact ⟨u, hfinds.append hrest⟩
  · refine run_matchPattern hthis' harg' h ?_ (map_matchText_eq (hscan.findAll_eq hblind hne)
      hscan.text_eq)
    rw [List.length_map]
    exact Nat.le_trans hfew (Nat.le_trans hlength (by decide))

/-- A new pattern object searches from the front. -/
lemma run_newRegExp (serve : Service) (fuel : Nat) (s : State) {pattern flags options : String}
    {code : Pattern.Code} (hoptions : patternOptions flags.toList = .ok options)
    (hcompile : Pattern.compile (if options = "" then pattern
      else "(?" ++ options ++ ")" ++ pattern) =
      .ok code) (hflags : flags.toList.contains 'g' = true) : ∃ t,
    (newRegExp pattern flags).run serve fuel s = .done ⟨s.store.heap.size, .plain⟩ t ∧
      t.Resumes s.store.heap.size code 0 := by
  unfold newRegExp
  rw [hoptions]
  dsimp only
  rw [hcompile]
  refine ⟨s.withHeap (s.store.heap.push _), rfl, ?_, ?_⟩ <;>
    rw [State.heap_withHeap, Heap.get_push_size]
  · exact ⟨rfl, ⟨_, hcompile⟩,
      ⟨{ Property.hiddenData (Raw.bool (flags.toList.contains 'g')) with readOnly := true },
        by simp [Object.find?_define], rfl, hflags⟩,
      ⟨.hiddenData (Raw.number 0.0), by simp [Object.find?_define], ⟨rfl, rfl⟩, rfl⟩⟩
  · exact Label.leq_refl _

/-- A pattern that does not look back, in a text of more bytes than characters. -/
theorem accents_found_by_exec : ∃ o s code hits stalls,
    (newRegExp "é" "g").run (machine .none 50 50) 50 (Session.fresh .standard) = .done o s ∧
      code.Blind ∧ s.Resumes o.id code 0 ∧ code.Scan [] "aéé".toList hits stalls ∧
      s.SearchContract (machine .none 50 50) 50
        (Library.run .exec (Raw.object o) [(Raw.string "aéé" : Value)])
        (Library.run .matchPattern (Raw.string "aéé") [(Raw.object o : Value)]) o "aéé" code hits
        stalls := by
  have hlooks : (Pattern.compile "é").toOption.any (fun code => decide code.Blind) = true := by
    decide +kernel
  obtain ⟨code, hcode, hblind⟩ := (Option.any_eq_true _ _).1 hlooks
  have hcompile : Pattern.compile "é" = .ok code := by
    cases h : Pattern.compile "é" <;> rw [h] at hcode <;> cases hcode
    rfl
  have hlength : "aéé".toList.length < 2 ^ 31 := by decide
  -- the pattern object can be made in any state
  generalize Session.fresh .standard = start
  obtain ⟨s, hrun, hresumes⟩ := run_newRegExp (machine .none 50 50) 50 start
    (show patternOptions "g".toList = .ok "" from rfl) hcompile rfl
  let o : Ref := ⟨start.store.heap.size, .plain⟩
  have htext : (argAt [(Raw.string "aéé" : Value)] 0).raw = .string "aéé" := rfl
  have hpattern : (argAt [(Raw.object o : Value)] 0).raw = .object o := rfl
  obtain ⟨hits, stalls, hscan, hcontract⟩ := repeated_exec_scans (machine .none 50 50) 50
    (o := o) hresumes hlength (Value.plain_raw _) htext (Value.plain_raw _) hpattern
  exact ⟨o, s, code, hits, stalls, hrun, of_decide_eq_true hblind, hresumes, hscan, hcontract⟩

/-- The texts that at most `n` calls of `exec` give. -/
def execTexts (o : Ref) (text : String) : Nat → Action (List String)
  | 0 => return []
  | n + 1 => do
    match (← Library.run .exec (Raw.object o) [Raw.string text]).raw with
    | .object a =>
      let matched ← stringOf (← getProperty a (indexName 0)).raw
      return matched :: (← execTexts o text n)
    | _ => return []

/-- The texts that `match` gives. -/
def matchTexts (o : Ref) (text : String) : Action (List String) := do
  match (← Library.run .matchPattern (Raw.string text) [Raw.object o]).raw with
  | .object a => (← elementsOf a).mapM fun v => stringOf v.raw
  | _ => return []

/-- The texts of `exec` and of `match`, for a pattern that only matches at the front of a text. -/
def anchoredSearch : Action (List String × List String) := do
  let o ← newRegExp "^a" "g"
  return (← execTexts o "aa" 3, ← matchTexts o "aa")

/-- The result of a run. -/
def Outcome.result? {α : Type} : Outcome α → Option α
  | .done a _ => some a
  | _ => none

/-- Calls of `exec` find the letter twice: the second search starts with it. -/
theorem anchored_exec_differs_from_match :
    (anchoredSearch.run (machine .none 50 50) 50 (Session.fresh .standard)).result? =
      some (["a", "a"], ["a"]) := by
  decide +kernel

end Clearance
