/-
# Matches and where they are

Patterns are searched for in bytes, but all places that a search remembers lie between two
characters. So a match of a compiled pattern cuts a text into three: what comes before, what is
matched, and what comes after (`cuts_search`). The machine of a pattern sees to this: it accepts
nowhere but at its first instruction, which is only reached by remembering the end of the match.

A search goes by the characters around a place. Many patterns only look at the one behind it, and
for them a search does not depend on what has gone before (`Code.Blind.search_eq`). Then a search
for all matches finds those of searches in what is left of the text, one after the other, as long as
none of them is empty (`Code.Scan.findAll_eq`).
-/
import Clearance.Library.RegExp
import Mathlib.Tactic.Common

namespace Clearance

/-! ## Bytes and characters -/

namespace Text

lemma byteSize_append (xs ys : List Char) : byteSize (xs ++ ys) = byteSize xs + byteSize ys := by
  induction xs with
  | nil => exact (Nat.zero_add _).symm
  | cons c cs ih => rw [List.cons_append, byteSize, byteSize, ih, Nat.add_assoc]

lemma byteSize_pos {xs : List Char} (h : xs ≠ []) : 0 < byteSize xs := by
  cases xs with
  | nil => exact absurd rfl h
  | cons c cs => exact Nat.add_pos_left c.utf8Size_pos _

lemma dropBytes_byteSize (xs ys : List Char) : dropBytes (byteSize xs) (xs ++ ys) = ys := by
  induction xs with
  | nil => cases ys <;> rfl
  | cons c cs ih =>
    have hpos := c.utf8Size_pos
    rw [List.cons_append, byteSize, dropBytes, if_neg (by omega), Nat.add_sub_cancel_left, ih]

lemma takeBytes_byteSize (xs ys : List Char) : takeBytes (byteSize xs) (xs ++ ys) = xs := by
  induction xs with
  | nil => cases ys <;> rfl
  | cons c cs ih =>
    have hpos := c.utf8Size_pos
    rw [List.cons_append, byteSize, takeBytes, if_neg (by omega), Nat.add_sub_cancel_left, ih]

lemma sliceBytes_byteSize (xs ys zs : List Char) :
    sliceBytes (byteSize xs) (byteSize (xs ++ ys)) (xs ++ ys ++ zs) = ys := by
  rw [sliceBytes, byteSize_append, Nat.add_sub_cancel_left, List.append_assoc, dropBytes_byteSize,
    takeBytes_byteSize]

lemma charsBefore_byteSize (xs ys : List Char) :
    charsBefore (byteSize xs) (xs ++ ys) = xs.length := by
  rw [charsBefore, takeBytes_byteSize]

lemma byteOffset_length (xs ys : List Char) :
    byteOffset (xs ++ ys) (xs.length : Int) = byteSize xs := by
  rw [byteOffset, Int.toNat_natCast, List.take_left]

end Text

namespace Pattern

open Text

lemma passBytes_byteSize (xs ys : List Char) (before : Option Char) :
    passBytes (byteSize xs) before (xs ++ ys) = (xs.getLast?.or before, ys) := by
  induction xs generalizing before with
  | nil => cases ys <;> rfl
  | cons c cs ih =>
    have hpos := c.utf8Size_pos
    rw [List.cons_append, byteSize, passBytes, if_neg (by omega), Nat.add_sub_cancel_left, ih]
    cases h : cs.getLast? <;> simp [List.getLast?_cons, h]

/-! ## The layout of compiled patterns -/

/-- Where an instruction goes on. -/
def Instr.targets : Instr → List Nat
  | .accept | .fail => []
  | .chars _ next | .edge _ next | .save _ next => [next]
  | .split first second => [first, second]

/-- Code in which the first instruction is the only one that accepts, and is only reached by
remembering the end of the match. -/
structure Proper (code : Array Instr) : Prop where
  nonempty : code.size ≠ 0
  accept : ∀ pc : Nat, code[pc]? = some .accept → pc = 0
  first : ∀ (pc : Nat) (i : Instr), code[pc]? = some i → 0 ∈ i.targets → i = .save 1 0

namespace Proper

variable {code : Array Instr} {i : Instr}

lemma push (h : Proper code) (haccept : i ≠ .accept) (hfirst : 0 ∈ i.targets → i = .save 1 0) :
    Proper (code.push i) := by
  refine ⟨by simp, fun pc hpc => ?_, fun pc j hpc hj => ?_⟩
  all_goals
    rw [Array.getElem?_push] at hpc
    split_ifs at hpc with hlast
  · exact absurd (Option.some.inj hpc) haccept
  · exact h.accept pc hpc
  · obtain rfl := Option.some.inj hpc
    exact hfirst hj
  · exact h.first pc j hpc hj

lemma setIfInBounds (h : Proper code) (slot : Nat) (haccept : i ≠ .accept)
    (hfirst : 0 ∉ i.targets) : Proper (code.setIfInBounds slot i) := by
  refine ⟨by simpa using h.nonempty, fun pc hpc => ?_, fun pc j hpc hj => ?_⟩
  all_goals
    rw [Array.getElem?_setIfInBounds] at hpc
    split_ifs at hpc with hslot hsize
  · exact absurd (Option.some.inj hpc) haccept
  · exact h.accept pc hpc
  · obtain rfl := Option.some.inj hpc
    exact absurd hj hfirst
  · exact h.first pc j hpc hj

end Proper

/-- A piece of code that leaves code proper, and starts elsewhere than at the first instruction. -/
def Emit.Proper (e : Emit) : Prop :=
  ∀ next code, next ≠ 0 → Pattern.Proper code → (e next code).1 ≠ 0 ∧ Pattern.Proper (e next code).2

namespace Emit

variable {e : Emit}

lemma proper_emit {i : Nat → Instr} (haccept : ∀ next, i next ≠ .accept)
    (hfirst : ∀ next, next ≠ 0 → 0 ∉ (i next).targets) :
    Emit.Proper fun next code => Pattern.emit (i next) code := fun next _ hnext h =>
  ⟨h.nonempty, h.push (haccept next) fun h0 => absurd h0 (hfirst next hnext)⟩

lemma proper_skip : Emit.Proper fun next code => (next, code) := fun _ _ hnext h => ⟨hnext, h⟩

lemma not_mem_targets_fork (lazy : Bool) {body out : Nat} (hbody : body ≠ 0) (hout : out ≠ 0) :
    fork lazy body out ≠ .accept ∧ 0 ∉ (fork lazy body out).targets := by
  unfold fork
  split_ifs <;> simp [Instr.targets, hbody.symm, hout.symm]

lemma Proper.many (h : e.Proper) (lazy : Bool) : Emit.Proper (emitMany lazy e) := by
  intro next code hnext hcode
  have hfail : Pattern.Proper (code.push .fail) := hcode.push (by simp) (by simp [Instr.targets])
  obtain ⟨hentry, hbody⟩ := h code.size (code.push .fail) hcode.nonempty hfail
  obtain ⟨haccept, hfirst⟩ := not_mem_targets_fork lazy hentry hnext
  exact ⟨hentry, hbody.setIfInBounds _ haccept hfirst⟩

lemma Proper.maybe (h : e.Proper) (lazy : Bool) : Emit.Proper (emitMaybe lazy e) := by
  intro next code hnext hcode
  obtain ⟨hentry, hbody⟩ := h next code hnext hcode
  obtain ⟨haccept, hfirst⟩ := not_mem_targets_fork lazy hentry hnext
  exact ⟨hbody.nonempty, hbody.push haccept fun h0 => absurd h0 hfirst⟩

lemma Proper.any (h : e.Proper) (nullable lazy : Bool) : Emit.Proper (emitAny nullable lazy e) := by
  intro next code hnext hcode
  unfold emitAny
  split_ifs
  · exact (h.many lazy).maybe lazy next code hnext hcode
  · have hfail : Pattern.Proper (code.push .fail) := hcode.push (by simp) (by simp [Instr.targets])
    obtain ⟨hentry, hbody⟩ := h code.size (code.push .fail) hcode.nonempty hfail
    obtain ⟨haccept, hfirst⟩ := not_mem_targets_fork lazy hentry hnext
    exact ⟨hcode.nonempty, hbody.setIfInBounds _ haccept hfirst⟩

lemma Proper.times (h : e.Proper) (n : Nat) : Emit.Proper (emitTimes e n) := by
  induction n with
  | zero => exact proper_skip
  | succ n ih =>
    intro next code hnext hcode
    obtain ⟨hentry, hrest⟩ := ih next code hnext hcode
    exact h _ _ hentry hrest

lemma Proper.upTo (h : e.Proper) (lazy : Bool) (n : Nat) : Emit.Proper (emitUpTo lazy e n) := by
  induction n with
  | zero => exact proper_skip
  | succ n ih =>
    intro next code hnext hcode
    obtain ⟨hrest, hcode'⟩ := ih next code hnext hcode
    obtain ⟨hentry, hbody⟩ := h _ _ hrest hcode'
    obtain ⟨haccept, hfirst⟩ := not_mem_targets_fork lazy hentry hnext
    exact ⟨hbody.nonempty, hbody.push haccept fun h0 => absurd h0 hfirst⟩

lemma proper_literal (folds : Bool) (codes : List Nat) : Emit.Proper (emitLiteral folds codes) := by
  induction codes with
  | nil => exact proper_skip
  | cons n ns ih =>
    intro next code hnext hcode
    obtain ⟨hentry, hrest⟩ := ih next code hnext hcode
    exact proper_emit (i := fun next => .chars (.single folds n) next) (by simp)
      (fun _ h => by simpa [Instr.targets] using h.symm) _ _ hentry hrest

end Emit

mutual

/-- By induction on the pattern. -/
theorem Node.proper_emit : ∀ n : Node, Emit.Proper n.emit
  | .never => Emit.proper_emit (by simp) (by simp [Instr.targets])
  | .empty => Emit.proper_skip
  | .literal folds codes => Emit.proper_literal folds codes.toList
  | .chars _ | .notNewline | .anyChar | .edge _ =>
    Emit.proper_emit (by simp) fun _ h => by simpa [Instr.targets] using h.symm
  | .capture i body => by
    intro next code hnext hcode
    have hstop := hcode.push (i := .save (2 * i + 1) next) (by simp)
      fun h0 => absurd h0 (by simpa [Instr.targets] using hnext.symm)
    obtain ⟨hentry, hbody⟩ := Node.proper_emit body _ _ hcode.nonempty hstop
    exact Emit.proper_emit (i := fun next => .save (2 * i) next) (by simp)
      (fun _ h => by simpa [Instr.targets] using h.symm) _ _ hentry hbody
  | .repeated rounds lazy body => by
    have hbody := Node.proper_emit body
    intro next code hnext hcode
    unfold Node.emit
    split
    · split_ifs
      · exact hbody.any _ _ next code hnext hcode
      · obtain ⟨hentry, hmany⟩ := hbody.many lazy next code hnext hcode
        exact hbody.times _ _ _ hentry hmany
    · obtain ⟨hentry, hrest⟩ := hbody.upTo lazy _ next code hnext hcode
      exact hbody.times _ _ _ hentry hrest
  | .sequence items => Node.proper_emitAll items
  | .choice items => Node.proper_emitChoice items

theorem Node.proper_emitAll : ∀ ns : List Node, Emit.Proper (emitAll ns)
  | [] => Emit.proper_skip
  | n :: ns => by
    intro next code hnext hcode
    obtain ⟨hentry, hrest⟩ := Node.proper_emitAll ns next code hnext hcode
    exact Node.proper_emit n _ _ hentry hrest

theorem Node.proper_emitChoice : ∀ ns : List Node, Emit.Proper (emitChoice ns)
  | [] => Emit.proper_emit (i := fun _ => .fail) (by simp) (by simp [Instr.targets])
  | [n] => Node.proper_emit n
  | n :: m :: ns => by
    intro next code hnext hcode
    obtain ⟨hother, hrest⟩ := Node.proper_emitChoice (m :: ns) next code hnext hcode
    obtain ⟨hentry, hboth⟩ := Node.proper_emit n next _ hnext hrest
    exact Emit.proper_emit (i := fun _ => .split _ _) (by simp)
      (fun _ _ => by simpa [Instr.targets] using ⟨hentry.symm, hother.symm⟩) next _ hnext hboth

end

/-- The code of a pattern: it starts by remembering the start of the match. -/
structure Code.Sound (code : Code) : Prop where
  proper : Proper code.instrs
  start : ∃ entry, code.instrs[code.start]? = some (.save 0 entry)
  start_ne : code.start ≠ 0

lemma Node.sound_compile (n : Node) (text : String) (captures : Nat) :
    (n.compile text captures).Sound := by
  have haccept : Proper #[.accept] := by
    refine ⟨by simp, fun pc hpc => ?_, fun pc i hpc hi => ?_⟩ <;>
      rcases pc with _ | pc
    · rfl
    · simp at hpc
    · obtain rfl := Option.some.inj hpc
      simp [Instr.targets] at hi
    · simp at hpc
  have hstop : Proper (#[Instr.accept].push (.save 1 0)) := haccept.push (by simp) fun _ => rfl
  obtain ⟨hentry, hbody⟩ := Node.proper_emit n 1 _ (by decide) hstop
  refine ⟨hbody.push (by simp) fun h0 => absurd h0 (by simpa [Instr.targets] using hentry.symm), ?_,
    hbody.nonempty⟩
  exact ⟨_, Array.getElem?_push_size⟩

lemma sound_of_compile {text : String} {code : Code} (h : compile text = .ok code) :
    code.Sound := by
  unfold compile at h
  cases hread : read text with
  | error e => rw [hread] at h; cases h
  | ok r =>
    rw [hread] at h
    cases h
    exact Node.sound_compile ..

/-! ## Steps of searches -/

/-- The ways that a search goes on with at a place: a new one starts unless a match has been
found. -/
def Code.started (code : Code) (here : Place) (r : Reach) : Option Slots → Reach
  | none => follow code.instrs here (code.instrs.size + 1) code.start
      (Array.replicate (2 * (code.captures + 1)) none) r
  | some _ => r

/-- The place behind the character `c`. -/
def Place.over (here : Place) (c : Char) (cs : List Char) : Place :=
  ⟨here.stamp + 1, here.offset + c.utf8Size, some c, cs.head?⟩

section

variable (code : Code) (here : Place) (r : Reach) (best : Option Slots)

lemma searchFrom_nil : searchFrom code [] here r best =
    if ((code.started here r best).threads.isEmpty && best.isSome) = true then best
    else (advance code.instrs none here (code.started here r best).threads.toList
      ⟨#[], (code.started here r best).marks⟩ best).2 := by
  cases best <;> rfl

lemma searchFrom_cons (c : Char) (cs : List Char) : searchFrom code (c :: cs) here r best =
    if ((code.started here r best).threads.isEmpty && best.isSome) = true then best
    else
      let moved := advance code.instrs (some c) (here.over c cs)
        (code.started here r best).threads.toList ⟨#[], (code.started here r best).marks⟩ best
      searchFrom code cs (here.over c cs) moved.1 moved.2 := by
  cases best <;> rfl

end

/-! ## What matches remember -/

/-- The offset of a place that has been passed, or of the current one. The passed characters start
at the offset `base`. -/
def Passed (base : Nat) (done : List Char) (offset : Nat) : Prop :=
  ∃ pre post, done = pre ++ post ∧ offset = base + byteSize pre

lemma Passed.here (base : Nat) (done : List Char) : Passed base done (base + byteSize done) :=
  ⟨done, [], (List.append_nil done).symm, rfl⟩

lemma Passed.step {base : Nat} {done : List Char} {offset : Nat} (h : Passed base done offset)
    (c : Char) : Passed base (done ++ [c]) offset := by
  obtain ⟨pre, post, rfl, rfl⟩ := h
  exact ⟨pre, post ++ [c], by simp, rfl⟩

/-- What a way to match remembers: the start of the match, and at the accepting instruction its end,
which is the current place. -/
structure Remembers (code : Code) (base : Nat) (done : List Char) (pc : Nat) (slots : Slots) :
    Prop where
  size : 2 ≤ slots.size
  start : pc ≠ code.start → ∃ a, slots[0]? = some (some a) ∧ Passed base done a
  stop : pc = 0 → slots[1]? = some (some (base + byteSize done))

/-- The slots of a match cut a text into three: what comes before, what is matched, and what comes
after. -/
structure Slots.Cuts (m : Slots) (base : Nat) (pre matched post text : List Char) : Prop where
  whole : text = pre ++ matched ++ post
  start : m[0]? = some (some (base + byteSize pre))
  stop : m[1]? = some (some (base + byteSize (pre ++ matched)))

lemma Slots.Cuts.range_eq {m : Slots} {base : Nat} {pre matched post text : List Char}
    (h : m.Cuts base pre matched post text) :
    m.range = (base + byteSize pre, base + byteSize (pre ++ matched)) := by
  rw [Slots.range, h.start, h.stop]
  rfl

/-- All ways that have been found remember where they started. -/
def Reach.Remembers (code : Code) (base : Nat) (done : List Char) (r : Reach) : Prop :=
  ∀ t ∈ r.threads, Pattern.Remembers code base done t.pc t.slots ∧ t.pc ≠ code.start

lemma Reach.Remembers.nil (code : Code) (base : Nat) (done : List Char) (marks : Array Nat) :
    Reach.Remembers code base done ⟨#[], marks⟩ := fun t ht => absurd ht (Array.not_mem_empty t)

section

variable {code : Code} (hsound : code.Sound) {base : Nat} {done : List Char}
include hsound

/-- By induction on the length of the way. -/
lemma remembers_follow {here : Place} (hhere : here.offset = base + byteSize done) (fuel pc : Nat)
    (slots : Slots) (r : Reach) (hslots : Remembers code base done pc slots)
    (hr : r.Remembers code base done) :
    (follow code.instrs here fuel pc slots r).Remembers code base done := by
  induction fuel generalizing pc slots r with
  | zero => exact hr
  | succ fuel ih =>
    obtain ⟨entry, hstart⟩ := hsound.start
    unfold follow
    split_ifs with hmarked
    · exact hr
    dsimp only
    -- an instruction that does not remember anything is not the start
    have hother : ∀ i, code.instrs[pc]? = some i → (∀ slot next, i ≠ .save slot next) →
        pc ≠ code.start ∧ 0 ∉ i.targets := by
      refine fun i hi hsave => ⟨?_, fun h0 => hsave _ _ (hsound.proper.first pc i hi h0)⟩
      rintro rfl
      exact hsave 0 entry (Option.some.inj (hi.symm.trans hstart))
    have hmove : ∀ next, next ≠ 0 → pc ≠ code.start → Remembers code base done next slots :=
      fun next hnext hpc => ⟨hslots.size, fun _ => hslots.start hpc, fun h0 => absurd h0 hnext⟩
    have hpush : ∀ marks, pc ≠ code.start →
        Reach.Remembers code base done ⟨r.threads.push ⟨pc, slots⟩, marks⟩ := by
      intro marks hpc t ht
      rcases Array.mem_push.1 ht with ht | rfl
      · exact hr t ht
      · exact ⟨hslots, hpc⟩
    split
    · exact hr
    · exact hr
    · rename_i hi
      exact hpush _ (hother _ hi (by simp)).1
    · rename_i hi
      exact hpush _ (hother _ hi (by simp)).1
    · rename_i e next hi
      obtain ⟨hpc, htargets⟩ := hother _ hi (by simp)
      split_ifs
      · exact ih _ _ _ (hmove next (by simpa [Instr.targets, eq_comm] using htargets) hpc) hr
      · exact hr
    · rename_i slot next hi
      refine ih _ _ _ ⟨by simpa using hslots.size, fun _ => ?_, fun hnext => ?_⟩ hr
      · rw [Array.getElem?_setIfInBounds]
        split_ifs with hslot hsize
        · exact ⟨_, rfl, hhere ▸ .here base done⟩
        · exact absurd (hslot ▸ Nat.lt_of_lt_of_le Nat.zero_lt_two hslots.size) hsize
        · refine hslots.start fun hpc => hslot ?_
          rw [hpc, hstart] at hi
          cases hi
          rfl
      · have hsave := hsound.proper.first pc _ hi (by simp [Instr.targets, hnext])
        cases hsave
        rw [Array.getElem?_setIfInBounds, if_pos rfl, if_pos (show 1 < slots.size from hslots.size),
          hhere]
    · rename_i first second hi
      obtain ⟨hpc, htargets⟩ := hother _ hi (by simp)
      simp only [Instr.targets, List.mem_cons, List.not_mem_nil, or_false, not_or] at htargets
      exact ih _ _ _ (hmove second (Ne.symm htargets.2) hpc)
        (ih _ _ _ (hmove first (Ne.symm htargets.1) hpc) hr)

/-- A match that ends here has started at a place that has been passed. -/
lemma Remembers.cuts {slots : Slots} (h : Remembers code base done 0 slots) (rest : List Char) :
    ∃ pre matched, slots.Cuts base pre matched rest (done ++ rest) := by
  obtain ⟨a, ha, pre, matched, rfl, rfl⟩ := h.start hsound.start_ne.symm
  exact ⟨pre, matched, rfl, ha, h.stop rfl⟩

/-- Moving over a character. The best match ends at the place before it. -/
lemma remembers_advance {c : Option Char} (next : Place) {rest : List Char}
    (hnext : ∀ c' ∈ c, next.offset = base + byteSize (done ++ [c'])) (ts : List Thread) (r : Reach)
    (best : Option Slots) (hts : ∀ t ∈ ts, Remembers code base done t.pc t.slots ∧
      t.pc ≠ code.start)
    (hr : ∀ c' ∈ c, r.Remembers code base (done ++ [c']))
    (hbest : ∀ m ∈ best, ∃ pre matched post, m.Cuts base pre matched post (done ++ rest)) :
    (∀ c' ∈ c, (advance code.instrs c next ts r best).1.Remembers code base (done ++ [c'])) ∧
      ∀ m ∈ (advance code.instrs c next ts r best).2,
        ∃ pre matched post, m.Cuts base pre matched post (done ++ rest) := by
  induction ts generalizing r best with
  | nil => exact ⟨hr, hbest⟩
  | cons t ts ih =>
    obtain ⟨⟨ht, htpc⟩, hts⟩ := List.forall_mem_cons.1 hts
    unfold advance
    split
    · rename_i hi
      refine ⟨hr, fun m hm => ?_⟩
      obtain rfl := Option.some.inj hm
      have hzero := hsound.proper.accept _ hi
      rw [hzero] at ht
      obtain ⟨pre, matched, hcuts⟩ := ht.cuts hsound rest
      exact ⟨pre, matched, rest, hcuts⟩
    · rename_i set target hi
      cases c with
      | none => exact ih _ _ hts (by rintro _ ⟨⟩) hbest
      | some c =>
        dsimp only
        split_ifs
        · refine ih _ _ hts (fun c' hc' => ?_) hbest
          obtain rfl := Option.some.inj hc'
          refine remembers_follow hsound (hnext c rfl) _ _ _ _ ⟨ht.size, fun _ => ?_, fun h0 => ?_⟩
            (hr c rfl)
          · obtain ⟨a, ha, hpassed⟩ := ht.start htpc
            exact ⟨a, ha, hpassed.step c⟩
          · have hsave := hsound.proper.first _ _ hi (by simp [Instr.targets, h0])
            cases hsave
        · exact ih _ _ hts hr hbest
    · exact ih _ _ hts hr hbest

lemma remembers_started {here : Place} {r : Reach} (hhere : here.offset = base + byteSize done)
    (best : Option Slots) (hr : r.Remembers code base done) :
    (code.started here r best).Remembers code base done := by
  cases best with
  | none =>
    have hsize : 2 ≤ (Array.replicate (2 * (code.captures + 1)) none : Slots).size := by
      rw [Array.size_replicate]
      omega
    exact remembers_follow hsound hhere _ _ _ _ ⟨hsize, fun h => absurd rfl h, fun h =>
      absurd h hsound.start_ne⟩ hr
  | some m => exact hr

/-- By induction on what is left of the text. -/
lemma cuts_searchFrom (rest : List Char) : ∀ (done : List Char) (here : Place) (r : Reach)
    (best : Option Slots), here.offset = base + byteSize done → r.Remembers code base done →
      (∀ m ∈ best, ∃ pre matched post, m.Cuts base pre matched post (done ++ rest)) →
      ∀ m ∈ searchFrom code rest here r best,
        ∃ pre matched post, m.Cuts base pre matched post (done ++ rest) := by
  induction rest with
  | nil =>
    intro done here r best hhere hr hbest m hm
    rw [searchFrom_nil] at hm
    have hstarts := remembers_started hsound hhere best hr
    split_ifs at hm
    · exact hbest m hm
    · exact (remembers_advance (c := none) hsound here (by rintro _ ⟨⟩) _ _ best
        (fun t ht => hstarts t (Array.mem_toList_iff.1 ht)) (by rintro _ ⟨⟩) hbest).2 m hm
  | cons c cs ih =>
    intro done here r best hhere hr hbest m hm
    rw [searchFrom_cons] at hm
    have hstarts := remembers_started hsound hhere best hr
    split_ifs at hm
    · exact hbest m hm
    · have hnext : ∀ c' ∈ some c, here.offset + c.utf8Size = base + byteSize (done ++ [c']) := by
        rintro c' hc'
        obtain rfl := Option.some.inj hc'
        rw [hhere, byteSize_append, byteSize, byteSize, Nat.add_zero, Nat.add_assoc]
      obtain ⟨hr', hbest'⟩ := remembers_advance (c := some c) hsound (here.over c cs) hnext _ _ best
        (fun t ht => hstarts t (Array.mem_toList_iff.1 ht))
        (fun _ _ => Reach.Remembers.nil code base _ _) hbest
      rw [List.append_cons] at hbest' ⊢
      exact ih _ _ _ _ (hnext c rfl) (hr' c rfl) hbest' m hm

/-- A match lies between characters of the text. -/
lemma cuts_search {before : Option Char} {text : List Char} {m : Slots}
    (h : code.search before text base = some m) :
    ∃ pre matched post, m.Cuts base pre matched post text :=
  cuts_searchFrom hsound text [] _ _ none rfl (.nil code base [] _) (by rintro _ ⟨⟩) m h

end

/-! ## Searches that do not look back -/

/-- Places where the condition depends on what comes after only. -/
def Edge.ahead : Edge → Bool
  | .textEnd | .lineEnd => true
  | .textStart | .lineStart | .word | .notWord => false

lemma Edge.holds_of_ahead {e : Edge} (h : e.ahead = true) (before before' after : Option Char) :
    e.holds before after = e.holds before' after := by
  cases e <;> first | rfl | cases h

/-- An instruction that does not look at the character before a place. -/
def Instr.blind : Instr → Bool
  | .edge e _ => e.ahead
  | _ => true

/-- Code that never looks at the character before a place. -/
def Code.Blind (code : Code) : Prop := ∀ i ∈ code.instrs, i.blind = true

instance (code : Code) : Decidable code.Blind := inferInstanceAs (Decidable (∀ i ∈ code.instrs, _))

/-- The same places, counted from a point that lies `base` bytes before. -/
def Slots.shift (base : Nat) (m : Slots) : Slots := m.map (Option.map (base + ·))

/-- The same ways, at places counted from a point that lies `base` bytes before. -/
def Thread.shift (base : Nat) (t : Thread) : Thread := ⟨t.pc, t.slots.shift base⟩

/-- The same ways, at places counted from a point that lies `base` bytes before. -/
def Reach.shift (base : Nat) (r : Reach) : Reach := ⟨r.threads.map (Thread.shift base), r.marks⟩

lemma Reach.shift_nil (base : Nat) (marks : Array Nat) :
    Reach.shift base ⟨#[], marks⟩ = ⟨#[], marks⟩ := by simp [Reach.shift]

lemma Reach.marks_shift (base : Nat) (r : Reach) : (r.shift base).marks = r.marks := rfl

lemma Reach.isEmpty_shift (base : Nat) (r : Reach) :
    (r.shift base).threads.isEmpty = r.threads.isEmpty := by simp [Reach.shift, Array.isEmpty]

lemma Reach.toList_shift (base : Nat) (r : Reach) :
    (r.shift base).threads.toList = r.threads.toList.map (Thread.shift base) := by
  simp [Reach.shift]

lemma Slots.Cuts.shift {m : Slots} {base : Nat} {pre matched post text : List Char}
    (h : m.Cuts 0 pre matched post text) : (m.shift base).Cuts base pre matched post text :=
  ⟨h.whole, by simp [Slots.shift, h.start], by simp [Slots.shift, h.stop]⟩

lemma Slots.shift_setIfInBounds (base : Nat) (m : Slots) (slot offset : Nat) :
    (m.shift base).setIfInBounds slot (some (base + offset)) =
      Slots.shift base (m.setIfInBounds slot (some offset)) := by
  simp [Slots.shift, Array.map_setIfInBounds]

/-- A place of the rest of a text, as a place of the whole text. -/
structure Place.Shifts (base : Nat) (here here' : Place) : Prop where
  stamp : here'.stamp = here.stamp
  offset : here'.offset = base + here.offset
  after : here'.after = here.after

section

variable {code : Code} (hblind : code.Blind) {base : Nat}
include hblind

/-- By induction on the length of the way. -/
lemma follow_shift {here here' : Place} (hplace : here.Shifts base here') (fuel pc : Nat)
    (slots : Slots) (r : Reach) :
    follow code.instrs here' fuel pc (slots.shift base) (r.shift base) =
      (follow code.instrs here fuel pc slots r).shift base := by
  induction fuel generalizing pc slots r with
  | zero => rfl
  | succ fuel ih =>
    have hmark : ∀ slots' pc', follow code.instrs here' fuel pc' (Slots.shift base slots')
        ⟨r.threads.map (Thread.shift base), r.marks.setIfInBounds pc here.stamp⟩ =
          (follow code.instrs here fuel pc' slots'
            ⟨r.threads, r.marks.setIfInBounds pc here.stamp⟩).shift base :=
      fun slots' pc' => ih pc' slots' ⟨r.threads, r.marks.setIfInBounds pc here.stamp⟩
    by_cases hmarked : r.marks.getD pc here.stamp = here.stamp
    · rw [follow, follow, if_pos hmarked, hplace.stamp]
      exact if_pos hmarked
    have hmarked' : ¬(r.shift base).marks.getD pc here.stamp = here.stamp := hmarked
    rw [follow, follow, if_neg hmarked, hplace.stamp, if_neg hmarked']
    cases hi : code.instrs[pc]? with
    | none => rfl
    | some i =>
      cases i with
      | fail => rfl
      | accept | chars => simp [Reach.shift, Thread.shift]
      | edge e next =>
        have hahead : e.ahead = true := hblind _ (Array.mem_of_getElem? hi)
        dsimp only [Reach.shift]
        rw [hplace.after, Edge.holds_of_ahead hahead here'.before here.before, hmark]
        split_ifs <;> rfl
      | save slot next =>
        dsimp only [Reach.shift]
        rw [hplace.offset, Slots.shift_setIfInBounds, hmark]
        rfl
      | split first second =>
        dsimp only [Reach.shift]
        rw [hmark, ih]
        rfl

lemma advance_shift {c : Option Char} {next next' : Place} (hplace : next.Shifts base next')
    (ts : List Thread) (r : Reach) (best : Option Slots) :
    advance code.instrs c next' (ts.map (Thread.shift base)) (r.shift base)
        (best.map (Slots.shift base)) =
      ((advance code.instrs c next ts r best).1.shift base,
        (advance code.instrs c next ts r best).2.map (Slots.shift base)) := by
  induction ts generalizing r best with
  | nil => rfl
  | cons t ts ih =>
    rw [List.map_cons]
    unfold advance
    dsimp only [Thread.shift]
    cases hi : code.instrs[t.pc]? with
    | none => exact ih r best
    | some i =>
      cases i with
      | accept => rfl
      | chars set target =>
        cases c with
        | none => exact ih r best
        | some c =>
          dsimp only
          rw [follow_shift hblind hplace]
          split_ifs
          · exact ih _ best
          · exact ih r best
      | _ => exact ih r best

/-- The ways are moved to a place where none has been found yet. -/
lemma advance_shift_nil {c : Option Char} {next next' : Place} (hplace : next.Shifts base next')
    (ts : List Thread) (marks : Array Nat) (best : Option Slots) :
    advance code.instrs c next' (ts.map (Thread.shift base)) ⟨#[], marks⟩
        (best.map (Slots.shift base)) =
      ((advance code.instrs c next ts ⟨#[], marks⟩ best).1.shift base,
        (advance code.instrs c next ts ⟨#[], marks⟩ best).2.map (Slots.shift base)) := by
  have hadvance := advance_shift hblind (c := c) hplace ts ⟨#[], marks⟩ best
  rwa [Reach.shift_nil] at hadvance

lemma started_shift {here here' : Place} (hplace : here.Shifts base here') (r : Reach)
    (best : Option Slots) :
    code.started here' (r.shift base) (best.map (Slots.shift base)) =
      (code.started here r best).shift base := by
  cases best with
  | none =>
    have hfresh : Slots.shift base (Array.replicate (2 * (code.captures + 1)) none) =
        Array.replicate (2 * (code.captures + 1)) none := by simp [Slots.shift]
    have hfollow := follow_shift hblind hplace (code.instrs.size + 1) code.start
      (Array.replicate (2 * (code.captures + 1)) none) r
    rwa [hfresh] at hfollow
  | some m => rfl

/-- By induction on the rest of the text. -/
lemma searchFrom_shift (rest : List Char) : ∀ {here here' : Place}, here.Shifts base here' →
    ∀ (r : Reach) (best : Option Slots),
      searchFrom code rest here' (r.shift base) (best.map (Slots.shift base)) =
        (searchFrom code rest here r best).map (Slots.shift base) := by
  induction rest with
  | nil =>
    intro here here' hplace r best
    rw [searchFrom_nil, searchFrom_nil, started_shift hblind hplace, Reach.isEmpty_shift,
      Option.isSome_map, Reach.toList_shift, Reach.marks_shift, advance_shift_nil hblind hplace]
    split_ifs <;> rfl
  | cons c cs ih =>
    intro here here' hplace r best
    have hnext : (here.over c cs).Shifts base (here'.over c cs) :=
      ⟨congrArg (· + 1) hplace.stamp, by simp [Place.over, hplace.offset, Nat.add_assoc], rfl⟩
    rw [searchFrom_cons, searchFrom_cons, started_shift hblind hplace, Reach.isEmpty_shift,
      Option.isSome_map, Reach.toList_shift, Reach.marks_shift, advance_shift_nil hblind hnext]
    dsimp only
    rw [ih hnext]
    split_ifs <;> rfl

/-- The character before the text makes no difference. -/
lemma Code.Blind.search_eq (before : Option Char) (rest : List Char) :
    code.search before rest base = (code.find rest).map (Slots.shift base) := by
  have hplace : Place.Shifts base ⟨1, 0, none, rest.head?⟩ ⟨1, base, before, rest.head?⟩ :=
    ⟨rfl, rfl, rfl⟩
  have hsearch := searchFrom_shift hblind rest hplace ⟨#[], Array.replicate code.instrs.size 0⟩ none
  rwa [Reach.shift_nil] at hsearch

end

/-! ## One match after the other -/

/-- After a match that is not empty, the search goes on where it ends. -/
lemma findAllFrom_of_cuts {code : Code} {before : Option Char} {rest pre matched post : List Char}
    {offset : Nat} {m : Slots} (hsearch : code.search before rest offset = some m)
    (hcuts : m.Cuts offset pre matched post rest) (hmatched : matched ≠ []) (fuel : Nat)
    (previous : Option Nat) :
    findAllFrom code (fuel + 1) none before rest offset previous =
      m :: findAllFrom code fuel none ((pre ++ matched).getLast?.or before) post
        (offset + byteSize (pre ++ matched)) (some (offset + byteSize (pre ++ matched))) := by
  have hstop : (offset + byteSize (pre ++ matched) == offset) = false := by
    have hpos := byteSize_pos hmatched
    rw [byteSize_append, beq_eq_false_iff_ne]
    omega
  rw [findAllFrom, hsearch]
  simp only [hcuts.range_eq, hstop, Nat.add_sub_cancel_left]
  rw [hcuts.whole, passBytes_byteSize]
  rfl

/-- A match in a text: what comes before, what is matched, and what comes after. -/
structure Hit where
  before : List Char
  matched : List Char
  after : List Char

namespace Hit

/-- The text with the match in it. -/
def text (h : Hit) : List Char := h.before ++ h.matched ++ h.after

/-- The bytes of the match. -/
def range (h : Hit) : Nat × Nat := (byteSize h.before, byteSize (h.before ++ h.matched))

/-- What lies before the start of the next search: an empty match is moved over one character. -/
def passed (h : Hit) : List Char :=
  h.before ++ h.matched ++ if h.matched = [] then h.after.take 1 else []

/-- Where the next match is searched for. -/
def rest (h : Hit) : List Char := if h.matched = [] then h.after.drop 1 else h.after

lemma passed_append_rest (h : Hit) : h.passed ++ h.rest = h.text := by
  unfold passed rest text
  split_ifs
  · rw [List.append_assoc, List.take_append_drop]
  · rw [List.append_nil]

end Hit

lemma Slots.Cuts.text_eq {m : Slots} {base : Nat} {pre matched post rest : List Char}
    (h : m.Cuts base pre matched post rest) (done : List Char) :
    done ++ rest = (Hit.mk (done ++ pre) matched post).text := by
  simp [Hit.text, h.whole]

/-- Searches go on: what a match leaves is shorter. -/
lemma Slots.Cuts.length_rest_lt {m : Slots} {pre matched post rest : List Char}
    (h : m.Cuts 0 pre matched post rest) (done : List Char) (hne : rest ≠ []) :
    (Hit.mk (done ++ pre) matched post).rest.length < rest.length := by
  have hpos := List.length_pos_iff.2 hne
  rw [h.whole, List.length_append, List.length_append] at hpos ⊢
  unfold Hit.rest
  split_ifs with hempty
  · rw [List.length_drop]
    dsimp only
    omega
  · have hmatched := List.length_pos_iff.2 hempty
    dsimp only at hmatched ⊢
    omega

/-- The matches that are found in the rest of a text one after the other, each in what the one
before it leaves. It ends when there is no match; or else when the rest is empty and matches, and
then searches do not get any further. -/
inductive Code.Scan (code : Code) : List Char → List Char → List Hit → Bool → Prop where
  | miss {done rest : List Char} (hnone : code.find rest = none) : Scan code done rest [] false
  | stall {done : List Char} {m : Slots} (hsome : code.find [] = some m) :
    Scan code done [] [⟨done, [], []⟩] true
  | hit {done rest pre matched post : List Char} {m : Slots} {hits : List Hit} {stalls : Bool}
    (hne : rest ≠ []) (hsome : code.find rest = some m) (hcuts : m.Cuts 0 pre matched post rest)
    (hrest : Scan code (Hit.mk (done ++ pre) matched post).passed
      (Hit.mk (done ++ pre) matched post).rest hits stalls) :
    Scan code done rest (⟨done ++ pre, matched, post⟩ :: hits) stalls

/-- By induction on the length of the rest. -/
lemma Code.Sound.exists_scan {code : Code} (hsound : code.Sound) (done rest : List Char) :
    ∃ hits stalls, code.Scan done rest hits stalls := by
  induction hn : rest.length using Nat.strongRecOn generalizing done rest with
  | ind n ih =>
    cases hfind : code.find rest with
    | none => exact ⟨[], false, .miss hfind⟩
    | some m =>
      by_cases hempty : rest = []
      · subst hempty
        exact ⟨_, true, .stall hfind⟩
      · obtain ⟨pre, matched, post, hcuts⟩ := cuts_search hsound hfind
        obtain ⟨hits, stalls, hscan⟩ := ih _ (hn ▸ hcuts.length_rest_lt done hempty) _ _ rfl
        exact ⟨_, stalls, .hit hempty hfind hcuts hscan⟩

namespace Code.Scan

variable {code : Code} {done rest : List Char} {hits : List Hit} {stalls : Bool}

/-- Every match is one in the text. -/
lemma text_eq (h : code.Scan done rest hits stalls) : ∀ hit ∈ hits, hit.text = done ++ rest := by
  induction h with
  | miss => exact fun _ hhit => absurd hhit List.not_mem_nil
  | stall => simp [Hit.text]
  | @hit done _ _ _ _ _ _ _ _ _ hcuts _ ih =>
    refine List.forall_mem_cons.2 ⟨(hcuts.text_eq done).symm, fun hit hhit => ?_⟩
    rw [ih hit hhit, Hit.passed_append_rest, hcuts.text_eq]

/-- There is at most one match more than there are characters. -/
lemma length_le (h : code.Scan done rest hits stalls) : hits.length ≤ rest.length + 1 := by
  induction h with
  | miss => exact Nat.zero_le _
  | stall => exact Nat.le_refl _
  | @hit done _ _ _ _ _ _ _ hne _ hcuts _ ih =>
    have hshorter := hcuts.length_rest_lt done hne
    rw [List.length_cons]
    omega

/-- Searches only get stuck on an empty match at the end. -/
lemma getLast?_of_stalls (h : code.Scan done rest hits stalls) (hstalls : stalls = true) :
    hits.getLast? = some ⟨done ++ rest, [], []⟩ := by
  induction h with
  | miss => cases hstalls
  | stall => simp
  | hit _ _ hcuts _ ih =>
    have hlast := ih hstalls
    rw [Hit.passed_append_rest, ← hcuts.text_eq] at hlast
    rw [List.getLast?_cons, hlast]
    rfl

lemma stalls_eq_false (h : code.Scan done rest hits stalls) (hne : ∀ hit ∈ hits, hit.matched ≠ []) :
    stalls = false := by
  refine Bool.not_eq_true _ ▸ fun hstalls => ?_
  exact hne _ (List.mem_of_getLast? (h.getLast?_of_stalls hstalls)) rfl

/-- A search for all matches finds the same ones, if searches do not look back and no match is
empty. By induction on the scan. -/
lemma findAllFrom_eq (h : code.Scan done rest hits stalls) (hblind : code.Blind)
    (hne : ∀ hit ∈ hits, hit.matched ≠ []) {fuel : Nat} (hfuel : rest.length < fuel)
    (before : Option Char) (previous : Option Nat) :
    (findAllFrom code fuel none before rest (byteSize done) previous).map Slots.range =
      hits.map Hit.range := by
  induction h generalizing fuel before previous with
  | miss hnone =>
    obtain _ | fuel := fuel
    · rfl
    · unfold findAllFrom
      rw [hblind.search_eq, hnone]
      rfl
  | stall => exact absurd rfl (hne _ List.mem_cons_self)
  | @hit done rest pre matched post m hits _ hrest hsome hcuts _ ih =>
    obtain ⟨hmatched, hne⟩ := List.forall_mem_cons.1 hne
    obtain _ | fuel := fuel
    · exact absurd hfuel (Nat.not_lt_zero _)
    have hsearch : code.search before rest (byteSize done) = some (m.shift (byteSize done)) := by
      rw [hblind.search_eq, hsome]
      rfl
    have hmore : post.length < fuel := by
      have hlength := List.length_pos_iff.2 hmatched
      rw [hcuts.whole, List.length_append, List.length_append] at hfuel
      dsimp only at hlength
      omega
    have hpassed : (Hit.mk (done ++ pre) matched post).passed = done ++ (pre ++ matched) := by
      simp [Hit.passed, hmatched]
    have hleft : (Hit.mk (done ++ pre) matched post).rest = post := if_neg hmatched
    rw [hpassed, hleft, byteSize_append] at ih
    rw [findAllFrom_of_cuts hsearch hcuts.shift hmatched, List.map_cons, List.map_cons,
      hcuts.shift.range_eq, ih hne hmore, Hit.range]
    simp [byteSize_append]

lemma findAll_eq (h : code.Scan [] rest hits stalls) (hblind : code.Blind)
    (hne : ∀ hit ∈ hits, hit.matched ≠ []) :
    (code.findAll none rest).map Slots.range = hits.map Hit.range :=
  h.findAllFrom_eq hblind hne (by omega) none none

end Code.Scan

end Pattern

end Clearance
