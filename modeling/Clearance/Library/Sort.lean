/-
# A stable sort with a comparison that acts

Blocks of twenty elements are sorted by insertion, then neighbouring blocks are merged in
rounds. A merge looks for the point where the two blocks must exchange elements by bisection,
rotates, and goes on with both halves. The comparison may act and may be inconsistent, so its
order of use is part of the definition; whatever it answers, the result is a permutation.
-/

namespace Clearance.Sort

universe u

variable {m : Type → Type u} [Monad m] {α : Type}

/-- Inserts an element at the end of a sorted list, which is given last element first. -/
def insertBack (less : α → α → m Bool) (x : α) : List α → m (List α)
  | [] => pure [x]
  | y :: ys => do
    if ← less x y then
      let rest ← insertBack less x ys
      pure (y :: rest)
    else pure (x :: y :: ys)

/-- Insertion sort; the sorted part is given last element first. -/
def insertAll (less : α → α → m Bool) : List α → List α → m (List α)
  | sorted, [] => pure sorted.reverse
  | sorted, x :: xs => do insertAll less (← insertBack less x sorted) xs

/-- The first place between `i` and `j` that a test does not send to the right. The fuel
bounds the number of tests. -/
def bisect (right : Nat → m Bool) : Nat → Nat → Nat → m Nat
  | 0, i, _ => pure i
  | fuel + 1, i, j =>
    if i < j then do
      let h := (i + j) / 2
      if ← right h then bisect right fuel (h + 1) j else bisect right fuel i h
    else pure i

/-- Compares the elements at two places. -/
def lessAt (less : α → α → m Bool) (xs : List α) (i j : Nat) : m Bool :=
  match xs[i]?, xs[j]? with
  | some x, some y => less x y
  | _, _ => pure false

/-- Exchanges the neighbouring parts `[a, b)` and `[b, c)`. -/
def rotate (xs : List α) (a b c : Nat) : List α :=
  xs.take a ++ (xs.drop b).take (c - b) ++ (xs.drop a).take (b - a) ++ xs.drop c

/-- Merges the sorted parts before and from `cut` on. The fuel bounds the depth. -/
def merge (less : α → α → m Bool) : Nat → List α → Nat → m (List α)
  | 0, xs, _ => pure xs
  | fuel + 1, xs, cut =>
    let n := xs.length
    if cut = 1 then do
      let i ← bisect (fun h => lessAt less xs h 0) n 1 n
      pure (rotate xs 0 1 i)
    else if n = cut + 1 then do
      let i ← bisect (fun h => do return !(← lessAt less xs cut h)) n 0 cut
      pure (rotate xs i cut n)
    else do
      let mid := n / 2
      let sum := mid + cut
      let (lo, hi) := if cut > mid then (sum - n, mid) else (0, cut)
      let start ← bisect (fun c => do return !(← lessAt less xs (sum - 1 - c) c)) n lo hi
      let stop := sum - start
      let xs := if start < cut ∧ cut < stop then rotate xs start cut stop else xs
      let left := xs.take mid
      let right := xs.drop mid
      let left ← if 0 < start ∧ start < mid then merge less fuel left start else pure left
      let right ←
        if mid < stop ∧ stop < n then merge less fuel right (stop - mid) else pure right
      pure (left ++ right)

/-- Cuts a list into blocks of `size` elements; the fuel bounds their number. -/
def blocks (size : Nat) : Nat → List α → List (List α)
  | 0, _ => []
  | fuel + 1, xs => if xs.isEmpty then [] else xs.take size :: blocks size fuel (xs.drop size)

/-- Sorts each block by insertion. -/
def sortBlocks (less : α → α → m Bool) : List (List α) → m (List (List α))
  | [] => pure []
  | b :: bs => do
    let sorted ← insertAll less [] b
    let rest ← sortBlocks less bs
    pure (sorted :: rest)

/-- Merges neighbouring blocks in pairs. -/
def mergePairs (less : α → α → m Bool) : List (List α) → m (List (List α))
  | a :: b :: rest => do
    let merged ← merge less (a.length + b.length) (a ++ b) a.length
    let others ← mergePairs less rest
    pure (merged :: others)
  | bs => pure bs

/-- Merges in rounds until one block is left; the fuel bounds the number of rounds. -/
def mergeRounds (less : α → α → m Bool) : Nat → List (List α) → m (List α)
  | 0, bs => pure bs.flatten
  | fuel + 1, bs =>
    match bs with
    | [] => pure []
    | [b] => pure b
    | bs => do mergeRounds less fuel (← mergePairs less bs)

/-- The number of elements of a block. -/
def blockSize : Nat := 20

/-- Sorts a list. -/
def sort (less : α → α → m Bool) (xs : List α) : m (List α) := do
  let bs ← sortBlocks less (blocks blockSize xs.length xs)
  mergeRounds less bs.length bs

end Clearance.Sort
