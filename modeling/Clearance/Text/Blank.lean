/-
# White space

White space is the Unicode property of that name. Trimming removes it at both ends.
-/

namespace Clearance.Text

/-- The white space characters. -/
def isBlank (c : Char) : Bool :=
  let n := c.toNat
  (9 ≤ n && n ≤ 13) || n == 32 || n == 0x85 || n == 0xA0 || n == 0x1680 ||
    (0x2000 ≤ n && n ≤ 0x200A) || n == 0x2028 || n == 0x2029 || n == 0x202F ||
    n == 0x205F || n == 0x3000

/-- A list without the leading and trailing elements that satisfy `p`. -/
def trimList {α : Type} (p : α → Bool) (cs : List α) : List α :=
  ((cs.dropWhile p).reverse.dropWhile p).reverse

/-- A list in which no element satisfies `p` stays as it is. -/
theorem trimList_eq_self {α : Type} {p : α → Bool} {cs : List α} (h : ∀ c ∈ cs, p c = false) :
    trimList p cs = cs := by
  have hdrop : ∀ ds : List α, (∀ c ∈ ds, p c = false) → ds.dropWhile p = ds
    | [], _ => rfl
    | c :: _, hds => List.dropWhile_cons_of_neg (by simp [hds c List.mem_cons_self])
  rw [trimList, hdrop cs h, hdrop cs.reverse (by simpa using h), List.reverse_reverse]

/-- A text without surrounding white space. -/
def trim (s : String) : String := String.ofList (trimList isBlank s.toList)

end Clearance.Text
