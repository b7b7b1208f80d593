import BlockScript.Text.Basic

/-!
# Signed positions

A position in a sequence of `n` elements may be written from either end: `0, …, n - 1` count from
the front, and `-1, …, -n` count from the back.  `signedIndex? n i` is the place that `i` stands
for, if there is one.  A position that stands for none is reported as out of range, or as too large
if it is not even a signed number of 64 bits (`FitsWord`).
-/

namespace BlockScript

/-- The place in a sequence of `n` elements that the signed position `i` stands for. -/
def signedIndex? (n : Nat) (i : Int) : Option Nat :=
  if 0 ≤ i ∧ i < n then some i.toNat
  else if i < 0 ∧ -n ≤ i then some (n + i).toNat
  else none

/-- Being a signed number of 64 bits. -/
def FitsWord (i : Int) : Prop := -0x8000000000000000 ≤ i ∧ i < 0x8000000000000000

instance (i : Int) : Decidable (FitsWord i) := inferInstanceAs (Decidable (_ ∧ _))

/-- The wording for a number that is too large, above or below zero, to be a position. -/
def wordOverflow : Text := "cannot fit 'int' into an index-sized integer".toList

/-- The wording for a position that stands for no place in a sequence of the given kind. -/
def noSuchIndex (sequence : Text) (i : Int) : Text :=
  if FitsWord i then sequence ++ " index out of range".toList else wordOverflow

theorem signedIndex?_natCast {n k : Nat} (h : k < n) : signedIndex? n k = some k := by
  simp [signedIndex?, h]

end BlockScript
