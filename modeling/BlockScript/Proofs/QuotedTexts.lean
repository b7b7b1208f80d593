import Mathlib
import BlockScript.Text.Quoted

/-!
# Quoted texts

A text between quotation marks can be told from every other one, whatever it consists of and
whatever stands behind it: the mark that opens it stands inside only behind a backslash, and each
character is written in a way that shows which one it is and where the next begins
(`Text.setApart_escapeQuoted`, `Text.setApart_quoted`).
-/

namespace BlockScript

/-- The form of a value sets it apart if no text begins with that form and with the form of another
value as well. -/
def SetApart {α : Type} (form : α → Text) (a : α) : Prop :=
  ∀ b r q, form a ++ r = form b ++ q → a = b ∧ r = q

theorem SetApart.append_eq_iff {α : Type} {form : α → Text} {a b : α} {r q : Text}
    (h : SetApart form a) : form a ++ r = form b ++ q ↔ a = b ∧ r = q := by
  refine ⟨h b r q, ?_⟩
  rintro ⟨rfl, rfl⟩
  rfl

theorem SetApart.eq_iff {α : Type} {form : α → Text} {a b : α} (h : SetApart form a) :
    a = b ↔ form a = form b := by
  refine ⟨congrArg form, fun he => (h b [] [] ?_).1⟩
  rw [he]

namespace Text

/-! ## Digits -/

theorem length_hex (width n : Nat) : (hex width n).length = width := by
  induction width generalizing n with
  | zero => rfl
  | succ width ih => rw [hex, List.length_append, ih, List.length_singleton]

theorem digitChar_inj : ∀ m < 16, ∀ n < 16, Nat.digitChar m = Nat.digitChar n → m = n := by decide

theorem eq_of_hex_eq {width m n : Nat} (hm : m < 16 ^ width) (hn : n < 16 ^ width)
    (h : hex width m = hex width n) : m = n := by
  induction width generalizing m n with
  | zero => omega
  | succ width ih =>
    rw [hex, hex] at h
    obtain ⟨hfront, hlast⟩ := List.append_inj' h rfl
    have hdiv : m / 16 = n / 16 := ih (by omega) (by omega) hfront
    have hmod : m % 16 = n % 16 :=
      digitChar_inj _ (Nat.mod_lt m (by decide)) _ (Nat.mod_lt n (by decide))
        (List.singleton_inj.1 hlast)
    omega

/-! ## Characters between quotation marks -/

/-- How many digits follow the letter of an escape. -/
def escapeWidth (e : Char) : Nat :=
  if e = 'x' then 2 else if e = 'u' then 4 else if e = 'U' then 8 else 0

/-- What the letter of an escape without digits stands for. -/
def escapeLetter (e : Char) : Char :=
  if e = 'n' then '\n' else if e = 'r' then '\r' else if e = 't' then '\t' else e

/-- The escape of a character by the letter `e` with the digits that the letter asks for, which
leave no doubt about the character. -/
structure IsEscape (c e : Char) (escape : Text) : Prop where
  eq : escape = '\\' :: e :: hex (escapeWidth e) c.toNat
  eq_letter : escapeWidth e = 0 → c = escapeLetter e
  lt_width : escapeWidth e ≠ 0 → c.toNat < 16 ^ escapeWidth e

theorem exists_isEscape_numericEscape (c : Char) : ∃ e, IsEscape c e (numericEscape c) := by
  have hc : c.toNat < 0x110000 := by
    rcases c.valid with h | h
    · exact Nat.lt_trans h (by decide)
    · exact h.2
  unfold numericEscape
  split
  · next h => exact ⟨'x', rfl, nofun, fun _ => h⟩
  · split
    · next h => exact ⟨'u', rfl, nofun, fun _ => h⟩
    · exact ⟨'U', rfl, nofun, fun _ => Nat.lt_trans hc (by decide)⟩

theorem IsEscape.eq_and_eq {c d e f : Char} {s t r q : Text} (hs : IsEscape c e s)
    (ht : IsEscape d f t) (h : s ++ r = t ++ q) : c = d ∧ r = q := by
  rw [hs.eq, ht.eq] at h
  obtain ⟨rfl, hdigits⟩ := List.cons.inj (List.cons.inj h).2
  obtain ⟨hhex, hrest⟩ := List.append_inj hdigits (by rw [length_hex, length_hex])
  refine ⟨?_, hrest⟩
  by_cases hw : escapeWidth e = 0
  · rw [hs.eq_letter hw, ht.eq_letter hw]
  · exact Char.toNat_inj.1 (eq_of_hex_eq (hs.lt_width hw) (ht.lt_width hw) hhex)

/-- A single or a double quote. -/
def IsQuoteMark (mark : Char) : Prop := mark = '"' ∨ mark = '\x27'

theorem isQuoteMark_quoteMark (text : Text) : IsQuoteMark text.quoteMark := by
  unfold quoteMark
  split
  · exact .inl rfl
  · exact .inr rfl

variable {mark : Char}

theorem IsQuoteMark.ne_backslash (hm : IsQuoteMark mark) : mark ≠ '\\' := by
  rcases hm with rfl | rfl <;> decide

/-- A character stands between quotation marks as it is, unless it is a mark or a backslash, or as
an escape. -/
theorem escapeQuoted_cases (hm : IsQuoteMark mark) (c : Char) :
    (escapeQuoted mark c = [c] ∧ c ≠ mark ∧ c ≠ '\\') ∨
      ∃ e, IsEscape c e (escapeQuoted mark c) := by
  by_cases hq : c = mark ∨ c = '\\'
  · have hself : escapeWidth c = 0 ∧ escapeLetter c = c := by
      rcases hq with rfl | rfl
      · rcases hm with rfl | rfl <;> decide
      · decide
    refine .inr ⟨c, ?_, fun _ => hself.2.symm, fun h => absurd hself.1 h⟩
    rw [escapeQuoted, if_pos hq, hself.1]
    rfl
  by_cases hn : c = '\n'
  · refine .inr ⟨'n', ?_, fun _ => hn, nofun⟩
    rw [escapeQuoted, if_neg hq, if_pos hn]
    rfl
  by_cases hr : c = '\r'
  · refine .inr ⟨'r', ?_, fun _ => hr, nofun⟩
    rw [escapeQuoted, if_neg hq, if_neg hn, if_pos hr]
    rfl
  by_cases ht : c = '\t'
  · refine .inr ⟨'t', ?_, fun _ => ht, nofun⟩
    rw [escapeQuoted, if_neg hq, if_neg hn, if_neg hr, if_pos ht]
    rfl
  have hplain : c ≠ mark ∧ c ≠ '\\' := ⟨fun h => hq (.inl h), fun h => hq (.inr h)⟩
  rw [escapeQuoted, if_neg hq, if_neg hn, if_neg hr, if_neg ht]
  split
  · exact .inr (exists_isEscape_numericEscape c)
  · split
    · exact .inl ⟨rfl, hplain⟩
    · split
      · exact .inr (exists_isEscape_numericEscape c)
      · exact .inl ⟨rfl, hplain⟩

theorem setApart_escapeQuoted (hm : IsQuoteMark mark) (c : Char) :
    SetApart (escapeQuoted mark) c := by
  intro d r q h
  rcases escapeQuoted_cases hm c with ⟨hc, -, hbc⟩ | ⟨e, hc⟩
  · rw [hc] at h
    rcases escapeQuoted_cases hm d with ⟨hd, -, -⟩ | ⟨f, hd⟩
    · rw [hd] at h
      exact List.cons.inj h
    · rw [hd.eq] at h
      exact absurd (List.cons.inj h).1 hbc
  · rcases escapeQuoted_cases hm d with ⟨hd, -, hbd⟩ | ⟨f, hd⟩
    · rw [hc.eq, hd] at h
      exact absurd (List.cons.inj h).1.symm hbd
    · exact hc.eq_and_eq hd h

/-- What stands between quotation marks does not begin with the mark. -/
theorem escapeQuoted_append_ne (hm : IsQuoteMark mark) (c : Char) (r q : Text) :
    escapeQuoted mark c ++ r ≠ mark :: q := by
  intro h
  rcases escapeQuoted_cases hm c with ⟨hc, hne, -⟩ | ⟨e, hc⟩
  · rw [hc] at h
    exact hne (List.cons.inj h).1
  · rw [hc.eq] at h
    exact hm.ne_backslash (List.cons.inj h).1.symm

/-! ## Texts -/

theorem eq_of_flatMap_escapeQuoted_eq (hm : IsQuoteMark mark) {s t r q : Text}
    (h : s.flatMap (escapeQuoted mark) ++ mark :: r = t.flatMap (escapeQuoted mark) ++ mark :: q) :
    s = t ∧ r = q := by
  induction s generalizing t with
  | nil =>
    cases t with
    | nil => exact ⟨rfl, (List.cons.inj h).2⟩
    | cons d t =>
      rw [List.flatMap_cons, List.append_assoc] at h
      exact absurd h.symm (escapeQuoted_append_ne hm d _ _)
  | cons c s ih =>
    rw [List.flatMap_cons, List.append_assoc] at h
    cases t with
    | nil => exact absurd h (escapeQuoted_append_ne hm c _ _)
    | cons d t =>
      rw [List.flatMap_cons, List.append_assoc] at h
      obtain ⟨rfl, htail⟩ := setApart_escapeQuoted hm c d _ _ h
      obtain ⟨rfl, hrest⟩ := ih htail
      exact ⟨rfl, hrest⟩

/-- A text is set apart by its quoted form: the first mark tells which one is used. -/
theorem setApart_quoted (s : Text) : SetApart quoted s := by
  intro t r q h
  rw [quoted, quoted, List.cons_append, List.cons_append, List.append_assoc, List.append_assoc] at h
  obtain ⟨hmark, htail⟩ := List.cons.inj h
  rw [← hmark] at htail
  exact eq_of_flatMap_escapeQuoted_eq s.isQuoteMark_quoteMark htail

end Text

end BlockScript
