import Mathlib
import BlockScript.Proofs.Statement

/-!
# Blank lines

A line without tokens is passed over wherever it stands, and of any other line only the tokens and
the number are looked at (`Line.Agrees`).  Reading lines and reading the same lines without some of
the blank ones go side by side (`Reading.Alike`): they end alike, and what is left behind them is
again the same but for blank lines.  So the blank lines of a script can be taken out without a
change to its blocks or to what is wrong with it (`blocks_without_blanks`).
-/

namespace BlockScript

/-- The other line has the same tokens, or is refused for the same mistake, under the same
number. -/
structure Line.Agrees (line other : Line) : Prop where
  tokens : tokenize other.text = tokenize line.text
  number : other.number = line.number

theorem Line.Agrees.refl (line : Line) : line.Agrees line := ⟨rfl, rfl⟩

/-- The lines `thin` are the lines `full`, or lines that agree with them, without some of the blank
ones. -/
inductive Thinned : (full thin : List Line) → Prop where
  | nil : Thinned [] []
  | keep {line other : Line} {full thin : List Line} (hline : line.Agrees other)
      (h : Thinned full thin) : Thinned (line :: full) (other :: thin)
  | drop {line : Line} {full thin : List Line} (hline : tokenize line.text = .ok [])
      (h : Thinned full thin) : Thinned (line :: full) thin

variable {full thin : List Line} {line other : Line}

namespace Reading

variable {α β : Type} {r s : Reading α}

/-- The readings of some lines and of the same lines without blank ones end alike, and so do the
lines that are left behind a value. -/
structure Alike (full thin : List Line) (r s : Reading α) : Prop where
  result_eq : r.result = s.result
  thinned : ∀ a, r.result = .ok a → Thinned (full.drop r.passed) (thin.drop s.passed)

theorem Alike.map (f : α → β) (h : Alike full thin r s) : Alike full thin (r.map f) (s.map f) where
  result_eq := congrArg (Except.map f) h.result_eq
  thinned b hb := by
    obtain ⟨a, ha, -⟩ := exists_ok_of_map_eq_ok hb
    exact h.thinned a ha

theorem Alike.within (number : Int) (h : Alike full thin r s) :
    Alike full thin (r.within number) (s.within number) where
  result_eq := congrArg (Except.mapError (ParseError.within number)) h.result_eq
  thinned a ha := by
    obtain ⟨result, n⟩ := r
    cases result with
    | error e => cases ha
    | ok b => exact h.thinned b rfl

/-- Two readings go on side by side behind lines that have been passed. -/
theorem Alike.after {m n : Nat} (h : Alike (full.drop m) (thin.drop n) r s) :
    Alike full thin (r.after m) (s.after n) where
  result_eq := h.result_eq
  thinned a ha := by
    have hdrop := h.thinned a ha
    rw [List.drop_drop, List.drop_drop] at hdrop
    exact hdrop

/-- A blank line in front of the one reading is passed over. -/
theorem Alike.blank (h : Alike full thin r s) : Alike (line :: full) thin (r.after 1) s where
  result_eq := h.result_eq
  thinned a ha := by
    rw [passed_after, Nat.add_comm, List.drop_succ_cons]
    exact h.thinned a ha

theorem alike_error (e : ParseError) (m n : Nat) :
    Alike full thin (⟨.error e, m⟩ : Reading α) ⟨.error e, n⟩ :=
  ⟨rfl, nofun⟩

theorem alike_ok (h : Thinned full thin) (a : α) :
    Alike full thin (⟨.ok a, 0⟩ : Reading α) ⟨.ok a, 0⟩ :=
  ⟨rfl, fun _ _ => h⟩

end Reading

namespace Block

open Reading

variable {depth : Nat} {body : List Line → Reading (List Block)}

/-- A reader for which blank lines make no difference. -/
def SkipsBlanks {α : Type} (reader : List Line → Reading α) : Prop :=
  ∀ full thin, Thinned full thin → Alike full thin (reader full) (reader thin)

theorem closing?_of_agrees (h : line.Agrees other) : closing? other = closing? line := by
  rw [closing?, closing?, h.tokens]

theorem closing?_of_blank (h : tokenize line.text = .ok []) : closing? line = none := by
  rw [closing?, h]

theorem skipsBlanks_readStatement (depth : Nat) (hbody : SkipsBlanks body)
    (tokens : List Token) : SkipsBlanks (readStatement depth body tokens) := by
  intro full thin h
  rw [readStatement_eq, readStatement_eq]
  cases Statement.ofTokensWith (Argument.ofToken depth) tokens with
  | error cause => exact alike_error _ 0 0
  | ok statement =>
    rw [ofExcept_ok_andThen, ofExcept_ok_andThen]
    cases statement with
    | opening header => exact (hbody full thin h).map header.block
    | command c => exact alike_ok h _

/-- The block that begins at a line is the same if blank lines behind that line are taken out. -/
theorem alike_readWith (depth : Nat) (hbody : SkipsBlanks body) (hline : line.Agrees other)
    (h : Thinned full thin) :
    Alike (line :: full) (other :: thin) (readWith depth body (line :: full))
      (readWith depth body (other :: thin)) := by
  cases ht : tokenize line.text with
  | error cause =>
    rw [readWith_of_error ht, readWith_of_error (hline.tokens.trans ht), hline.number]
    exact alike_error _ 0 0
  | ok tokens =>
    have ht' : tokenize other.text = .ok tokens := hline.tokens.trans ht
    cases tokens with
    | nil =>
      rw [readWith_of_nil ht, readWith_of_nil ht']
      exact ⟨rfl, fun _ _ => h⟩
    | cons first rest =>
      have hs := skipsBlanks_readStatement depth hbody (first :: rest) full thin h
      rw [readWith_of_cons ht, readWith_of_cons ht', hline.number]
      exact Alike.after ((hs.within line.number).map some)

/-- A block that is read with and without blank lines behind its first line. -/
theorem exists_readWith_thinned (hbody : SkipsBlanks body) (hline : line.Agrees other)
    (h : Thinned full thin) {block : Option Block}
    (hr : (readWith depth body (line :: full)).result = .ok block) :
    ∃ m n, readWith depth body (line :: full) = ⟨.ok block, m + 1⟩ ∧
      readWith depth body (other :: thin) = ⟨.ok block, n + 1⟩ ∧
      Thinned (full.drop m) (thin.drop n) := by
  have halike := alike_readWith depth hbody hline h
  obtain ⟨m, hm⟩ := exists_passed_of_readWith hr
  obtain ⟨n, hn⟩ := exists_passed_of_readWith (halike.result_eq ▸ hr)
  have hthin := halike.thinned block hr
  rw [hm, hn] at hthin
  exact ⟨m, n, hm, hn, hthin⟩

/-- Nothing comes in front of the blocks behind a blank line. -/
theorem map_none_append (r : Reading (List Block)) :
    r.map ((none : Option Block).toList ++ ·) = r := by
  obtain ⟨result, n⟩ := r
  cases result <;> rfl

theorem skipsBlanks_readBodyWith (hbody : SkipsBlanks body) (allowExtra : Bool) :
    ∀ full thin : List Line, Thinned full thin →
      Alike full thin (readBodyWith (readWith depth body) allowExtra full)
        (readBodyWith (readWith depth body) allowExtra thin)
  | [], _, .nil => by
    rw [readBodyWith_nil]
    exact alike_error _ 0 0
  | line :: full, thin, .drop hline h => by
    have ih := skipsBlanks_readBodyWith hbody allowExtra full thin h
    rw [readBodyWith_of_ok (closing?_of_blank hline) (readWith_of_nil hline), List.drop_zero,
      map_none_append]
    exact ih.blank
  | line :: full, _, @Thinned.keep _ other _ thin hline h => by
    have hclosing : closing? other = closing? line := closing?_of_agrees hline
    cases hc : closing? line with
    | some extra =>
      rw [readBodyWith_of_closing hc, readBodyWith_of_closing (hclosing.trans hc)]
      split
      · exact alike_error _ 0 0
      · exact ⟨rfl, fun _ _ => h⟩
    | none =>
      have hc' : closing? other = none := hclosing.trans hc
      have halike := alike_readWith depth hbody hline h
      cases hr : (readWith depth body (line :: full)).result with
      | error e =>
        rw [readBodyWith_of_error hc hr, readBodyWith_of_error hc' (halike.result_eq ▸ hr)]
        exact alike_error _ _ _
      | ok block =>
        obtain ⟨m, n, hm, hn, hthin⟩ := exists_readWith_thinned hbody hline h hr
        have ih := skipsBlanks_readBodyWith hbody allowExtra (full.drop m) (thin.drop n) hthin
        rw [readBodyWith_of_ok hc hm, readBodyWith_of_ok hc' hn]
        exact Alike.after (ih.map (block.toList ++ ·))
termination_by full => full.length
decreasing_by all_goals simp only [List.length_drop, List.length_cons]; omega

theorem skipsBlanks_readBody (depth : Nat) : SkipsBlanks (readBody depth) := by
  induction depth with
  | zero => exact fun full thin _ => alike_error _ 0 0
  | succ depth ih =>
    intro full thin h
    rw [readBody_succ, readBody_succ]
    exact skipsBlanks_readBodyWith ih false full thin h

/-- Blank lines make no difference to all blocks of some lines, nor to what is wrong with them. -/
theorem result_readAll_of_thinned : ∀ full thin : List Line, Thinned full thin →
    (readAll full).result = (readAll thin).result
  | [], _, .nil => rfl
  | line :: full, thin, .drop hline h => by
    have hread : read (line :: full) = ⟨.ok none, 1⟩ := readWith_of_nil hline
    rw [readAll_of_ok hread, List.drop_zero, map_none_append, Reading.result_after]
    exact result_readAll_of_thinned full thin h
  | line :: full, _, @Thinned.keep _ other _ thin hline h => by
    have hbody := skipsBlanks_readBody maxNesting
    have halike : Alike (line :: full) (other :: thin) (read (line :: full))
        (read (other :: thin)) := alike_readWith maxNesting hbody hline h
    cases hr : (read (line :: full)).result with
    | error e =>
      rw [readAll_of_error hr, readAll_of_error (halike.result_eq ▸ hr), hline.number]
    | ok block =>
      obtain ⟨m, n, hm, hn, hthin⟩ :
          ∃ m n, read (line :: full) = ⟨.ok block, m + 1⟩ ∧
            read (other :: thin) = ⟨.ok block, n + 1⟩ ∧ Thinned (full.drop m) (thin.drop n) :=
        exists_readWith_thinned hbody hline h hr
      have ih := result_readAll_of_thinned (full.drop m) (thin.drop n) hthin
      rw [readAll_of_ok hm, readAll_of_ok hn]
      exact congrArg (Except.map (block.toList ++ ·)) ih
termination_by full => full.length
decreasing_by all_goals simp only [List.length_drop, List.length_cons]; omega

end Block

/-! ## Scripts without some lines -/

/-- The script without the lines at some positions. -/
def Script.without (script : Script) (positions : Nat → Bool) : Script :=
  ⟨(script.lines.zipIdx.filter fun (_, i) => !positions i).map Prod.fst⟩

theorem thinned_filter_zipIdx {positions : Nat → Bool} (lines : List Line) (n : Nat)
    (h : ∀ i line, positions (n + i) → lines[i]? = some line → tokenize line.text = .ok []) :
    Thinned lines (((lines.zipIdx n).filter fun (_, i) => !positions i).map Prod.fst) := by
  induction lines generalizing n with
  | nil => exact .nil
  | cons line lines ih =>
    have hrest : Thinned lines
        (((lines.zipIdx (n + 1)).filter fun (_, i) => !positions i).map Prod.fst) :=
      ih (n + 1) fun i l hi hl => h (i + 1) l (by rwa [Nat.add_right_comm] at hi) hl
    rw [List.zipIdx_cons, List.filter_cons]
    by_cases hn : positions n
    · simpa [hn] using Thinned.drop (h 0 line hn rfl) hrest
    · simpa [hn] using Thinned.keep (.refl line) hrest

/-- A script without some of its lines has the same blocks, or the same mistake under the same
lines, if none of the lines that are taken out has a token. -/
theorem blocks_without_blanks (script : Script) (positions : Nat → Bool)
    (h : ∀ i line, positions i → script.lines[i]? = some line → tokenize line.text = .ok []) :
    (script.without positions).blocks = script.blocks := by
  have hthin : Thinned script.lines (script.without positions).lines :=
    thinned_filter_zipIdx script.lines 0 fun i line => by rw [Nat.zero_add]; exact h i line
  exact (Block.result_readAll_of_thinned _ _ hthin).symm

/-- A blank line, a comment and another blank line at the beginning, in front of a mistake and at
the end of an open body. -/
theorem blocks_without_blanks_openBody :
    Script.blocks ⟨[⟨"for x \x7d".toList, 2⟩, ⟨"a )".toList, 4⟩]⟩ =
        .error ⟨[2, 4], .strayParenthesis⟩ ∧
      Script.blocks ⟨[⟨[], 1⟩, ⟨"for x \x7d".toList, 2⟩, ⟨['#'], 3⟩, ⟨"a )".toList, 4⟩,
        ⟨[' '], 5⟩]⟩ = .error ⟨[2, 4], .strayParenthesis⟩ := by
  have hthin : Script.blocks ⟨[⟨"for x \x7d".toList, 2⟩, ⟨"a )".toList, 4⟩]⟩ =
      .error ⟨[2, 4], .strayParenthesis⟩ := by
    cbv
  have hblank : ∀ text : Text, text ∈ [[], ['#'], [' ']] → tokenize text = .ok [] := by
    simp only [List.mem_cons, List.not_mem_nil, or_false]
    rintro text (rfl | rfl | rfl) <;> cbv
  refine ⟨hthin, hthin ▸ (blocks_without_blanks _ (fun i => i % 2 == 0)
    fun i line hi hl => hblank _ ?_).symm⟩
  -- the odd positions are not taken out, and there are no more than five
  rcases i with _ | _ | _ | _ | _ | _
  · cases hl; decide
  · cases hi
  · cases hl; decide
  · cases hi
  · cases hl; decide
  · cases hl

end BlockScript
