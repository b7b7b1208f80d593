import BlockScript.Proofs.Statement

/-!
# Lines behind those that are read

The readers of blocks go from line to line and stop where a block, a body or a mistake ends, so
the lines behind do not matter.  Only a body that is still open at the last line can go on: a
reading that has not failed for want of a closing line is settled (`Reading.Settled`), and a
settled reading is the same when more lines follow (`Block.readWith_append`,
`Block.local_readBody`).  So all blocks of some lines come in front of those of the lines that
follow, and the mistake in them comes before any other (`Block.readAll_append_of_ok`,
`Block.readAll_append_of_error`).
-/

namespace BlockScript

namespace Reading

variable {α β : Type} {r : Reading α}

/-- The reading has a value, or has failed for another reason than that the lines end in a body. -/
def Settled (r : Reading α) : Prop := ∀ e, r.result = .error e → e.cause ≠ .unclosedBody

theorem settled_of_eq_ok {a : α} (h : r.result = .ok a) : r.Settled := by
  intro e he
  rw [h] at he
  cases he

theorem settled_of_eq_error {e : ParseError} (h : r.result = .error e)
    (hc : e.cause ≠ .unclosedBody) : r.Settled := by
  intro d hd
  rw [h] at hd
  cases hd
  exact hc

theorem settled_error_iff {e : ParseError} {n : Nat} :
    (⟨.error e, n⟩ : Reading α).Settled ↔ e.cause ≠ .unclosedBody :=
  ⟨fun h => h e rfl, settled_of_eq_error rfl⟩

theorem settled_map_iff (f : α → β) : (r.map f).Settled ↔ r.Settled := by
  obtain ⟨result, n⟩ := r
  cases result <;> simp [Settled, map, Except.map]

theorem settled_after_iff (n : Nat) : (r.after n).Settled ↔ r.Settled := Iff.rfl

theorem settled_within_iff (line : Int) : (r.within line).Settled ↔ r.Settled := by
  obtain ⟨result, n⟩ := r
  cases result with
  | ok a => exact iff_of_true (settled_of_eq_ok rfl) (settled_of_eq_ok rfl)
  | error e =>
    show (⟨.error (e.within line), n⟩ : Reading α).Settled ↔ _
    rw [settled_error_iff, settled_error_iff, ParseError.cause_within]

theorem map_map {γ : Type} (f : α → β) (g : β → γ) : (r.map f).map g = r.map (g ∘ f) := by
  obtain ⟨result, n⟩ := r
  cases result <;> rfl

theorem map_after (f : α → β) (n : Nat) : (r.after n).map f = (r.map f).after n := rfl

theorem after_after (m n : Nat) : (r.after n).after m = r.after (m + n) := by
  rw [after, after, after, Nat.add_assoc]

end Reading

namespace Block

variable {depth : Nat} {body : List Line → Reading (List Block)} {line : Line} {lines : List Line}

/-- A reader of bodies that passes none but the lines it is given, and that gives the same when
more lines follow, if what it gives is settled. -/
structure Local (body : List Line → Reading (List Block)) : Prop where
  passed_le : ∀ lines, (body lines).passed ≤ lines.length
  append : ∀ lines rest, (body lines).Settled → body (lines ++ rest) = body lines

/-! ## One block -/

theorem passed_readStatement_le (hbody : Local body) (tokens : List Token) (lines : List Line) :
    (readStatement depth body tokens lines).passed ≤ lines.length := by
  rw [readStatement_eq]
  cases Statement.ofTokensWith (Argument.ofToken depth) tokens with
  | error cause => exact Nat.zero_le _
  | ok statement =>
    rw [Reading.ofExcept_ok_andThen]
    cases statement with
    | opening header => exact hbody.passed_le lines
    | command c => exact Nat.zero_le _

theorem readStatement_append (hbody : Local body) (tokens : List Token) (rest : List Line)
    (h : (readStatement depth body tokens lines).Settled) :
    readStatement depth body tokens (lines ++ rest) = readStatement depth body tokens lines := by
  rw [readStatement_eq] at h ⊢
  rw [readStatement_eq]
  cases hs : Statement.ofTokensWith (Argument.ofToken depth) tokens with
  | error cause => rfl
  | ok statement =>
    rw [hs, Reading.ofExcept_ok_andThen] at h
    rw [Reading.ofExcept_ok_andThen, Reading.ofExcept_ok_andThen]
    cases statement with
    | opening header =>
      rw [Statement.reading, Reading.settled_map_iff] at h
      rw [Statement.reading, Statement.reading, hbody.append lines rest h]
    | command c => rfl

theorem passed_readWith_le (hbody : Local body) (lines : List Line) :
    (readWith depth body lines).passed ≤ lines.length := by
  cases lines with
  | nil => exact Nat.le_refl 0
  | cons line lines =>
    cases ht : tokenize line.text with
    | error cause =>
      rw [readWith_of_error ht]
      exact Nat.zero_le _
    | ok tokens =>
      cases tokens with
      | nil =>
        rw [readWith_of_nil ht]
        exact Nat.le_add_left 1 lines.length
      | cons first rest =>
        have hs : (readStatement depth body (first :: rest) lines).passed ≤ lines.length :=
          passed_readStatement_le hbody (first :: rest) lines
        rw [readWith_of_cons ht, Reading.passed_after, Reading.passed_map, Reading.passed_within,
          List.length_cons]
        omega

theorem readWith_append (hbody : Local body) (rest : List Line)
    (h : (readWith depth body (line :: lines)).Settled) :
    readWith depth body (line :: (lines ++ rest)) = readWith depth body (line :: lines) := by
  cases ht : tokenize line.text with
  | error cause => rw [readWith_of_error ht, readWith_of_error ht]
  | ok tokens =>
    cases tokens with
    | nil => rw [readWith_of_nil ht, readWith_of_nil ht]
    | cons first tokens =>
      rw [readWith_of_cons ht, Reading.settled_after_iff, Reading.settled_map_iff,
        Reading.settled_within_iff] at h
      rw [readWith_of_cons ht, readWith_of_cons ht, readStatement_append hbody _ rest h]

/-- A block that is read has passed its first line and at most all others, and is read whatever
follows. -/
theorem exists_readWith_append (hbody : Local body) {block : Option Block}
    (h : (readWith depth body (line :: lines)).result = .ok block) :
    ∃ n ≤ lines.length, readWith depth body (line :: lines) = ⟨.ok block, n + 1⟩ ∧
      ∀ rest, readWith depth body (line :: (lines ++ rest)) = ⟨.ok block, n + 1⟩ := by
  obtain ⟨n, hn⟩ := exists_passed_of_readWith h
  have hp : (readWith depth body (line :: lines)).passed ≤ (line :: lines).length :=
    passed_readWith_le hbody (line :: lines)
  rw [hn, List.length_cons] at hp
  refine ⟨n, Nat.le_of_succ_le_succ hp, hn, fun rest => ?_⟩
  rw [readWith_append hbody rest (Reading.settled_of_eq_ok h), hn]

/-! ## Bodies -/

theorem passed_readBodyWith_le (hbody : Local body) (allowExtra : Bool) (lines : List Line) :
    (readBodyWith (readWith depth body) allowExtra lines).passed ≤ lines.length := by
  cases lines with
  | nil =>
    rw [readBodyWith_nil]
    exact Nat.le_refl 0
  | cons line lines =>
    cases hc : closing? line with
    | some extra =>
      rw [readBodyWith_of_closing hc, List.length_cons]
      split
      · exact Nat.zero_le _
      · exact Nat.le_add_left 1 lines.length
    | none =>
      cases hr : (readWith depth body (line :: lines)).result with
      | error e =>
        rw [readBodyWith_of_error hc hr]
        exact passed_readWith_le hbody (line :: lines)
      | ok block =>
        obtain ⟨n, hn, hfirst, -⟩ := exists_readWith_append hbody hr
        have ih := passed_readBodyWith_le hbody allowExtra (lines.drop n)
        rw [readBodyWith_of_ok hc hfirst, Reading.passed_after, Reading.passed_map]
        rw [List.length_drop] at ih
        rw [List.length_cons]
        omega
termination_by lines.length
decreasing_by simp only [List.length_drop, List.length_cons]; omega

theorem readBodyWith_append (hbody : Local body) (allowExtra : Bool) (rest : List Line) :
    ∀ lines : List Line, (readBodyWith (readWith depth body) allowExtra lines).Settled →
      readBodyWith (readWith depth body) allowExtra (lines ++ rest) =
        readBodyWith (readWith depth body) allowExtra lines
  | [], h => by
    rw [readBodyWith_nil] at h
    exact absurd rfl (h _ rfl)
  | line :: lines, h => by
    rw [List.cons_append]
    cases hc : closing? line with
    | some extra => rw [readBodyWith_of_closing hc, readBodyWith_of_closing hc]
    | none =>
      cases hr : (readWith depth body (line :: lines)).result with
      | error e =>
        rw [readBodyWith_of_error hc hr] at h
        have hs := readWith_append hbody rest (Reading.settled_of_eq_error hr (h e rfl))
        rw [readBodyWith_of_error hc hr, readBodyWith_of_error hc (hs ▸ hr), hs]
      | ok block =>
        obtain ⟨n, hn, hfirst, hread⟩ := exists_readWith_append hbody hr
        rw [readBodyWith_of_ok hc hfirst, Reading.settled_after_iff, Reading.settled_map_iff] at h
        rw [readBodyWith_of_ok hc hfirst, readBodyWith_of_ok hc (hread rest),
          List.drop_append_of_le_length hn,
          readBodyWith_append hbody allowExtra rest (lines.drop n) h]
termination_by lines => lines.length
decreasing_by simp only [List.length_drop, List.length_cons]; omega

theorem local_readBody (depth : Nat) : Local (readBody depth) := by
  induction depth with
  | zero => exact ⟨fun _ => Nat.zero_le _, fun _ _ _ => rfl⟩
  | succ depth ih =>
    refine ⟨fun lines => ?_, fun lines rest h => ?_⟩
    · rw [readBody_succ]
      exact passed_readBodyWith_le ih false lines
    · rw [readBody_succ] at h ⊢
      rw [readBody_succ]
      exact readBodyWith_append ih false rest lines h

/-! ## All blocks -/

/-- A block at top level has passed its first line and at most all others, and is read whatever
follows. -/
theorem exists_read_append {block : Option Block} (h : (read (line :: lines)).result = .ok block) :
    ∃ n ≤ lines.length, read (line :: lines) = ⟨.ok block, n + 1⟩ ∧
      ∀ rest, read (line :: (lines ++ rest)) = ⟨.ok block, n + 1⟩ :=
  exists_readWith_append (local_readBody maxNesting) h

/-- The blocks of some lines come in front of those of the lines that follow. -/
theorem readAll_append_of_ok (rest : List Line) : ∀ (lines : List Line) {bs : List Block},
    (readAll lines).result = .ok bs →
      readAll (lines ++ rest) = ((readAll rest).map (bs ++ ·)).after lines.length
  | [], bs, h => by
    rw [readAll_nil] at h
    cases h
    rw [List.nil_append, List.length_nil]
    obtain ⟨result, n⟩ := readAll rest
    cases result <;> simp [Reading.map, Reading.after, Except.map]
  | line :: lines, bs, h => by
    cases hr : (read (line :: lines)).result with
    | error e =>
      rw [readAll_of_error hr] at h
      cases h
    | ok block =>
      obtain ⟨n, hn, hfirst, hread⟩ := exists_read_append hr
      rw [readAll_of_ok hfirst] at h
      obtain ⟨cs, hcs, rfl⟩ := exists_ok_of_map_eq_ok h
      have ih := readAll_append_of_ok rest (lines.drop n) hcs
      have hlen : n + 1 + (lines.drop n).length = (line :: lines).length := by
        rw [List.length_drop, List.length_cons]
        omega
      rw [List.cons_append, readAll_of_ok (hread rest), List.drop_append_of_le_length hn, ih,
        ← hlen, Reading.map_after, Reading.after_after, Reading.map_map]
      simp only [Function.comp_def, List.append_assoc]
termination_by lines => lines.length
decreasing_by simp only [List.length_drop, List.length_cons]; omega

/-- A mistake in some lines, other than a body that they leave open, comes before all that is wrong
with the lines that follow. -/
theorem readAll_append_of_error (rest : List Line) : ∀ (lines : List Line) {e : ParseError},
    (readAll lines).result = .error e → e.cause ≠ .unclosedBody →
      (readAll (lines ++ rest)).result = .error e
  | [], e, h, _ => by
    rw [readAll_nil] at h
    cases h
  | line :: lines, e, h, hc => by
    rw [List.cons_append]
    cases hr : (read (line :: lines)).result with
    | error d =>
      rw [readAll_of_error hr] at h
      obtain rfl : d.atTopLevel line.number = e := Except.error.inj h
      rw [ParseError.cause_atTopLevel] at hc
      have hs : read (line :: (lines ++ rest)) = read (line :: lines) :=
        readWith_append (local_readBody maxNesting) rest (Reading.settled_of_eq_error hr hc)
      rw [readAll_of_error (hs ▸ hr)]
    | ok block =>
      obtain ⟨n, hn, hfirst, hread⟩ := exists_read_append hr
      rw [readAll_of_ok hfirst] at h
      have hrest := readAll_append_of_error rest (lines.drop n) (map_eq_error_iff.1 h) hc
      rw [readAll_of_ok (hread rest), List.drop_append_of_le_length hn]
      exact map_eq_error_iff.2 hrest
termination_by lines => lines.length
decreasing_by simp only [List.length_drop, List.length_cons]; omega

end Block

end BlockScript
