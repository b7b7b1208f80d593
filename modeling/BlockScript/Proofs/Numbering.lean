import BlockScript.Proofs.Statement

/-!
# Line numbers

The readers of blocks look at the texts of lines only; the number of a line is what a mistake is
reported under, and nothing else.  So reading lines that are numbered otherwise gives the same
blocks, or the same mistake with the lines numbered otherwise (`Block.readAll_renumber`).
-/

namespace BlockScript

variable (f : Int → Int)

/-- The line under another number. -/
def Line.renumber (line : Line) : Line := { line with number := f line.number }

/-- The mistake with the line in it, if there is one, under another number. -/
def Cause.renumber : Cause → Cause
  | .danglingContinuation line => .danglingContinuation (f line)
  | cause => cause

/-- The error with all lines under other numbers. -/
def ParseError.renumber (e : ParseError) : ParseError := ⟨e.trace.map f, e.cause.renumber f⟩

/-- The reading as it is when lines stand under other numbers. -/
def Reading.renumber {α : Type} (r : Reading α) : Reading α :=
  { r with result := r.result.mapError (·.renumber f) }

variable {f}

theorem Cause.renumber_eq_iff {cause other : Cause} (h : ∀ n, other ≠ .danglingContinuation n) :
    cause.renumber f = other ↔ cause = other := by
  cases cause with
  | danglingContinuation n =>
    exact iff_of_false (fun he => h (f n) he.symm) (fun he => h n he.symm)
  | _ => rfl

theorem Cause.InLine.renumber {cause : Cause} (h : cause.InLine) : cause.renumber f = cause := by
  cases cause with
  | danglingContinuation n => exact h.elim
  | _ => rfl

namespace ParseError

variable (line : Int) (e : ParseError)

theorem renumber_within : (e.within line).renumber f = (e.renumber f).within (f line) := by
  have hc : (e.renumber f).cause = .nestingTooDeep ↔ e.cause = .nestingTooDeep :=
    Cause.renumber_eq_iff nofun
  by_cases h : e.cause = .nestingTooDeep
  · rw [within, within, if_pos h, if_pos (hc.2 h)]
  · rw [within, within, if_neg h, if_neg (mt hc.1 h)]
    rfl

theorem renumber_atTopLevel :
    (e.atTopLevel line).renumber f = (e.renumber f).atTopLevel (f line) := by
  have hc : (e.renumber f).cause = .nestingTooDeep ↔ e.cause = .nestingTooDeep :=
    Cause.renumber_eq_iff nofun
  by_cases h : e.cause = .nestingTooDeep
  · rw [atTopLevel, atTopLevel, if_pos h, if_pos (hc.2 h)]
    rfl
  · rw [atTopLevel, atTopLevel, if_neg h, if_neg (mt hc.1 h)]

end ParseError

namespace Reading

variable {α β : Type} (r : Reading α)

theorem renumber_map (g : α → β) : (r.map g).renumber f = (r.renumber f).map g := by
  obtain ⟨result, n⟩ := r
  cases result <;> rfl

theorem renumber_after (n : Nat) : (r.after n).renumber f = (r.renumber f).after n := rfl

theorem renumber_within (line : Int) :
    (r.within line).renumber f = (r.renumber f).within (f line) := by
  obtain ⟨result, n⟩ := r
  cases result with
  | ok a => rfl
  | error e =>
    show (⟨.error ((e.within line).renumber f), n⟩ : Reading α) = _
    rw [ParseError.renumber_within]
    rfl

theorem renumber_fail {cause : Cause} (h : cause.InLine) (n : Nat) :
    (fail cause n : Reading α).renumber f = fail cause n := by
  show (⟨.error ⟨[], cause.renumber f⟩, n⟩ : Reading α) = _
  rw [h.renumber]
  rfl

end Reading

namespace Block

variable {depth : Nat} {body : List Line → Reading (List Block)}

/-- A reader for which the numbers of lines are but what mistakes are reported under. -/
def Renumbers {α : Type} (f : Int → Int) (reader : List Line → Reading α) : Prop :=
  ∀ lines, reader (lines.map (Line.renumber f)) = (reader lines).renumber f

theorem closing?_renumber (line : Line) : closing? (line.renumber f) = closing? line := rfl

theorem renumbers_readStatement (hbody : Renumbers f body) (tokens : List Token) :
    Renumbers f (readStatement depth body tokens) := by
  intro lines
  rw [readStatement_eq, readStatement_eq]
  cases hs : Statement.ofTokensWith (Argument.ofToken depth) tokens with
  | error cause =>
    have hc : cause.InLine :=
      Statement.inLine_of_ofTokensWith (fun _ _ => Argument.inLine_of_ofToken) hs
    exact (Reading.renumber_fail hc 0).symm
  | ok statement =>
    rw [Reading.ofExcept_ok_andThen, Reading.ofExcept_ok_andThen]
    cases statement with
    | opening header =>
      rw [Statement.reading, Statement.reading, hbody lines, Reading.renumber_map]
    | command c => rfl

theorem renumbers_readWith (hbody : Renumbers f body) : Renumbers f (readWith depth body) := by
  intro lines
  cases lines with
  | nil => rfl
  | cons line lines =>
    rw [List.map_cons]
    cases ht : tokenize line.text with
    | error cause =>
      have ht' : tokenize (line.renumber f).text = .error cause := ht
      rw [readWith_of_error ht, readWith_of_error ht', Reading.renumber_within,
        Reading.renumber_fail (isLexical_of_tokenize ht).inLine]
      rfl
    | ok tokens =>
      have ht' : tokenize (line.renumber f).text = .ok tokens := ht
      cases tokens with
      | nil =>
        rw [readWith_of_nil ht, readWith_of_nil ht']
        rfl
      | cons first rest =>
        rw [readWith_of_cons ht, readWith_of_cons ht', renumbers_readStatement hbody _ lines,
          Reading.renumber_after, Reading.renumber_map, Reading.renumber_within]
        rfl

theorem readBodyWith_renumber (hbody : Renumbers f body) (allowExtra : Bool) :
    ∀ lines : List Line,
      readBodyWith (readWith depth body) allowExtra (lines.map (Line.renumber f)) =
        (readBodyWith (readWith depth body) allowExtra lines).renumber f
  | [] => by
    rw [List.map_nil, readBodyWith_nil]
    rfl
  | line :: lines => by
    have hread : readWith depth body ((line :: lines).map (Line.renumber f)) =
        (readWith depth body (line :: lines)).renumber f :=
      renumbers_readWith hbody (line :: lines)
    rw [List.map_cons] at hread ⊢
    cases hc : closing? line with
    | some extra =>
      rw [readBodyWith_of_closing hc, readBodyWith_of_closing ((closing?_renumber line).trans hc)]
      split <;> rfl
    | none =>
      have hc' : closing? (line.renumber f) = none := (closing?_renumber line).trans hc
      cases hr : (readWith depth body (line :: lines)).result with
      | error e =>
        have hr' : (readWith depth body (line.renumber f :: lines.map (Line.renumber f))).result =
            .error (e.renumber f) := by
          rw [hread, Reading.renumber, hr]
          rfl
        rw [readBodyWith_of_error hc hr, readBodyWith_of_error hc' hr', hread]
        rfl
      | ok block =>
        obtain ⟨n, hn⟩ := exists_passed_of_readWith hr
        rw [hn] at hread
        rw [readBodyWith_of_ok hc hn, readBodyWith_of_ok hc' hread, ← List.map_drop,
          readBodyWith_renumber hbody allowExtra (lines.drop n), Reading.renumber_after,
          Reading.renumber_map]
termination_by lines => lines.length
decreasing_by simp only [List.length_drop, List.length_cons]; omega

theorem renumbers_readBody (depth : Nat) : Renumbers f (readBody depth) := by
  induction depth with
  | zero => exact fun lines => rfl
  | succ depth ih =>
    intro lines
    rw [readBody_succ, readBody_succ]
    exact readBodyWith_renumber ih false lines

/-- All blocks of some lines are the same under other numbers, and what is wrong with the lines is
reported under these. -/
theorem readAll_renumber : ∀ lines : List Line,
    readAll (lines.map (Line.renumber f)) = (readAll lines).renumber f
  | [] => by
    rw [List.map_nil, readAll_nil]
    rfl
  | line :: lines => by
    have hread : read (line.renumber f :: lines.map (Line.renumber f)) =
        (read (line :: lines)).renumber f :=
      renumbers_readWith (renumbers_readBody maxNesting) (line :: lines)
    rw [List.map_cons]
    cases hr : (read (line :: lines)).result with
    | error e =>
      have hr' : (read (line.renumber f :: lines.map (Line.renumber f))).result =
          .error (e.renumber f) := by
        rw [hread, Reading.renumber, hr]
        rfl
      rw [readAll_of_error hr, readAll_of_error hr', hread]
      show (⟨.error ((e.renumber f).atTopLevel (f line.number)), _⟩ : Reading (List Block)) =
        ⟨.error ((e.atTopLevel line.number).renumber f), _⟩
      rw [ParseError.renumber_atTopLevel]
      rfl
    | ok block =>
      obtain ⟨n, hn⟩ : ∃ n, read (line :: lines) = ⟨.ok block, n + 1⟩ :=
        exists_passed_of_readWith hr
      rw [hn] at hread
      rw [readAll_of_ok hn, readAll_of_ok hread, ← List.map_drop, readAll_renumber (lines.drop n),
        Reading.renumber_after, Reading.renumber_map]
termination_by lines => lines.length
decreasing_by simp only [List.length_drop, List.length_cons]; omega

end Block

end BlockScript
