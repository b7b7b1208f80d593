import BlockScript.Program.Reading
import BlockScript.Proofs.Tokenizing

/-!
# Reading line by line

What the readers of blocks do with the first of some lines, by what its tokens are and, for the
readers that go on, by what has been read from it.
-/

namespace BlockScript

namespace Reading

variable {α β : Type}

theorem within_ok (line : Int) (a : α) (n : Nat) :
    (⟨.ok a, n⟩ : Reading α).within line = ⟨.ok a, n⟩ :=
  rfl

theorem within_error (line : Int) (e : ParseError) (n : Nat) :
    (⟨.error e, n⟩ : Reading α).within line = ⟨.error (e.within line), n⟩ :=
  rfl

theorem map_ok (f : α → β) (a : α) (n : Nat) : (⟨.ok a, n⟩ : Reading α).map f = ⟨.ok (f a), n⟩ :=
  rfl

theorem after_mk (result : Except ParseError α) (m n : Nat) :
    (⟨result, n⟩ : Reading α).after m = ⟨result, m + n⟩ :=
  rfl

theorem ofExcept_ok_andThen (a : α) (next : α → Reading β) :
    (ofExcept (.ok a)).andThen next = next a := by
  show (next a).after 0 = next a
  rw [after, Nat.zero_add]

theorem ofExcept_bind_andThen {γ : Type} (x : Except Cause α) (f : α → Except Cause β)
    (next : β → Reading γ) :
    (ofExcept (x >>= f)).andThen next =
      (ofExcept x).andThen fun a => (ofExcept (f a)).andThen next := by
  cases x with
  | error cause => rfl
  | ok a => rw [ofExcept_ok_andThen]; rfl

end Reading

namespace Block

variable {line : Line} {lines : List Line}

section Statement

variable {depth : Nat} {body : List Line → Reading (List Block)}

theorem readWith_of_error {cause : Cause} (h : tokenize line.text = .error cause) :
    readWith depth body (line :: lines) = (Reading.fail cause 0).within line.number := by
  rw [readWith, h]

theorem readWith_of_nil (h : tokenize line.text = .ok []) :
    readWith depth body (line :: lines) = ⟨.ok none, 1⟩ := by
  rw [readWith, h]

theorem readWith_of_cons {first : Token} {rest : List Token}
    (h : tokenize line.text = .ok (first :: rest)) :
    readWith depth body (line :: lines) =
      (((readStatement depth body (first :: rest) lines).within line.number).map some).after 1 := by
  rw [readWith, h]

/-- A block that is read has passed the line it begins with. -/
theorem exists_passed_of_readWith {block : Option Block}
    (h : (readWith depth body (line :: lines)).result = .ok block) :
    ∃ n, readWith depth body (line :: lines) = ⟨.ok block, n + 1⟩ := by
  cases ht : tokenize line.text with
  | error cause =>
    rw [readWith_of_error ht] at h
    cases h
  | ok tokens =>
    cases tokens with
    | nil =>
      rw [readWith_of_nil ht] at h ⊢
      exact ⟨0, by rw [← h]⟩
    | cons first rest =>
      rw [readWith_of_cons ht] at h ⊢
      refine ⟨(readStatement depth body (first :: rest) lines).passed, ?_⟩
      rw [← h, Nat.add_comm]
      rfl

end Statement

theorem closing?_eq_some_iff {extra : List Token} :
    closing? line = some extra ↔ tokenize line.text = .ok (.bodyMark :: extra) := by
  unfold closing?
  split
  · next first rest h =>
    split
    · next hf => simp [h, hf]
    · next hf => simp [h, hf]
  · next h =>
    simp only [reduceCtorEq, false_iff]
    exact h _ _

/-- A line of nothing but the closing mark closes a body. -/
theorem closing?_of_text_eq (h : line.text = ['\x7d']) : closing? line = some [] := by
  rw [closing?_eq_some_iff, h, tokenize_bodyMark]

section Body

variable {read : List Line → Reading (Option Block)} {allowExtra : Bool}

theorem readBodyWith_nil : readBodyWith read allowExtra [] = .fail .unclosedBody 0 := by
  rw [readBodyWith]

theorem readBodyWith_of_closing {extra : List Token} (h : closing? line = some extra) :
    readBodyWith read allowExtra (line :: lines) =
      if extra ≠ [] ∧ !allowExtra then .fail .textAfterClose 0 else ⟨.ok [], 1⟩ := by
  rw [readBodyWith, h]

theorem readBodyWith_of_error {e : ParseError} (hc : closing? line = none)
    (h : (read (line :: lines)).result = .error e) :
    readBodyWith read allowExtra (line :: lines) = ⟨.error e, (read (line :: lines)).passed⟩ := by
  rw [readBodyWith, hc]
  simp only [h]

theorem readBodyWith_of_ok {block : Option Block} {n : Nat} (hc : closing? line = none)
    (h : read (line :: lines) = ⟨.ok block, n + 1⟩) :
    readBodyWith read allowExtra (line :: lines) =
      ((readBodyWith read allowExtra (lines.drop n)).map (block.toList ++ ·)).after (n + 1) := by
  rw [readBodyWith, hc]
  simp only [h, Nat.add_sub_cancel]

end Body

theorem readBody_succ (depth : Nat) (lines : List Line) :
    readBody (depth + 1) lines = readBodyWith (readWith depth (readBody depth)) false lines := by
  rw [readBody]

theorem readAll_nil : readAll [] = ⟨.ok [], 0⟩ := by
  rw [readAll]

theorem readAll_of_error {e : ParseError} (h : (read (line :: lines)).result = .error e) :
    readAll (line :: lines) =
      ⟨.error (e.atTopLevel line.number), (read (line :: lines)).passed⟩ := by
  rw [readAll]
  simp only [h]

theorem readAll_of_ok {block : Option Block} {n : Nat}
    (h : read (line :: lines) = ⟨.ok block, n + 1⟩) :
    readAll (line :: lines) =
      ((readAll (lines.drop n)).map (block.toList ++ ·)).after (n + 1) := by
  rw [readAll]
  simp only [h, Nat.add_sub_cancel]

end Block

end BlockScript
