import BlockScript.Text.Basic

/-!
# What can be wrong with a script

A `Cause` names the mistake that ends a reading.  A `ParseError` adds the numbers of the lines it
was found in, the outermost first: a mistake inside the body of a loop is reported with the line
that opened the loop, and so on inwards.
-/

namespace BlockScript

/-- The mistakes that reading a script can end with. -/
inductive Cause where
  | unterminatedString
  | unclosedParenthesis
  | strayParenthesis
  | emptyCommand
  | unopenedFor
  | unopenedWhile
  | forArity
  | textAfterClose
  | unclosedBody
  | nestingTooDeep
  | danglingContinuation (line : Int)
  deriving DecidableEq, Repr

/-- The wording of a mistake. -/
def Cause.message : Cause → Text
  | unterminatedString => "Unterminated string.".toList
  | unclosedParenthesis => "Missing ).".toList
  | strayParenthesis => "Unexpected ).".toList
  | emptyCommand => "No tokens in command.".toList
  | unopenedFor => "Missing \x7b in for-loop.".toList
  | unopenedWhile => "Missing \x7b in while-loop.".toList
  | forArity => "Invalid number of arguments for for-loop.".toList
  | textAfterClose => "Unexpected tokens after \x7d.".toList
  | unclosedBody => "Missing \x7d.".toList
  | nestingTooDeep => "Nesting too deep.".toList
  | danglingContinuation line =>
    "Unexpected end of script after \\ on line ".toList ++ Text.decimal line ++ ['.']

/-- A mistake with the numbers of the lines that lead to it, the outermost first. -/
structure ParseError where
  trace : List Int
  cause : Cause
  deriving DecidableEq, Repr

namespace ParseError

/-- What is put in front of a message for one line of the trace. -/
def label (line : Int) : Text := "Error at line ".toList ++ Text.decimal line ++ ": ".toList

/-- The labels of the trace followed by the wording of the mistake. -/
def message (e : ParseError) : Text := e.trace.flatMap label ++ e.cause.message

/-- The error as seen from the line that contains it; too deep a nesting is not traced. -/
def within (line : Int) (e : ParseError) : ParseError :=
  if e.cause = .nestingTooDeep then e else { e with trace := line :: e.trace }

/-- The error as a whole program reports it: too deep a nesting is put down to the line of the
block that was being read at top level. -/
def atTopLevel (line : Int) (e : ParseError) : ParseError :=
  if e.cause = .nestingTooDeep then { e with trace := [line] } else e

@[simp]
theorem cause_within (line : Int) (e : ParseError) : (e.within line).cause = e.cause := by
  unfold within
  split <;> rfl

@[simp]
theorem cause_atTopLevel (line : Int) (e : ParseError) : (e.atTopLevel line).cause = e.cause := by
  unfold atTopLevel
  split <;> rfl

end ParseError

/-! ## Results -/

section Except

variable {ε α β : Type} {e : ε}

theorem exists_ok_of_map_eq_ok {x : Except ε α} {f : α → β} {b : β} (h : x.map f = .ok b) :
    ∃ a, x = .ok a ∧ f a = b := by
  cases x with
  | error e => cases h
  | ok a => exact ⟨a, rfl, by cases h; rfl⟩

theorem map_eq_error_iff {x : Except ε α} {f : α → β} : x.map f = .error e ↔ x = .error e := by
  cases x <;> simp [Except.map]

theorem bind_eq_error_iff {x : Except ε α} {f : α → Except ε β} :
    x >>= f = .error e ↔ x = .error e ∨ ∃ a, x = .ok a ∧ f a = .error e := by
  cases x with
  | error c =>
    show Except.error c = .error e ↔ _
    simp
  | ok a =>
    show f a = .error e ↔ _
    simp

theorem bind_eq_ok_iff {x : Except ε α} {f : α → Except ε β} {b : β} :
    x >>= f = .ok b ↔ ∃ a, x = .ok a ∧ f a = .ok b := by
  cases x with
  | error e =>
    show Except.error e = .ok b ↔ _
    simp
  | ok a =>
    show f a = .ok b ↔ _
    simp

theorem mapM_cons_eq_ok_iff {f : α → Except ε β} {a : α} {as : List α} {bs : List β} :
    (a :: as).mapM f = .ok bs ↔ ∃ c cs, f a = .ok c ∧ as.mapM f = .ok cs ∧ bs = c :: cs := by
  rw [List.mapM_cons, bind_eq_ok_iff]
  simp [bind_eq_ok_iff, pure, Except.pure, @eq_comm _ _ bs]

theorem mapM_cons_eq_error_iff {f : α → Except ε β} {a : α} {as : List α} :
    (a :: as).mapM f = .error e ↔ f a = .error e ∨ ∃ b, f a = .ok b ∧ as.mapM f = .error e := by
  rw [List.mapM_cons, bind_eq_error_iff]
  simp [bind_eq_error_iff, pure, Except.pure]

theorem exists_mem_of_mapM_eq_error {f : α → Except ε β} {as : List α}
    (h : as.mapM f = .error e) : ∃ a ∈ as, f a = .error e := by
  induction as with
  | nil => cases h
  | cons a as ih =>
    rcases mapM_cons_eq_error_iff.1 h with h | ⟨-, -, h⟩
    · exact ⟨a, by simp, h⟩
    · obtain ⟨b, hm, hb⟩ := ih h
      exact ⟨b, by simp [hm], hb⟩

theorem exists_ok_of_mem_of_mapM_eq_ok {f : α → Except ε β} {as : List α} {bs : List β} {a : α}
    (h : as.mapM f = .ok bs) (ha : a ∈ as) : ∃ b, f a = .ok b := by
  induction as generalizing bs with
  | nil => cases ha
  | cons c cs ih =>
    obtain ⟨d, ds, hc, hcs, -⟩ := mapM_cons_eq_ok_iff.1 h
    rcases List.mem_cons.1 ha with rfl | ha
    · exact ⟨d, hc⟩
    · exact ih hcs ha

end Except

end BlockScript
