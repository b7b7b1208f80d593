import BlockScript.Error

/-!
# How messages end

A mistake that is put down to an open body can be told from its message alone: no other message
ends in the same words (`ParseError.isSuffix_message_iff`).  So can too deep a nesting
(`ParseError.isSuffix_message_nestingTooDeep_iff`).
-/

namespace BlockScript

namespace Text

theorem mem_decimal {c : Char} {i : Int} (h : c ∈ decimal i) : c = '-' ∨ c.isDigit := by
  cases i with
  | ofNat n => exact .inr (Nat.isDigit_of_mem_toDigits (by decide) (by decide) h)
  | negSucc n =>
    rcases List.mem_cons.1 h with rfl | h
    · exact .inl rfl
    · exact .inr (Nat.isDigit_of_mem_toDigits (by decide) (by decide) h)

theorem decimal_ne_nil (i : Int) : decimal i ≠ [] := by
  cases i with
  | ofNat n => exact Nat.toDigits_ne_nil
  | negSucc n => exact List.cons_ne_nil _ _

end Text

namespace Cause

theorem message_danglingContinuation (line : Int) :
    (danglingContinuation line).message =
      "Unexpected end of script after \\ on line ".toList ++ Text.decimal line ++ ['.'] :=
  rfl

theorem length_message_le (cause : Cause) : 10 ≤ cause.message.length := by
  cases cause with
  | danglingContinuation line =>
    have h : 10 ≤ "Unexpected end of script after \\ on line ".toList.length := by decide
    rw [message_danglingContinuation, List.length_append, List.length_append]
    omega
  | _ => decide

/-- The wording of an unfinished line ends in a number and a dot. -/
theorem not_isSuffix_message_danglingContinuation {c : Char} (hc : c ≠ '-' ∧ c.isDigit = false)
    (words : Text) (line : Int) :
    ¬ words ++ [c] ++ ['.'] <:+ (danglingContinuation line).message := by
  rintro ⟨front, h⟩
  -- the character before the last would be a digit of the line
  rw [message_danglingContinuation, ← List.append_assoc, ← List.append_assoc] at h
  have hlast := congrArg List.getLast? (List.append_cancel_right h)
  have hne := Text.decimal_ne_nil line
  rw [List.getLast?_concat, List.getLast?_append, List.getLast?_eq_some_getLast hne,
    Option.some_or] at hlast
  have hmem := List.getLast_mem hne
  rw [← Option.some.inj hlast] at hmem
  rcases Text.mem_decimal hmem with h | h
  · exact hc.1 h
  · rw [hc.2] at h
    cases h

theorem isSuffix_message_iff {cause : Cause} :
    "Missing \x7d.".toList <:+ cause.message ↔ cause = .unclosedBody := by
  cases cause with
  | danglingContinuation line =>
    have hends : ¬ "Missing \x7d.".toList <:+ (danglingContinuation line).message :=
      not_isSuffix_message_danglingContinuation (by decide) "Missing ".toList line
    exact iff_of_false hends nofun
  | _ => decide

theorem isSuffix_message_nestingTooDeep_iff {cause : Cause} :
    (nestingTooDeep.message <:+ cause.message ∨ cause.message <:+ nestingTooDeep.message) ↔
      cause = .nestingTooDeep := by
  cases cause with
  | danglingContinuation line =>
    have hlong : ¬ (danglingContinuation line).message <:+ nestingTooDeep.message := by
      intro h
      have hle := h.length_le
      have hshort : nestingTooDeep.message.length <
          "Unexpected end of script after \\ on line ".toList.length := by decide
      rw [message_danglingContinuation, List.length_append, List.length_append] at hle
      omega
    refine iff_of_false ?_ nofun
    rintro (h | h)
    · exact not_isSuffix_message_danglingContinuation (by decide) "Nesting too dee".toList line h
    · exact hlong h
  | _ => decide

end Cause

theorem ParseError.isSuffix_message_iff {e : ParseError} :
    "Missing \x7d.".toList <:+ e.message ↔ e.cause = .unclosedBody := by
  rw [← Cause.isSuffix_message_iff, message]
  refine ⟨fun h => ?_, List.suffix_append_of_suffix⟩
  exact List.suffix_of_suffix_length_le h (List.suffix_append _ _) e.cause.length_message_le

/-- Too deep a nesting can be told from the message as well. -/
theorem ParseError.isSuffix_message_nestingTooDeep_iff {e : ParseError} :
    "Nesting too deep.".toList <:+ e.message ↔ e.cause = .nestingTooDeep := by
  rw [← Cause.isSuffix_message_nestingTooDeep_iff, message]
  constructor
  · intro h
    exact List.suffix_or_suffix_of_suffix h (List.suffix_append _ _)
  · intro h
    rw [Cause.isSuffix_message_nestingTooDeep_iff] at h
    rw [h]
    exact List.suffix_append _ _

theorem ParseError.message_nestingTooDeep (number : Int) :
    message ⟨[number], .nestingTooDeep⟩ =
      "Error at line ".toList ++ Text.decimal number ++ ": Nesting too deep.".toList := by
  have hlabel : [number].flatMap label = label number := List.flatMap_singleton ..
  calc [number].flatMap label ++ Cause.nestingTooDeep.message
    _ = label number ++ Cause.nestingTooDeep.message := by rw [hlabel]
    _ = "Error at line ".toList ++ Text.decimal number ++
        (": ".toList ++ Cause.nestingTooDeep.message) := List.append_assoc ..
    _ = "Error at line ".toList ++ Text.decimal number ++ ": Nesting too deep.".toList :=
      congrArg _ String.toList_append.symm

end BlockScript
