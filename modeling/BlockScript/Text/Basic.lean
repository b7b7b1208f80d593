/-!
# Texts

A text is the list of its characters.  This file cuts a text at its line feeds (`Text.lines`),
joins pieces with a separator (`Text.join`), and writes numbers in decimal (`Text.decimal`) and
hexadecimal (`Text.hex`).
-/

namespace BlockScript

/-- A text, character by character. -/
abbrev Text := List Char

namespace Text

/-- The pieces of a text between the places where `sep` stands; there is always at least one. -/
def pieces (sep : Char) : Text → List Text
  | [] => [[]]
  | c :: cs => if c = sep then [] :: pieces sep cs else (pieces sep cs).modifyHead (c :: ·)

/-- The pieces of a text between its line feeds. -/
def lines (text : Text) : List Text := pieces '\n' text

/-- The pieces one after the other with `sep` between neighbours. -/
def join (sep : Text) : List Text → Text
  | [] => []
  | [piece] => piece
  | piece :: rest => piece ++ sep ++ join sep rest

/-- The pieces put on lines of their own, without a final line feed. -/
def unlines (pieces : List Text) : Text := join ['\n'] pieces

/-- The text without its last character, if that character is `c`. -/
def chop? (c : Char) (text : Text) : Option Text :=
  if text.getLast? = some c then some text.dropLast else none

/-- A whole number in decimal, with a minus sign below zero. -/
def decimal : Int → Text
  | .ofNat n => Nat.toDigits 10 n
  | .negSucc n => '-' :: Nat.toDigits 10 (n + 1)

/-- The last `width` hexadecimal digits of a number. -/
def hex : (width n : Nat) → Text
  | 0, _ => []
  | width + 1, n => hex width (n / 16) ++ [Nat.digitChar (n % 16)]

/-- As many spaces as `n` says; none at all when it is negative. -/
def spaces (n : Int) : Text := List.replicate n.toNat ' '

/-! ## Cutting and joining -/

theorem pieces_ne_nil (sep : Char) (text : Text) : pieces sep text ≠ [] := by
  induction text with
  | nil => simp [pieces]
  | cons c cs ih =>
    unfold pieces
    split
    · simp
    · cases h : pieces sep cs with
      | nil => exact absurd h ih
      | cons p ps => simp

/-- The pieces of two texts with the separator between them. -/
theorem pieces_append (sep : Char) (s t : Text) :
    pieces sep (s ++ sep :: t) = pieces sep s ++ pieces sep t := by
  induction s with
  | nil => simp [pieces]
  | cons c cs ih =>
    rw [List.cons_append, pieces, pieces, ih]
    split
    · rfl
    · cases h : pieces sep cs with
      | nil => exact absurd h (pieces_ne_nil sep cs)
      | cons p ps => rfl

theorem length_pieces (sep : Char) (text : Text) :
    (pieces sep text).length = text.count sep + 1 := by
  induction text with
  | nil => rfl
  | cons c cs ih =>
    unfold pieces
    split
    · next hc => rw [List.length_cons, ih, hc, List.count_cons_self]
    · next hc => rw [List.length_modifyHead, ih, List.count_cons_of_ne hc]

theorem join_cons_cons (sep p q : Text) (ps : List Text) :
    join sep (p :: q :: ps) = p ++ sep ++ join sep (q :: ps) :=
  rfl

theorem not_mem_of_mem_pieces {sep : Char} {text p : Text} (h : p ∈ pieces sep text) : sep ∉ p := by
  induction text generalizing p with
  | nil =>
    rw [pieces, List.mem_singleton] at h
    rw [h]
    exact List.not_mem_nil
  | cons c cs ih =>
    unfold pieces at h
    split at h
    · rcases List.mem_cons.1 h with rfl | h
      · exact List.not_mem_nil
      · exact ih h
    · next hc =>
      cases hps : pieces sep cs with
      | nil => exact absurd hps (pieces_ne_nil sep cs)
      | cons q qs =>
        rw [hps] at h ih
        rcases List.mem_cons.1 h with rfl | h
        · simpa [Ne.symm hc] using ih (List.mem_cons_self)
        · exact ih (List.mem_cons_of_mem _ h)

theorem join_pieces (sep : Char) (text : Text) : join [sep] (pieces sep text) = text := by
  induction text with
  | nil => rfl
  | cons c cs ih =>
    unfold pieces
    cases h : pieces sep cs with
    | nil => exact absurd h (pieces_ne_nil sep cs)
    | cons p ps =>
      rw [h] at ih
      split
      · next hc => rw [join_cons_cons, ih, hc]; rfl
      · cases ps with
        | nil => simpa [join] using ih
        | cons q ps => rw [join_cons_cons] at ih; simp [join_cons_cons, ih]

/-- Cutting at the line feeds and joining again gives the text back. -/
theorem unlines_lines (text : Text) : unlines (lines text) = text := join_pieces '\n' text

theorem unlines_append {ps qs : List Text} (hp : ps ≠ []) (hq : qs ≠ []) :
    unlines (ps ++ qs) = unlines ps ++ '\n' :: unlines qs := by
  induction ps with
  | nil => exact absurd rfl hp
  | cons p ps ih =>
    cases ps with
    | nil =>
      obtain ⟨q, qs, rfl⟩ := List.exists_cons_of_ne_nil hq
      show p ++ ['\n'] ++ unlines (q :: qs) = p ++ '\n' :: unlines (q :: qs)
      simp
    | cons p' ps =>
      show p ++ ['\n'] ++ unlines ((p' :: ps) ++ qs) =
        (p ++ ['\n'] ++ unlines (p' :: ps)) ++ '\n' :: unlines qs
      rw [ih (List.cons_ne_nil _ _)]
      simp

end Text

end BlockScript
