import Mathlib
import BlockScript.Proofs.Locality
import BlockScript.Proofs.Numbering
import BlockScript.Proofs.Wording

/-!
# Programs one below the other

A source below another is read as it would be alone, with its lines numbered on from those above.
If the source above is a program, its blocks come first, and what is wrong with the one below is
reported under the lines of both (`parse_append_of_ok`).  If the source above is refused for
another reason than an open body, nothing below can mend it (`parse_append_of_error`).
-/

namespace BlockScript

variable {source below : Text} {script : Script} {e : ParseError}

/-! ## Logical lines -/

namespace Text

theorem lines_append (s t : Text) : lines (s ++ '\n' :: t) = lines s ++ lines t :=
  pieces_append '\n' s t

/-- How many lines a text has, the last of which may be empty. -/
def height (text : Text) : Nat := text.count '\n' + 1

theorem length_lines (text : Text) : (lines text).length = text.height := length_pieces '\n' text

end Text

namespace Script

section Joining

variable {n : Nat} {pending : Option Line} {piece : Text} {pieces : List Text}

theorem joinContinued_of_some {front : Text} (h : Text.chop? '\\' piece = some front) :
    joinContinued n pending (piece :: pieces) =
      joinContinued (n + 1) (some { pending.getD ⟨[], n⟩ with
        text := (pending.getD ⟨[], n⟩).text ++ front }) pieces := by
  rw [joinContinued, h]

theorem joinContinued_of_none (h : Text.chop? '\\' piece = none) :
    joinContinued n pending (piece :: pieces) =
      (joinContinued (n + 1) none pieces).map ({ pending.getD ⟨[], n⟩ with
        text := (pending.getD ⟨[], n⟩).text ++ piece } :: ·) := by
  rw [joinContinued, h]

/-- Physical lines that leave nothing unfinished are joined as if none followed. -/
theorem joinContinued_append {ls : List Line} (h : joinContinued n pending pieces = .ok ls)
    (more : List Text) :
    joinContinued n pending (pieces ++ more) =
      (joinContinued (n + pieces.length) none more).map (ls ++ ·) := by
  induction pieces generalizing n pending ls with
  | nil =>
    cases pending with
    | none =>
      rw [joinContinued] at h
      cases h
      rw [List.nil_append, List.length_nil, Nat.add_zero]
      cases joinContinued n none more <;> rfl
    | some line => rw [joinContinued] at h; cases h
  | cons p ps ih =>
    have hlen : n + (p :: ps).length = n + 1 + ps.length := by
      rw [List.length_cons, Nat.add_assoc, Nat.add_comm 1]
    rw [List.cons_append, hlen]
    cases hp : Text.chop? '\\' p with
    | some front =>
      rw [joinContinued_of_some hp] at h ⊢
      exact ih h
    | none =>
      rw [joinContinued_of_none hp] at h ⊢
      obtain ⟨ms, hms, rfl⟩ := exists_ok_of_map_eq_ok h
      rw [ih hms]
      cases joinContinued (n + 1 + ps.length) none more <;> rfl

/-- Physical lines that are numbered from further down are joined alike. -/
theorem joinContinued_add (k n : Nat) (pending : Option Line) (pieces : List Text) :
    joinContinued (n + k) (pending.map (Line.renumber (· + k))) pieces =
      ((joinContinued n pending pieces).map (List.map (Line.renumber (· + k)))).mapError
        (Cause.renumber (· + k)) := by
  induction pieces generalizing n pending with
  | nil => cases pending <;> rfl
  | cons p ps ih =>
    have hline : (pending.map (Line.renumber (· + k))).getD ⟨[], ((n + k : Nat) : Int)⟩ =
        (pending.getD ⟨[], n⟩).renumber (· + k) := by
      cases pending <;> simp [Line.renumber]
    have hnext : n + k + 1 = n + 1 + k := Nat.add_right_comm n k 1
    cases hp : Text.chop? '\\' p with
    | some front =>
      rw [joinContinued_of_some hp, joinContinued_of_some hp, hline, hnext, ← ih]
      rfl
    | none =>
      have hrest := ih (n + 1) none
      rw [Option.map_none] at hrest
      rw [joinContinued_of_none hp, joinContinued_of_none hp, hline, hnext, hrest]
      cases joinContinued (n + 1) none ps <;> rfl

end Joining

/-- The script of a source below another, of which all lines are finished. -/
theorem ofSource_append (h : ofSource source = .ok script) (below : Text) :
    ofSource (source ++ '\n' :: below) =
      ((ofSource below).map fun s =>
          ⟨script.lines ++ s.lines.map (Line.renumber (· + source.height))⟩).mapError
        (·.renumber (· + source.height)) := by
  unfold ofSource at h
  split at h
  · next ls hls =>
    cases h
    have hadd := joinContinued_add source.height 1 none ((Text.lines below).map physicalLine)
    rw [Option.map_none] at hadd
    rw [ofSource, ofSource, Text.lines_append, List.map_append, joinContinued_append hls,
      List.length_map, Text.length_lines, hadd]
    cases joinContinued 1 none ((Text.lines below).map physicalLine) <;> rfl
  · cases h

end Script

/-! ## Programs -/

theorem parse_eq_blocks (h : Script.ofSource source = .ok script) :
    parse source = script.blocks := by
  rw [parse, h]
  rfl

theorem parse_eq_error (h : Script.ofSource source = .error e) : parse source = .error e := by
  rw [parse, h]
  rfl

theorem exists_ofSource_of_parse {bs : List Block} (h : parse source = .ok bs) :
    ∃ script, Script.ofSource source = .ok script ∧ script.blocks = .ok bs := by
  cases hs : Script.ofSource source with
  | error e => rw [parse_eq_error hs] at h; cases h
  | ok script => exact ⟨script, rfl, (parse_eq_blocks hs).symm.trans h⟩

/-- Below a program another source is read as it would be alone, but for the numbers of its lines,
and its blocks follow those of the program. -/
theorem parse_append_of_ok {bs : List Block} (h : parse source = .ok bs) (below : Text) :
    parse (source ++ '\n' :: below) =
      ((parse below).map (bs ++ ·)).mapError (·.renumber (· + source.height)) := by
  obtain ⟨script, hs, hbs⟩ := exists_ofSource_of_parse h
  have happend := Script.ofSource_append hs below
  cases hb : Script.ofSource below with
  | error e =>
    rw [hb] at happend
    rw [parse_eq_error hb, parse_eq_error happend]
    rfl
  | ok lower =>
    rw [hb] at happend
    rw [parse_eq_blocks hb, parse_eq_blocks happend, Script.blocks, Script.blocks,
      Block.readAll_append_of_ok _ _ hbs, Block.readAll_renumber]
    cases hr : (Block.readAll lower.lines).result <;>
      simp [Reading.map, Reading.renumber, hr, Except.map, Except.mapError]

/-- What is wrong with a source of finished lines stays so whatever stands below it, unless it is
that the source ends in a body. -/
theorem parse_append_of_error (hs : Script.ofSource source = .ok script)
    (h : parse source = .error e) (hc : e.cause ≠ .unclosedBody) {whole : Script}
    (hw : Script.ofSource (source ++ '\n' :: below) = .ok whole) :
    parse (source ++ '\n' :: below) = .error e := by
  have happend := Script.ofSource_append hs below
  rw [hw] at happend
  cases hb : Script.ofSource below with
  | error d => rw [hb] at happend; cases happend
  | ok lower =>
    rw [hb] at happend
    cases happend
    rw [parse_eq_blocks hs] at h
    rw [parse_eq_blocks hw]
    exact Block.readAll_append_of_error _ script.lines h hc

/-- Two programs one below the other are one program of the blocks of both; what is wrong with the
lower one is reported under its lines in the whole; and a mistake in the upper one, other than a
body that it leaves open, is what is wrong with the whole. -/
theorem parse_append (source below : Text) :
    (∀ bs cs, parse source = .ok bs → parse below = .ok cs →
        parse (source ++ '\n' :: below) = .ok (bs ++ cs)) ∧
      (∀ bs e, parse source = .ok bs → parse below = .error e →
        parse (source ++ '\n' :: below) =
          .error (e.renumber (· + (source.count '\n' + 1 : Nat)))) ∧
      ∀ script whole e, Script.ofSource source = .ok script → parse source = .error e →
        ¬ "Missing \x7d.".toList <:+ e.message →
        Script.ofSource (source ++ '\n' :: below) = .ok whole →
        parse (source ++ '\n' :: below) = .error e := by
  refine ⟨fun bs cs hbs hcs => ?_, fun bs e hbs he => ?_, fun script whole e hs he hm hw => ?_⟩
  · rw [parse_append_of_ok hbs, hcs]
    rfl
  · rw [parse_append_of_ok hbs, he]
    rfl
  · rw [ParseError.isSuffix_message_iff] at hm
    exact parse_append_of_error hs he hm hw

/-- Below a command and a comment: another command, an open parenthesis in two loops, and whatever
stands below a stray parenthesis in a loop. -/
theorem parse_append_loops :
    parse "a\n#\nb".toList =
        .ok [.command ⟨.literal ['a'], []⟩, .command ⟨.literal ['b'], []⟩] ∧
      parse "a\n#\nwhile \x7d\nfor x \x7d\n(".toList =
        .error ⟨[3, 4, 5], .unclosedParenthesis⟩ ∧
      parse "for x \x7d\n)\n\x7d \x7d".toList = .error ⟨[1, 2], .strayParenthesis⟩ := by
  have ha : parse "a\n#".toList = .ok [.command ⟨.literal ['a'], []⟩] := by cbv
  have hb : parse "b".toList = .ok [.command ⟨.literal ['b'], []⟩] := by cbv
  have hl : parse "while \x7d\nfor x \x7d\n(".toList =
      .error ⟨[1, 2, 3], .unclosedParenthesis⟩ := by cbv
  have hs : Script.ofSource "for x \x7d\n)".toList =
      .ok ⟨[⟨"for x \x7d".toList, 1⟩, ⟨[')'], 2⟩]⟩ := by cbv
  have hp : parse "for x \x7d\n)".toList = .error ⟨[1, 2], .strayParenthesis⟩ := by cbv
  have hw : Script.ofSource "for x \x7d\n)\n\x7d \x7d".toList =
      .ok ⟨[⟨"for x \x7d".toList, 1⟩, ⟨[')'], 2⟩, ⟨"\x7d \x7d".toList, 3⟩]⟩ := by cbv
  exact ⟨(parse_append _ _).1 _ _ ha hb, (parse_append _ _).2.1 _ _ ha hl,
    (parse_append "for x \x7d\n)".toList "\x7d \x7d".toList).2.2 _ _ _ hs hp (by decide) hw⟩

end BlockScript
