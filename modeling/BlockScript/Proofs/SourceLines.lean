import BlockScript.Script
import BlockScript.Syntax.Source

/-!
# Lines of source

Text that neither breaks a line nor continues it (`Text.OneLine`) is a logical line when it stands
on a line of its own (`ofSource_unlines`).  The lines that blocks are written on are of this kind:
a quoted text has escapes for line breaks and ends in a quote, and text with a backslash is
quoted.
-/

namespace BlockScript

namespace Text

variable {sep : Char}

theorem pieces_of_not_mem {p : Text} (h : sep ∉ p) : pieces sep p = [p] := by
  induction p with
  | nil => rfl
  | cons c cs ih =>
    have hc : c ≠ sep := fun hc => h (by simp [hc])
    have hcs : sep ∉ cs := fun hcs => h (by simp [hcs])
    rw [pieces, if_neg hc, ih hcs]
    rfl

theorem pieces_append_cons {p : Text} (h : sep ∉ p) (rest : Text) :
    pieces sep (p ++ sep :: rest) = p :: pieces sep rest := by
  rw [pieces_append, pieces_of_not_mem h, List.singleton_append]

theorem pieces_join {ps : List Text} (hne : ps ≠ []) (h : ∀ p ∈ ps, sep ∉ p) :
    pieces sep (join [sep] ps) = ps := by
  induction ps with
  | nil => exact absurd rfl hne
  | cons p ps ih =>
    cases ps with
    | nil => exact pieces_of_not_mem (h p (by simp))
    | cons q qs =>
      have hq : pieces sep (join [sep] (q :: qs)) = q :: qs :=
        ih (by simp) fun r hr => h r (by simp [List.mem_cons.1 hr])
      rw [join_cons_cons, List.append_assoc, List.singleton_append,
        pieces_append_cons (h p (by simp)), hq]

theorem chop?_eq_none {c : Char} {text : Text} (h : text.getLast? ≠ some c) :
    chop? c text = none := by
  rw [chop?, if_neg h]

/-! ## Text on one line -/

/-- Text that neither breaks the line it stands on nor continues it. -/
structure OneLine (text : Text) : Prop where
  noLineFeed : '\n' ∉ text
  noReturn : '\r' ∉ text
  noContinuation : text.getLast? ≠ some '\\'

theorem oneLine_nil : OneLine [] := ⟨nofun, nofun, nofun⟩

theorem OneLine.append {s t : Text} (hs : OneLine s) (ht : OneLine t) : OneLine (s ++ t) where
  noLineFeed h := (List.mem_append.1 h).elim hs.noLineFeed ht.noLineFeed
  noReturn h := (List.mem_append.1 h).elim hs.noReturn ht.noReturn
  noContinuation := by
    cases h : t.getLast? with
    | none =>
      rw [List.getLast?_append, h]
      exact hs.noContinuation
    | some c =>
      have hc := ht.noContinuation
      rw [h] at hc
      rw [List.getLast?_append, h]
      exact hc

theorem oneLine_of_forall {text : Text} (h : ∀ c ∈ text, c ≠ '\n' ∧ c ≠ '\r' ∧ c ≠ '\\') :
    OneLine text where
  noLineFeed hc := (h _ hc).1 rfl
  noReturn hc := (h _ hc).2.1 rfl
  noContinuation hc := (h _ (List.mem_of_getLast? hc)).2.2 rfl

theorem OneLine.quoted {text : Text} (hf : '\n' ∉ text) (hr : '\r' ∉ text) :
    OneLine ('"' :: (text ++ ['"'])) where
  noLineFeed h := by simp [hf] at h
  noReturn h := by simp [hr] at h
  noContinuation h := by
    rw [← List.cons_append, List.getLast?_concat] at h
    cases h

theorem not_mem_escapeSource (c : Char) : '\n' ∉ escapeSource c ∧ '\r' ∉ escapeSource c := by
  rcases escapeSource_cases c with ⟨hs, hf, hr, -⟩ | ⟨e, hs, hf, hr, -⟩
  · simp [hs, hf.symm, hr.symm]
  · simp [hs, hf.symm, hr.symm]

theorem oneLine_toSource (text : Text) : OneLine text.toSource := by
  by_cases h : needsQuotes text
  · rw [toSource_of_needsQuotes h]
    exact .quoted (by simp [not_mem_escapeSource]) (by simp [not_mem_escapeSource])
  · rw [toSource_of_not_needsQuotes h]
    refine oneLine_of_forall fun c hc => ?_
    obtain ⟨hd, -, hb⟩ := (not_needsQuotes_iff.1 h).2 c hc
    refine ⟨?_, ?_, hb⟩
    · rintro rfl
      exact absurd hd (by decide)
    · rintro rfl
      exact absurd hd (by decide)

end Text

/-! ## Trees -/

mutual

theorem Argument.oneLine_toSource : ∀ a : Argument, a.toSource.OneLine
  | .literal text => by
    rw [Argument.toSource]
    exact text.oneLine_toSource
  | .nested name args => by
    have hp : ∀ c : Char, c = '(' ∨ c = ')' → Text.OneLine [c] := by
      rintro c (rfl | rfl) <;> exact Text.oneLine_of_forall (by simp)
    rw [Argument.toSource, ← List.singleton_append]
    exact (hp '(' (.inl rfl)).append
      ((name.oneLine_toSource.append (Argument.oneLine_trailing args)).append (hp ')' (.inr rfl)))

theorem Argument.oneLine_trailing : ∀ as : List Argument, (Argument.trailing as).OneLine
  | [] => by
    rw [Argument.trailing]
    exact Text.oneLine_nil
  | a :: as => by
    have hs : Text.OneLine [' '] := Text.oneLine_of_forall (by simp)
    rw [Argument.trailing, ← List.singleton_append]
    exact hs.append (a.oneLine_toSource.append (Argument.oneLine_trailing as))

end

theorem Command.oneLine_toSource (c : Command) : c.toSource.OneLine :=
  c.name.oneLine_toSource.append (Argument.oneLine_trailing c.args)

/-- The line that opens a loop. -/
theorem Block.oneLine_header {word : Text} (hw : word.OneLine) (as : List Argument) :
    (word ++ Argument.trailing as ++ " \x7d".toList).OneLine :=
  (hw.append (Argument.oneLine_trailing as)).append (Text.oneLine_of_forall (by simp))

mutual

theorem Block.oneLine_sourceLines : ∀ b : Block, ∀ l ∈ b.sourceLines, l.OneLine
  | .command c => by
    rw [Block.sourceLines]
    intro l hl
    rw [List.mem_singleton.1 hl]
    exact c.oneLine_toSource
  | .forEach key? value body => by
    have hw : Text.OneLine "for".toList := Text.oneLine_of_forall (by simp)
    rw [Block.sourceLines]
    intro l hl
    rcases List.mem_cons.1 hl with rfl | hl
    · exact Block.oneLine_header hw _
    · exact Block.oneLine_allSourceLines_close body l hl
  | .whileLoop condition body => by
    have hw : Text.OneLine "while".toList := Text.oneLine_of_forall (by simp)
    rw [Block.sourceLines]
    intro l hl
    rcases List.mem_cons.1 hl with rfl | hl
    · exact Block.oneLine_header hw _
    · exact Block.oneLine_allSourceLines_close body l hl

theorem Block.oneLine_allSourceLines_close :
    ∀ bs : List Block, ∀ l ∈ Block.allSourceLines bs ++ [['\x7d']], l.OneLine
  | [] => by
    rw [Block.allSourceLines]
    intro l hl
    rw [List.mem_singleton.1 hl]
    exact Text.oneLine_of_forall (by simp)
  | b :: bs => by
    rw [Block.allSourceLines, List.append_assoc]
    intro l hl
    rcases List.mem_append.1 hl with hl | hl
    · exact b.oneLine_sourceLines l hl
    · exact Block.oneLine_allSourceLines_close bs l hl

end

theorem Block.oneLine_allSourceLines (bs : List Block) :
    ∀ l ∈ Block.allSourceLines bs, l.OneLine :=
  fun l hl => Block.oneLine_allSourceLines_close bs l (List.mem_append_left _ hl)

/-! ## Scripts -/

namespace Script

theorem physicalLine_of_oneLine {l : Text} (h : l.OneLine) : physicalLine l = l := by
  have hr : l.getLast? ≠ some '\r' := fun hr => h.noReturn (List.mem_of_getLast? hr)
  rw [physicalLine, Text.chop?_eq_none hr]
  rfl

theorem joinContinued_of_oneLine {ls : List Text} (h : ∀ l ∈ ls, l.OneLine) (n : Nat) :
    ∃ lines, joinContinued n none ls = .ok lines ∧ lines.map Line.text = ls := by
  induction ls generalizing n with
  | nil => exact ⟨[], rfl, rfl⟩
  | cons l ls ih =>
    obtain ⟨lines, hj, ht⟩ := ih (fun m hm => h m (by simp [hm])) (n + 1)
    refine ⟨⟨l, n⟩ :: lines, ?_, by rw [List.map_cons, ht]⟩
    rw [joinContinued, Text.chop?_eq_none (h l (by simp)).noContinuation, hj]
    rfl

/-- Lines that neither break nor continue are the logical lines of the source they make up. -/
theorem ofSource_unlines {ls : List Text} (hne : ls ≠ []) (h : ∀ l ∈ ls, l.OneLine) :
    ∃ lines, ofSource (Text.unlines ls) = .ok ⟨lines⟩ ∧ lines.map Line.text = ls := by
  obtain ⟨lines, hj, ht⟩ := joinContinued_of_oneLine h 1
  refine ⟨lines, ?_, ht⟩
  have hp : ls.map physicalLine = ls := by
    rw [List.map_congr_left fun l hl => physicalLine_of_oneLine (h l hl), List.map_id']
  rw [ofSource, Text.lines, Text.unlines, Text.pieces_join hne fun l hl => (h l hl).noLineFeed, hp,
    hj]

/-- Text that neither breaks nor continues is the only logical line of its source. -/
theorem exists_line_of_oneLine {text : Text} (h : text.OneLine) :
    ∃ line, ofSource text = .ok ⟨[line]⟩ ∧ line.text = text := by
  have hone : ∀ l ∈ [text], l.OneLine := fun l hl => (List.mem_singleton.1 hl) ▸ h
  obtain ⟨lines, hs, hl⟩ := ofSource_unlines (List.cons_ne_nil text []) hone
  obtain ⟨line, rfl, htext⟩ := List.map_eq_singleton_iff.1 hl
  exact ⟨line, hs, htext⟩

end Script

end BlockScript
