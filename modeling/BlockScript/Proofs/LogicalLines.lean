import BlockScript.Proofs.Concatenation
import BlockScript.Proofs.SourceLines
import BlockScript.Proofs.Wording

/-!
# Logical lines

The logical lines of a source share out its physical lines: each is made of some neighbours, from
the one with its number on, and is finished by the only one of them that is not continued
(`Script.Layout`).  That is shown for joining that begins with some continued lines held already
(`Script.layout_of_joinContinued`).  So a source is refused only if its last physical line is
continued, under the first of the continued lines it ends in, and otherwise no physical line is
lost, used twice or put down to a wrong number (`ofSource_partition`).
-/

namespace BlockScript

namespace Text

/-- A physical line that goes on in the next one. -/
def Continued (piece : Text) : Prop := piece.getLast? = some '\\'

/-- A logical line is made of physical lines that are all continued but the last, each without the
backslash that says so. -/
def MadeOf (text : Text) (pieces : List Text) : Prop :=
  ∃ (fronts : List Text) (last : Text), pieces = fronts.map (· ++ ['\\']) ++ [last] ∧
    ¬last.Continued ∧ text = fronts.flatten ++ last

theorem continued_concat (front : Text) : Continued (front ++ ['\\']) := List.getLast?_concat

theorem exists_concat_of_continued {piece : Text} (h : piece.Continued) :
    ∃ front, piece = front ++ ['\\'] :=
  List.getLast?_eq_some_iff.1 h

theorem chop?_concat (c : Char) (front : Text) : chop? c (front ++ [c]) = some front := by
  rw [chop?, if_pos List.getLast?_concat, List.dropLast_concat]

theorem madeOf_concat {piece : Text} (fronts : List Text) (h : ¬piece.Continued) :
    MadeOf (fronts.flatten ++ piece) (fronts.map (· ++ ['\\']) ++ [piece]) :=
  ⟨fronts, piece, rfl, h, rfl⟩

theorem MadeOf.length_pos {text : Text} {pieces : List Text} (h : text.MadeOf pieces) :
    0 < pieces.length := by
  obtain ⟨fronts, last, rfl, -, -⟩ := h
  simp

/-- The last of the physical lines, if there is one, is not continued. -/
def Finished (pieces : List Text) : Prop :=
  ∀ last, pieces.getLast? = some last → ¬last.Continued

theorem Finished.append {front pieces : List Text} (hfront : Finished front)
    (h : Finished pieces) : Finished (front ++ pieces) := by
  intro last hlast
  rw [List.getLast?_append] at hlast
  cases hp : pieces.getLast? with
  | none =>
    rw [hp, Option.none_or] at hlast
    exact hfront last hlast
  | some l =>
    rw [hp, Option.some_or] at hlast
    exact h last (hp.trans hlast)

theorem MadeOf.finished {text : Text} {pieces : List Text} (h : text.MadeOf pieces) :
    Finished pieces := by
  obtain ⟨fronts, l, rfl, hl, -⟩ := h
  intro last hlast
  rw [List.getLast?_concat] at hlast
  cases hlast
  exact hl

end Text

namespace Script

/-! ## The physical lines that a logical line is made of -/

/-- The physical lines of a source. -/
def physicalLines (source : Text) : List Text := (Text.lines source).map physicalLine

theorem physicalLines_ne_nil (source : Text) : physicalLines source ≠ [] := by
  rw [physicalLines, ne_eq, List.map_eq_nil_iff]
  exact Text.pieces_ne_nil '\n' source

/-- The texts of the logical lines. -/
def texts (script : Script) : List Text := script.lines.map Line.text

/-- The numbers of the logical lines. -/
def starts (script : Script) : List Int := script.lines.map Line.number

/-- The physical lines, the first having number `first`, from number `start` to the one in front
of number `stop`. -/
def numbered (first : Int) (pieces : List Text) (start stop : Int) : List Text :=
  (pieces.drop (start - first).toNat).take (stop - start).toNat

/-- The lines are made of the physical lines from number `n` on, one behind the other. -/
inductive Layout : (n : Int) → (pieces : List Text) → (lines : List Line) → Prop where
  | nil (n : Int) : Layout n [] []
  | cons {n : Int} {group pieces : List Text} {text : Text} {lines : List Line}
      (hmade : text.MadeOf group) (hrest : Layout (n + group.length) pieces lines) :
      Layout n (group ++ pieces) (⟨text, n⟩ :: lines)

namespace Layout

variable {n : Int} {pieces : List Text} {lines : List Line}

/-- Where the lines begin, and where one more would. -/
def bounds (n : Int) (pieces : List Text) (lines : List Line) : List Int :=
  lines.map Line.number ++ [n + pieces.length]

theorem bounds_cons (n : Int) (group pieces : List Text) (line : Line) (lines : List Line) :
    bounds n (group ++ pieces) (line :: lines) =
      line.number :: bounds (n + group.length) pieces lines := by
  rw [bounds, bounds, List.map_cons, List.cons_append, List.length_append, Int.natCast_add,
    Int.add_assoc]

theorem head?_bounds (h : Layout n pieces lines) : (bounds n pieces lines).head? = some n := by
  cases h with
  | nil => simp [bounds]
  | cons hmade hrest => rfl

theorem le_of_mem_bounds (h : Layout n pieces lines) : ∀ m ∈ bounds n pieces lines, n ≤ m := by
  induction h with
  | nil n => simp [bounds]
  | cons hmade hrest ih =>
    rw [bounds_cons]
    intro m hm
    rcases List.mem_cons.1 hm with rfl | hm
    · exact Int.le_refl _
    · have := ih m hm
      omega

theorem pairwise_bounds (h : Layout n pieces lines) :
    (bounds n pieces lines).Pairwise (· < ·) := by
  induction h with
  | nil n => exact List.pairwise_singleton _ _
  | @cons n group pieces text lines hmade hrest ih =>
    rw [bounds_cons]
    refine List.pairwise_cons.2 ⟨fun m hm => ?_, ih⟩
    have hle := hrest.le_of_mem_bounds m hm
    have hpos := hmade.length_pos
    show n < m
    omega

/-- The physical lines behind some others keep their numbers. -/
theorem numbered_append {n start : Int} (group pieces : List Text)
    (h : n + group.length ≤ start) (stop : Int) :
    numbered n (group ++ pieces) start stop =
      numbered (n + group.length) pieces start stop := by
  have hlen : (start - n).toNat = group.length + (start - (n + group.length)).toNat := by omega
  rw [numbered, numbered, hlen, List.drop_length_add_append]

/-- A line is made of the physical lines from its own number to that of the next. -/
theorem madeOf_numbered (h : Layout n pieces lines) :
    ∀ (i : Nat) (text : Text) (start stop : Int), (lines.map Line.text)[i]? = some text →
      (bounds n pieces lines)[i]? = some start → (bounds n pieces lines)[i + 1]? = some stop →
      text.MadeOf (numbered n pieces start stop) := by
  induction h with
  | nil n =>
    intro i text start stop htext
    cases htext
  | @cons n group pieces text lines hmade hrest ih =>
    intro i t start stop ht hstart hstop
    rw [bounds_cons] at hstart hstop
    rw [List.getElem?_cons_succ] at hstop
    cases i with
    | zero =>
      cases ht
      cases hstart
      rw [← List.head?_eq_getElem?, hrest.head?_bounds] at hstop
      cases hstop
      have hlen : (n + group.length - n).toNat = group.length := by omega
      rw [numbered, Int.sub_self, hlen, Int.toNat_zero, List.drop_zero, List.take_left]
      exact hmade
    | succ i =>
      rw [List.getElem?_cons_succ] at hstart
      rw [numbered_append _ _ (hrest.le_of_mem_bounds start (List.mem_of_getElem? hstart))]
      exact ih i t start stop ht hstart hstop

/-- The last physical line finishes the last logical line. -/
theorem finished (h : Layout n pieces lines) : Text.Finished pieces := by
  induction h with
  | nil n => exact nofun
  | cons hmade hrest ih => exact hmade.finished.append ih

end Layout

/-! ## Joining -/

/-- Physical lines that end in a run of continued ones, those of `run`. -/
structure EndsUnfinished (done run : List Text) : Prop where
  ne_nil : run ≠ []
  continued : ∀ piece ∈ run, piece.Continued
  finished : Text.Finished done

/-- The logical line from number `n` on that continued physical lines leave unfinished, given
these without their backslashes. -/
def held (n : Nat) (fronts : List Text) : Option Line :=
  if fronts = [] then none else some ⟨fronts.flatten, n⟩

section Joining

variable {n : Nat} {fronts pieces : List Text} {piece : Text} {lines : List Line}

theorem held_getD (n : Nat) (fronts : List Text) :
    (held n fronts).getD ⟨[], ((n + fronts.length : Nat) : Int)⟩ = ⟨fronts.flatten, n⟩ := by
  cases fronts <;> rfl

theorem held_concat (n : Nat) (fronts : List Text) (front : Text) :
    held n (fronts ++ [front]) = some ⟨fronts.flatten ++ front, n⟩ := by
  rw [held, if_neg (by simp), List.flatten_append, List.flatten_singleton]

/-- A continued physical line is held with those before it. -/
theorem joinContinued_held_concat (n : Nat) (fronts pieces : List Text) (front : Text) :
    joinContinued (n + fronts.length) (held n fronts) ((front ++ ['\\']) :: pieces) =
      joinContinued (n + (fronts ++ [front]).length) (held n (fronts ++ [front])) pieces := by
  rw [joinContinued_of_some (Text.chop?_concat _ _), held_getD, held_concat, List.length_append]
  rfl

/-- A physical line that is not continued finishes the line of those that are held. -/
theorem joinContinued_held_of_not_continued (h : ¬piece.Continued) :
    joinContinued (n + fronts.length) (held n fronts) (piece :: pieces) =
      (joinContinued (n + (fronts.length + 1) + ([] : List Text).length)
        (held (n + (fronts.length + 1)) []) pieces).map
        (⟨fronts.flatten ++ piece, n⟩ :: ·) := by
  rw [joinContinued_of_none (Text.chop?_eq_none h), held_getD]
  rfl

/-- Joining lays out the physical lines that are held and those that follow. -/
theorem layout_of_joinContinued
    (h : joinContinued (n + fronts.length) (held n fronts) pieces = .ok lines) :
    Layout n (fronts.map (· ++ ['\\']) ++ pieces) lines := by
  -- on the physical lines that follow, whatever is held when they are reached
  induction pieces generalizing n fronts lines with
  | nil =>
    cases fronts with
    | nil => cases h; exact .nil n
    | cons front fronts => cases h
  | cons piece pieces ih =>
    by_cases hp : piece.Continued
    · obtain ⟨front, rfl⟩ := Text.exists_concat_of_continued hp
      rw [joinContinued_held_concat] at h
      simpa using ih h
    · rw [joinContinued_held_of_not_continued hp] at h
      obtain ⟨rest, hrest, rfl⟩ := exists_ok_of_map_eq_ok h
      have hmade := Text.madeOf_concat fronts hp
      have hlayout := ih hrest
      rw [List.append_cons]
      refine .cons hmade ?_
      simpa using hlayout

/-- Joining fails under the number of the first of the continued physical lines at the end. -/
theorem endsUnfinished_of_joinContinued {cause : Cause}
    (h : joinContinued (n + fronts.length) (held n fronts) pieces = .error cause) :
    ∃ done run, fronts.map (· ++ ['\\']) ++ pieces = done ++ run ∧ EndsUnfinished done run ∧
      cause = .danglingContinuation (n + done.length) := by
  induction pieces generalizing n fronts with
  | nil =>
    cases fronts with
    | nil => cases h
    | cons front fronts =>
      cases h
      refine ⟨[], (front :: fronts).map (· ++ ['\\']), by simp, ⟨by simp, ?_, nofun⟩, by simp⟩
      intro piece hpiece
      obtain ⟨f, -, rfl⟩ := List.mem_map.1 hpiece
      exact Text.continued_concat f
  | cons piece pieces ih =>
    by_cases hp : piece.Continued
    · obtain ⟨front, rfl⟩ := Text.exists_concat_of_continued hp
      rw [joinContinued_held_concat] at h
      simpa using ih h
    · rw [joinContinued_held_of_not_continued hp, map_eq_error_iff] at h
      obtain ⟨done, run, hpieces, hrun, rfl⟩ := ih h
      rw [List.map_nil, List.nil_append] at hpieces
      have hmade := Text.madeOf_concat fronts hp
      -- the lines in front of the run begin with those of the line that is finished here
      refine ⟨fronts.map (· ++ ['\\']) ++ [piece] ++ done, run, ?_,
        { hrun with finished := hmade.finished.append hrun.finished }, ?_⟩
      · rw [hpieces]
        simp
      · simp only [List.length_append, List.length_map, List.length_singleton]
        push_cast
        rw [Int.add_assoc]

end Joining

end Script

/-! ## The lines of a source -/

/-- The logical lines share out the physical lines: they begin with the first one, each where the
one before it ends, and the last one ends with the last physical line. -/
structure Script.Partition (script : Script) (phys : List Text) : Prop where
  length_eq : script.texts.length = script.starts.length
  head : script.starts.head? = some 1
  increasing : script.starts.Pairwise (· < ·)
  made : ∀ (i : Nat) (text : Text) (start stop : Int), script.texts[i]? = some text →
    (script.starts ++ [(phys.length + 1 : Int)])[i]? = some start →
    (script.starts ++ [(phys.length + 1 : Int)])[i + 1]? = some stop →
    text.MadeOf (Script.numbered 1 phys start stop)

theorem Script.Layout.partition {lines : List Line} {phys : List Text} (hne : phys ≠ [])
    (h : Layout 1 phys lines) : Partition ⟨lines⟩ phys where
  length_eq := by rw [texts, starts, List.length_map, List.length_map]
  head := by
    cases h with
    | nil => exact absurd rfl hne
    | cons hmade hrest => rfl
  increasing := (List.pairwise_append.1 h.pairwise_bounds).1
  made := by
    rw [Int.add_comm]
    exact h.madeOf_numbered

theorem Script.layout_of_ofSource {source : Text} {script : Script}
    (h : ofSource source = .ok script) : Layout 1 (physicalLines source) script.lines := by
  unfold ofSource at h
  split at h
  · next lines hlines =>
    cases h
    exact @layout_of_joinContinued 1 [] _ _ hlines
  · cases h

theorem Script.endsUnfinished_of_ofSource {source : Text} {e : ParseError}
    (h : ofSource source = .error e) :
    ∃ done run, physicalLines source = done ++ run ∧ EndsUnfinished done run ∧
      e = ⟨[], .danglingContinuation (done.length + 1)⟩ := by
  unfold ofSource at h
  split at h
  · cases h
  · next cause hcause =>
    cases h
    obtain ⟨done, run, hlines, hrun, rfl⟩ := @endsUnfinished_of_joinContinued 1 [] _ _ hcause
    refine ⟨done, run, hlines, hrun, ?_⟩
    rw [Int.add_comm]
    rfl

theorem Script.EndsUnfinished.continued_getLast {done run : List Text}
    (h : EndsUnfinished done run) :
    ∃ last, (done ++ run).getLast? = some last ∧ last.Continued := by
  refine ⟨run.getLast h.ne_nil, ?_, h.continued _ (List.getLast_mem h.ne_nil)⟩
  rw [List.getLast?_append, List.getLast?_eq_some_getLast h.ne_nil, Option.some_or]

/-- A source is refused if and only if its last physical line is continued.  It is refused under
the number of the first of the continued lines it ends in.  The logical lines of any other source
share out its physical lines. -/
theorem ofSource_partition (source : Text) :
    ((∃ e, Script.ofSource source = .error e) ↔
      ∃ last, (Script.physicalLines source).getLast? = some last ∧ last.Continued) ∧
    (∀ e, Script.ofSource source = .error e →
      ∃ done run, Script.physicalLines source = done ++ run ∧ Script.EndsUnfinished done run ∧
        e.message = "Unexpected end of script after \\ on line ".toList ++
          Text.decimal (done.length + 1) ++ ['.']) ∧
    ∀ script, Script.ofSource source = .ok script →
      script.Partition (Script.physicalLines source) := by
  refine ⟨⟨?_, ?_⟩, fun e he => ?_, fun script hscript => ?_⟩
  · rintro ⟨e, he⟩
    obtain ⟨done, run, hlines, hrun, -⟩ := Script.endsUnfinished_of_ofSource he
    rw [hlines]
    exact hrun.continued_getLast
  · rintro ⟨last, hlast, hcontinued⟩
    cases hs : Script.ofSource source with
    | error e => exact ⟨e, rfl⟩
    | ok script =>
      exact absurd hcontinued ((Script.layout_of_ofSource hs).finished last hlast)
  · obtain ⟨done, run, hlines, hrun, rfl⟩ := Script.endsUnfinished_of_ofSource he
    exact ⟨done, run, hlines, hrun, rfl⟩
  · exact (Script.layout_of_ofSource hscript).partition (Script.physicalLines_ne_nil source)

/-- Continued lines that end in two backslashes or stand before an empty line, a line that ends in
two carriage returns, and a source that ends in a run of continued lines. -/
theorem ofSource_partition_twoBackslashes :
    Script.Partition ⟨[⟨"a\\".toList, 1⟩, ⟨"\\\\\r".toList, 4⟩, ⟨['b'], 5⟩]⟩
        ["a\\".toList, "\\\\".toList, [], "\\\\\r".toList, ['b']] ∧
      ∃ e, Script.ofSource "a\n\\\nb\\\\".toList = .error e := by
  have hs : Script.ofSource "a\\\r\n\\\\\n\n\\\\\r\r\nb".toList =
      .ok ⟨[⟨"a\\".toList, 1⟩, ⟨"\\\\\r".toList, 4⟩, ⟨['b'], 5⟩]⟩ := by
    cbv
  exact ⟨(ofSource_partition _).2.2 _ hs, (ofSource_partition _).1.2 ⟨"b\\\\".toList, rfl, rfl⟩⟩

end BlockScript
