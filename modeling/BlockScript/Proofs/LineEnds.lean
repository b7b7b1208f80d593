import BlockScript.CommandLine.Job
import Mathlib.Data.List.Infix

/-!
# Line ends

A carriage return in front of a line feed belongs to the line end.  The text of a file loses it
when the file is read (`normalizeLineEnds`), and any other text when it is cut into physical lines
(`Script.physicalLine`); as long as carriage returns stand nowhere else, both come to the physical
lines of the text with line feeds alone (`map_physicalLine_bareLineFeeds`).  So it makes no
difference to a program which line ends it is written with, nor whether it stands in a file or on
the command line (`lineEnds_agree`).
-/

namespace BlockScript

namespace Text

/-- A text whose carriage returns all stand in front of line feeds. -/
def PairedReturns (text : Text) : Prop := ∀ rest, '\r' :: rest <:+ text → rest.head? = some '\n'

/-- The text with each carriage return and line feed replaced by a line feed. -/
def bareLineFeeds : Text → Text
  | [] => []
  | '\r' :: '\n' :: cs => '\n' :: bareLineFeeds cs
  | c :: cs => c :: bareLineFeeds cs

instance (text : Text) : Decidable text.PairedReturns :=
  decidable_of_iff
    (∀ rest ∈ text.tails, rest.head? = some '\r' → rest.tail.head? = some '\n') <| by
    simp only [List.mem_tails, PairedReturns]
    refine ⟨fun h rest hrest => h _ hrest rfl, fun h rest hrest hhead => ?_⟩
    obtain ⟨behind, rfl⟩ := List.head?_eq_some_iff.1 hhead
    exact h behind hrest

variable {c : Char} {cs text : Text}

theorem PairedReturns.tail (h : PairedReturns (c :: cs)) : PairedReturns cs :=
  fun rest hrest => h rest (hrest.trans (List.suffix_cons c cs))

/-- A character that is no line end of two characters with what follows is no carriage return. -/
theorem PairedReturns.ne_return (h : PairedReturns (c :: cs))
    (hpair : ∀ ds, c = '\r' → cs = '\n' :: ds → False) : c ≠ '\r' := by
  rintro rfl
  obtain ⟨ds, rfl⟩ := List.head?_eq_some_iff.1 (h cs List.suffix_rfl)
  exact hpair ds rfl rfl

theorem pairedReturns_of_not_mem (h : '\r' ∉ text) : PairedReturns text :=
  fun _ hrest => absurd (hrest.subset List.mem_cons_self) h

theorem bareLineFeeds_of_not_mem (h : '\r' ∉ text) : bareLineFeeds text = text := by
  fun_induction bareLineFeeds text with
  | case1 => rfl
  | case2 cs ih => exact absurd List.mem_cons_self h
  | case3 c cs hpair ih => rw [ih fun hcs => h (List.mem_cons_of_mem c hcs)]

theorem not_mem_bareLineFeeds (h : text.PairedReturns) : '\r' ∉ bareLineFeeds text := by
  fun_induction bareLineFeeds text with
  | case1 => exact List.not_mem_nil
  | case2 cs ih => simpa using ih h.tail.tail
  | case3 c cs hpair ih => simpa [(h.ne_return hpair).symm] using ih h.tail

end Text

variable {c : Char} {cs text : Text}

/-! ## Texts of files -/

theorem normalizeLineEnds_of_ne (h : c ≠ '\r') :
    normalizeLineEnds (c :: cs) = c :: normalizeLineEnds cs := by
  cases cs with
  | nil => simp [normalizeLineEnds, h]
  | cons d cs =>
    rw [normalizeLineEnds, if_neg h]
    exact fun hc _ => h hc

theorem normalizeLineEnds_eq (h : text.PairedReturns) :
    normalizeLineEnds text = text.bareLineFeeds := by
  fun_induction Text.bareLineFeeds text with
  | case1 => rfl
  | case2 cs ih => rw [normalizeLineEnds, ih h.tail.tail]
  | case3 c cs hpair ih => rw [normalizeLineEnds_of_ne (h.ne_return hpair), ih h.tail]

theorem decodeFile?_toUTF8 (text : Text) :
    decodeFile? (String.ofList text).toUTF8 = some (normalizeLineEnds text) := by
  have hbytes : (String.ofList text).toUTF8 = text.utf8Encode := rfl
  rw [decodeFile?, hbytes, List.utf8Decode?_utf8Encode]
  rfl

/-! ## Physical lines -/

namespace Script

theorem physicalLine_cons (h : c ≠ '\r') (piece : Text) :
    physicalLine (c :: piece) = c :: physicalLine piece := by
  cases piece with
  | nil => simp [physicalLine, Text.chop?, h]
  | cons d ds =>
    simp only [physicalLine, Text.chop?, List.getLast?_cons_cons]
    split <;> rfl

theorem map_physicalLine_lines (h : c ≠ '\r') (cs : Text) :
    (Text.lines (c :: cs)).map physicalLine =
      if c = '\n' then [] :: (Text.lines cs).map physicalLine
      else ((Text.lines cs).map physicalLine).modifyHead (c :: ·) := by
  rw [Text.lines, Text.pieces]
  split
  · rfl
  · show ((Text.lines cs).modifyHead (c :: ·)).map physicalLine = _
    cases Text.lines cs with
    | nil => rfl
    | cons piece pieces =>
      show physicalLine (c :: piece) :: _ = _
      rw [physicalLine_cons h]
      rfl

theorem map_physicalLine_bareLineFeeds (h : text.PairedReturns) :
    (Text.lines text).map physicalLine = (Text.lines text.bareLineFeeds).map physicalLine := by
  fun_induction Text.bareLineFeeds text with
  | case1 => rfl
  | case2 cs ih =>
    show [] :: (Text.lines cs).map physicalLine = [] :: (Text.lines (Text.bareLineFeeds cs)).map _
    rw [ih h.tail.tail]
  | case3 c cs hpair ih =>
    have hc := h.ne_return hpair
    rw [map_physicalLine_lines hc, map_physicalLine_lines hc, ih h.tail]

theorem ofSource_bareLineFeeds (h : text.PairedReturns) :
    ofSource text = ofSource text.bareLineFeeds := by
  rw [ofSource, ofSource, map_physicalLine_bareLineFeeds h]

end Script

/-! ## Jobs -/

theorem parse_bareLineFeeds (h : text.PairedReturns) : parse text = parse text.bareLineFeeds := by
  rw [parse, parse, Script.ofSource_bareLineFeeds h]

namespace Job

/-- A job is done in the same way for every source that reads as the same program. -/
theorem run_eq_of_parse_eq {job other : Job} {files : Files} {source text : Text}
    (hsource : job.sourceText files = .ok source) (htext : other.sourceText files = .ok text)
    (hparse : parse source = parse text) (hformat : job.format = other.format)
    (hout : job.out = other.out) (hpretty : job.pretty = other.pretty) :
    job.run files = other.run files := by
  have hrendering : job.rendering files = other.rendering files := by
    rw [rendering, rendering, hsource, htext, hformat]
    show (parse source).mapError JobError.parse >>= _ = (parse text).mapError JobError.parse >>= _
    rw [hparse]
  have hdisplay : job.display = other.display := by
    funext text
    rw [display, display, hpretty]
  have hdeliver : job.deliver files = other.deliver files := by
    funext text
    rw [deliver, deliver, hdisplay, hout, hpretty]
  rw [run, run, hrendering, hdeliver]

theorem sourceText_of_read {job : Job} {files : Files} {content : Text}
    (hinline : job.inline = false) (hname : extension <:+ job.source)
    (hread : files.read job.source = .ok (String.ofList content).toUTF8) :
    job.sourceText files = .ok (normalizeLineEnds content) := by
  rw [sourceText, hinline, List.isSuffixOf_iff_suffix.2 hname, hread]
  show (decodeFile? (String.ofList content).toUTF8).elim _ _ = _
  rw [decodeFile?_toUTF8]
  rfl

end Job

/-- Replacing line ends of two characters by line feeds changes nothing about the logical lines of
a text.  So a job comes to the same whether its program is the one text or the other, and whether
it stands in a script file or on the command line. -/
theorem lineEnds_agree (h : text.PairedReturns) :
    Script.ofSource text = Script.ofSource text.bareLineFeeds ∧
      ∀ (format out : Text) (pretty : Bool) (files : Files),
        Job.run ⟨text.bareLineFeeds, true, format, out, pretty⟩ files =
            Job.run ⟨text, true, format, out, pretty⟩ files ∧
          ∀ name, Job.extension <:+ name →
            (files.read name = .ok (String.ofList text).toUTF8 ∨
              files.read name = .ok (String.ofList text.bareLineFeeds).toUTF8) →
            Job.run ⟨name, false, format, out, pretty⟩ files =
              Job.run ⟨text, true, format, out, pretty⟩ files := by
  refine ⟨Script.ofSource_bareLineFeeds h, fun format out pretty files => ⟨?_, ?_⟩⟩
  · exact Job.run_eq_of_parse_eq rfl rfl (parse_bareLineFeeds h).symm rfl rfl rfl
  · intro name hname hread
    have hbare : (text.bareLineFeeds).PairedReturns :=
      Text.pairedReturns_of_not_mem (Text.not_mem_bareLineFeeds h)
    have hsource : Job.sourceText ⟨name, false, format, out, pretty⟩ files =
        .ok text.bareLineFeeds := by
      rcases hread with hread | hread
      · rw [Job.sourceText_of_read rfl hname hread, normalizeLineEnds_eq h]
      · rw [Job.sourceText_of_read rfl hname hread, normalizeLineEnds_eq hbare,
          Text.bareLineFeeds_of_not_mem (Text.not_mem_bareLineFeeds h)]
    exact Job.run_eq_of_parse_eq hsource rfl (parse_bareLineFeeds h).symm rfl rfl rfl

/-- A continued line with line ends of two characters, in a script file and on the command line. -/
theorem lineEnds_agree_continued :
    Text.PairedReturns "a\\\r\nb\r\n".toList ∧
      Script.ofSource "a\\\r\nb\r\n".toList = Script.ofSource "a\\\nb\n".toList ∧
      Job.run ⟨"a.pragmash".toList, false, Format.tree.name, [], true⟩
          ⟨[], [[]], [(["a.pragmash".toList], "a\\\r\nb\r\n".toUTF8)]⟩ =
        Job.run ⟨"a\\\r\nb\r\n".toList, true, Format.tree.name, [], true⟩
          ⟨[], [[]], [(["a.pragmash".toList], "a\\\r\nb\r\n".toUTF8)]⟩ := by
  have hpaired : Text.PairedReturns "a\\\r\nb\r\n".toList := by decide
  have hread : Files.read ⟨[], [[]], [(["a.pragmash".toList], "a\\\r\nb\r\n".toUTF8)]⟩
      "a.pragmash".toList = .ok (String.ofList "a\\\r\nb\r\n".toList).toUTF8 := by
    decide +kernel
  exact ⟨hpaired, (lineEnds_agree hpaired).1,
    ((lineEnds_agree hpaired).2 _ _ _ _).2 _ (by decide) (.inl hread)⟩

end BlockScript
