import BlockScript.Proofs.Concatenation
import BlockScript.Proofs.Grammar
import BlockScript.Proofs.ProgramRoundTrip

/-!
# The shape of programs

A word that opens a loop and, in a body, the closing mark never name a command, however they are
quoted: the readers of blocks take the line for the beginning of a loop, for the end of the body, or
for a mistake.  So all programs are well-formed (`parse_allWellFormed`).  At top level the closing
mark names a command like any other text.
-/

namespace BlockScript

namespace Block

/-- The grammar makes up well-formed blocks only. -/
theorem WrittenOn.allWellFormed {inBody : Bool} {lines : List Line} {bs : List Block}
    (h : WrittenOn inBody lines bs) : AllWellFormed inBody bs := by
  induction h with
  | nil => trivial
  | blank _ _ ih => exact ih
  | @command inBody line lines c bs hline hopen _ ih =>
    obtain ⟨first, rest, -, hfor, hwhile, hname⟩ := tokens_of_means_command hline
    have hclose := closing?_eq_none_iff_of_means_command hline
    rw [AllWellFormed, WellFormed]
    exact ⟨⟨mt (hname _).1 hfor, mt (hname _).1 hwhile, fun hi => hclose.1 (hopen hi)⟩, ih⟩
  | @loop inBody line close inner lines header body bs _ _ _ _ ihbody ih =>
    rw [AllWellFormed]
    refine ⟨?_, ih⟩
    cases header with
    | forEach key? value => rw [LoopHeader.block, WellFormed]; exact ihbody
    | whileLoop condition => rw [LoopHeader.block, WellFormed]; exact ihbody

end Block

/-- A command named like the closing mark is a program of its own, whatever its arguments are. -/
theorem parse_command_bodyMark {args : List Argument} (h : Argument.levelsAll args ≤ maxNesting) :
    parse (Command.toSource ⟨.literal ['\x7d'], args⟩) =
      .ok [.command ⟨.literal ['\x7d'], args⟩] := by
  have hlevels : Block.levelsAll [.command ⟨.literal ['\x7d'], args⟩] ≤ maxNesting := by
    rw [Block.levelsAll_cons_le_iff, Block.levels, Command.levels, Argument.levelsAll_cons_le_iff]
    exact ⟨⟨Nat.zero_le _, h⟩, Nat.zero_le _⟩
  obtain ⟨line, hs, hl⟩ := Script.exists_line_of_oneLine (Command.oneLine_toSource _)
  have hread : Block.readAll [line] = ⟨.ok [.command ⟨.literal ['\x7d'], args⟩], 1⟩ :=
    Block.readAll_allSourceLines (by simp [Block.AllWellFormed, Block.WellFormed]) hlevels
      (congrArg (· :: []) hl)
  refine (parse_eq_blocks hs).trans ?_
  rw [Script.blocks, hread]

/-- In the blocks of a program no command is named like a word that opens a loop and, in the body
of a loop, none is named like the closing mark.  At top level such a command is a program. -/
theorem parse_allWellFormed :
    (∀ source bs, parse source = .ok bs → Block.AllWellFormed false bs) ∧
      ∀ args, Argument.levelsAll args ≤ maxNesting →
        parse (Command.toSource ⟨.literal ['\x7d'], args⟩) =
          .ok [.command ⟨.literal ['\x7d'], args⟩] := by
  refine ⟨fun source bs h => ?_, fun args h => parse_command_bodyMark h⟩
  obtain ⟨script, -, hbs⟩ := exists_ofSource_of_parse h
  obtain ⟨hw, -⟩ := Block.readAll_eq_ok_iff.1 hbs
  exact hw.allWellFormed

/-- A command named by a command named like the opening words, in a loop in front of a command
named like the closing mark. -/
theorem parse_allWellFormed_quotedMarks :
    Block.AllWellFormed false
        [.whileLoop [] [.command ⟨.nested (.literal "for".toList) [], [.literal ['\x7d']]⟩],
          .command ⟨.literal ['\x7d'], [.literal "while".toList]⟩] ∧
      parse "\x7d for".toList =
        .ok [.command ⟨.literal ['\x7d'], [.literal "for".toList]⟩] := by
  have hp : parse "while \x7d\n(\"for\") \"\x7d\"\n\x7d\n\"\x7d\" while".toList =
      .ok [.whileLoop [] [.command ⟨.nested (.literal "for".toList) [], [.literal ['\x7d']]⟩],
        .command ⟨.literal ['\x7d'], [.literal "while".toList]⟩] := by
    cbv
  exact ⟨parse_allWellFormed.1 _ _ hp, parse_allWellFormed.2 [.literal "for".toList] (by decide)⟩

end BlockScript
