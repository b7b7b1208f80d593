import BlockScript.Program.Cursor
import BlockScript.Proofs.Concatenation
import BlockScript.Proofs.Grammar
import BlockScript.Proofs.ProgramRoundTrip

/-!
# Bodies as programs

The lines between the header of a loop and the line that closes its body are a program, and the
body is the blocks of that program (`Block.exists_body_of_read`).  Conversely a program can be put
into a loop, where it is the body, if no command of it at top level is named like the closing mark
and the loop around it has no more levels than there are (`parse_of_means_opening`).
-/

namespace BlockScript

/-! ## In a body and at top level -/

namespace Block

variable {inBody : Bool} {lines : List Line} {bs : List Block}

/-- What stands in a body can stand at top level. -/
theorem WrittenOn.atTopLevel (h : WrittenOn inBody lines bs) : WrittenOn false lines bs := by
  induction h with
  | nil => exact .nil
  | blank hline _ ih => exact .blank hline ih
  | command hline _ _ ih => exact .command hline nofun ih
  | loop hline hbody hclose _ _ ih => exact .loop hline hbody hclose ih

/-- What stands at top level can stand in a body, unless one of its commands is named like the
closing mark. -/
theorem WrittenOn.intoBody (h : WrittenOn inBody lines bs)
    (hname : ∀ args, .command ⟨.literal ['\x7d'], args⟩ ∉ bs) : WrittenOn true lines bs := by
  induction h with
  | nil => exact .nil
  | blank hline _ ih => exact .blank hline (ih hname)
  | @command inBody line lines c bs hline _ _ ih =>
    refine .command hline (fun _ => ?_) (ih fun args hm => hname args (List.mem_cons_of_mem _ hm))
    rw [closing?_eq_none_iff_of_means_command hline]
    intro hc
    apply hname c.args
    rw [← hc]
    exact List.mem_cons_self
  | loop hline hbody hclose _ _ ih =>
    exact .loop hline hbody hclose (ih fun args hm => hname args (List.mem_cons_of_mem _ hm))

/-- The grammar does not look at the numbers of lines. -/
theorem WrittenOn.renumber (f : Int → Int) (h : WrittenOn inBody lines bs) :
    WrittenOn inBody (lines.map (Line.renumber f)) bs := by
  induction h with
  | nil => exact .nil
  | blank hline _ ih => exact .blank hline ih
  | command hline hopen _ ih => exact .command hline hopen ih
  | loop hline _ hclose _ ihbody ih =>
    rw [List.map_cons, List.map_append, List.map_cons]
    exact .loop hline ihbody hclose ih

/-! ## The lines of a body -/

/-- A loop that is read stands on its header, the lines of the program that is its body, and a line
of nothing but the closing mark. -/
theorem exists_body_of_read {line : Line} {header : LoopHeader} {body : List Block} {n : Nat}
    (h : read (line :: lines) = ⟨.ok (some (header.block body)), n⟩) :
    ∃ inner close rest, lines = inner ++ close :: rest ∧ n = inner.length + 2 ∧
      tokenize close.text = .ok [.bodyMark] ∧ Script.blocks ⟨inner⟩ = .ok body := by
  rcases readWith_cases h with
    ⟨-, hb, -⟩ | ⟨c, -, -, hb, -⟩ | ⟨header', bs, k, -, -, hbody, hb, rfl⟩
  · cases hb
  · cases header <;> cases hb
  · obtain ⟨inner, close, rest, rfl, rfl, hclose, hw, hlt⟩ :=
      keepsGrammar_readBody maxNesting lines bs k hbody
    obtain rfl : body = bs := by cases header <;> cases header' <;> cases hb <;> rfl
    refine ⟨inner, close, rest, rfl, rfl, closing?_eq_some_iff.1 hclose, ?_⟩
    exact readAll_eq_ok_iff.2 ⟨hw.atTopLevel, Nat.le_of_lt hlt⟩

end Block

/-- The script of the lines from position `i` up to position `j`, both counted from the front. -/
def Script.between (script : Script) (i j : Nat) : Script := ⟨(script.lines.take j).drop i⟩

namespace Cursor

variable {script : Script} {p : Nat} {c : Cursor}

/-- The lines from the position on. -/
def rest (c : Cursor) : List Line := c.script.lines.drop c.position.toNat

theorem run_of_nonneg {α : Type} (h : 0 ≤ c.position) (reader : List Line → Reading α) :
    c.run reader = c.follow (reader c.rest) := by
  rw [run, ahead?, if_pos h]
  rfl

theorem readBlock_natCast (script : Script) (p : Nat) :
    (⟨script, p⟩ : Cursor).readBlock =
      (⟨script, p⟩ : Cursor).follow (Block.read (script.lines.drop p)) :=
  run_of_nonneg (Int.natCast_nonneg p) Block.read

/-- The lines between the header of a loop and the line that a cursor has last passed in reading the
loop are the program of its body, and that line is nothing but the closing mark. -/
theorem blocks_between_of_readBlock {header : LoopHeader} {body : List Block}
    (h : (⟨script, p⟩ : Cursor).readBlock = (.ok (some (header.block body)), c)) :
    ∃ q : Nat, c.position = (q + 1 : Nat) ∧ p < q ∧
      (script.between (p + 1) q).blocks = .ok body ∧
      ∃ line, script.lines[q]? = some line ∧ tokenize line.text = .ok [.bodyMark] := by
  rw [readBlock_natCast, follow] at h
  obtain ⟨hresult, rfl⟩ := Prod.mk.inj h
  cases hl : script.lines.drop p with
  | nil =>
    rw [hl] at hresult
    cases hresult
  | cons line lines =>
    cases hr : Block.read (line :: lines) with
    | mk result n =>
      rw [hl, hr] at hresult
      cases result with
      | error e => cases hresult
      | ok block =>
        cases hresult
        obtain ⟨inner, close, rest, rfl, rfl, hclose, hbody⟩ := Block.exists_body_of_read hr
        -- the line that closes the body is at position `p + 1 + inner.length`
        have hbehind : script.lines.drop (p + 1) = inner ++ close :: rest := by
          rw [← List.drop_drop, hl, List.drop_one, List.tail_cons]
        refine ⟨p + 1 + inner.length, ?_, by omega, ?_, close, ?_, hclose⟩
        · show (p : Int) + (inner.length + 2 : Nat) = (p + 1 + inner.length + 1 : Nat)
          omega
        · rw [Script.between, List.drop_take, hbehind, Nat.add_sub_cancel_left, List.take_left]
          exact hbody
        · rw [← List.getElem?_drop, hbehind, List.getElem?_append_right (Nat.le_refl _),
            Nat.sub_self, List.getElem?_cons_zero]

end Cursor

/-! ## A program in a loop -/

/-- A program below a line that opens a loop and above the closing mark is the body of that loop. -/
theorem parse_of_means_opening {top : Line} {header : LoopHeader} {source : Text}
    {bs : List Block} (hone : top.text.OneLine) (htop : top.Means (.opening header))
    (h : parse source = .ok bs) (hname : ∀ args, .command ⟨.literal ['\x7d'], args⟩ ∉ bs)
    (hd : (header.block bs).levels ≤ maxNesting) :
    parse (top.text ++ '\n' :: (source ++ '\n' :: ['\x7d'])) = .ok [header.block bs] := by
  have hmark : Text.OneLine ['\x7d'] := Text.oneLine_of_forall (by simp)
  obtain ⟨script, hs, hbs⟩ := exists_ofSource_of_parse h
  obtain ⟨hw, -⟩ := Block.readAll_eq_ok_iff.1 hbs
  obtain ⟨line, hline, htext⟩ := Script.exists_line_of_oneLine hone
  obtain ⟨close, hclose, hclosing⟩ := Script.exists_line_of_oneLine hmark
  have hinner := Script.ofSource_append hs ['\x7d']
  rw [hclose] at hinner
  have hall := Script.ofSource_append hline (source ++ '\n' :: ['\x7d'])
  rw [hinner] at hall
  have hmeans : line.Means (.opening header) := by
    obtain ⟨tokens, ht, hst⟩ := htop
    exact ⟨tokens, htext ▸ ht, hst⟩
  have hlast : ∀ f g : Int → Int, Block.closing? ((close.renumber f).renumber g) = some [] :=
    fun _ _ => Block.closing?_of_text_eq hclosing
  -- below the header the lines have other numbers
  have hlines : ∀ f g : Int → Int,
      ([line] ++ (script.lines ++ [close].map (Line.renumber f)).map (Line.renumber g)) =
        line :: (script.lines.map (Line.renumber g) ++ [(close.renumber f).renumber g]) := by
    intro f g
    simp
  refine (parse_eq_blocks hall).trans (Block.readAll_eq_ok_iff.2 ⟨?_, ?_⟩)
  · show Block.WrittenOn false ([line] ++ _) _
    rw [hlines]
    exact .loop hmeans ((hw.intoBody hname).renumber _) (hlast _ _) .nil
  · rw [Block.levelsAll_cons_le_iff]
    exact ⟨hd, Nat.zero_le _⟩

/-- The line that opens a loop over the values of an argument. -/
def Argument.forLine (value : Argument) : Text := "for ".toList ++ value.toSource ++ " \x7d".toList

theorem Argument.forLine_eq (value : Argument) :
    value.forLine = "for".toList ++ trailing [value] ++ " \x7d".toList := by
  simp [forLine, trailing]

theorem Argument.oneLine_forLine (value : Argument) : value.forLine.OneLine := by
  rw [forLine_eq]
  exact Block.oneLine_header (Text.oneLine_of_forall (by simp)) [value]

theorem Argument.means_forLine (value : Argument) (number : Int) :
    (⟨value.forLine, number⟩ : Line).Means (.opening (.forEach none value)) := by
  have hvalue : value.token.argument = .ok value :=
    (ofToken_eq_ok_iff.1 (value.ofToken_token (Nat.le_refl _))).1
  have ht : tokenize value.forLine = .ok [.forWord, value.token, .bodyMark] := by
    rw [forLine_eq]
    exact tokenize_header "for".toList rfl [value]
  refine ⟨_, ht, ?_⟩
  have hheader : LoopHeader.ofForTokens Token.argument [.forWord, value.token, .bodyMark] =
      value.token.argument >>= fun v => .ok (.forEach none v) := rfl
  show (LoopHeader.ofForTokens Token.argument [.forWord, value.token, .bodyMark]).map _ = _
  rw [hheader, hvalue]
  rfl

/-- The body of a loop that a cursor reads is the program of the lines between the header and the
line that closes the body, which is nothing but the closing mark.  And a program of which no command
at top level is named like the closing mark is the body of the loop that is written around it. -/
theorem body_isProgram :
    (∀ (script : Script) (p : Nat) (header : LoopHeader) (body : List Block) (c : Cursor),
        (⟨script, p⟩ : Cursor).readBlock = (.ok (some (header.block body)), c) →
        ∃ q : Nat, c.position = (q + 1 : Nat) ∧ p < q ∧
          (script.between (p + 1) q).blocks = .ok body ∧
          ∃ line, script.lines[q]? = some line ∧ tokenize line.text = .ok [.bodyMark]) ∧
      ∀ (source : Text) (value : Argument) (bs : List Block), parse source = .ok bs →
        (∀ args, .command ⟨.literal ['\x7d'], args⟩ ∉ bs) →
        (Block.forEach none value bs).levels ≤ maxNesting →
        parse ("for ".toList ++ value.toSource ++ " \x7d".toList ++
            '\n' :: (source ++ '\n' :: ['\x7d'])) = .ok [.forEach none value bs] := by
  refine ⟨fun script p header body c => Cursor.blocks_between_of_readBlock, ?_⟩
  intro source value bs h hname hd
  exact parse_of_means_opening value.oneLine_forLine (value.means_forLine 1) h hname hd

/-- The body of a loop with another loop and a comment in it, and a comment that hides a closing
mark in a loop in a loop. -/
theorem body_isProgram_nested :
    Script.blocks ⟨[⟨"while \x7d".toList, 30⟩, ⟨['b'], 40⟩, ⟨['\x7d'], 50⟩, ⟨['#'], 60⟩]⟩ =
        .ok [.whileLoop [] [.command ⟨.literal ['b'], []⟩]] ∧
      parse "for (a \"\") \x7d\nwhile \x7d\n#\x7d\n\x7d\n\x7d".toList =
        .ok [.forEach none (.nested (.literal ['a']) [.literal []]) [.whileLoop [] []]] := by
  have hread : (⟨⟨[⟨['a'], 10⟩, ⟨"for x \x7d".toList, 20⟩, ⟨"while \x7d".toList, 30⟩,
      ⟨['b'], 40⟩, ⟨['\x7d'], 50⟩, ⟨['#'], 60⟩, ⟨['\x7d'], 70⟩, ⟨['\x7d'], 80⟩]⟩, (1 : Nat)⟩ :
        Cursor).readBlock =
      (.ok (some (.forEach none (.literal ['x']) [.whileLoop [] [.command ⟨.literal ['b'], []⟩]])),
        ⟨⟨[⟨['a'], 10⟩, ⟨"for x \x7d".toList, 20⟩, ⟨"while \x7d".toList, 30⟩, ⟨['b'], 40⟩,
          ⟨['\x7d'], 50⟩, ⟨['#'], 60⟩, ⟨['\x7d'], 70⟩, ⟨['\x7d'], 80⟩]⟩, 7⟩) := by
    cbv
  have hp : parse "while \x7d\n#\x7d\n\x7d".toList = .ok [.whileLoop [] []] := by cbv
  obtain ⟨q, hq, -, hbody, -⟩ :=
    body_isProgram.1 _ 1 (.forEach none (.literal ['x'])) _ _ hread
  obtain rfl : q = 6 := Nat.succ.inj (Int.ofNat.inj hq).symm
  exact ⟨hbody, body_isProgram.2 _ (.nested (.literal ['a']) [.literal []]) _ hp (by simp)
    (by decide)⟩

end BlockScript
