import BlockScript.Inspect
import BlockScript.Proofs.JsonTrees
import BlockScript.Proofs.QuotedTexts

/-!
# Trees told apart by their forms for inspection

The form of a tree begins with the name of its kind, and the forms of its parts stand between fixed
words.  A part is set apart by its form, whatever comes behind it, and so the whole is
(`Argument.setApart_inspect`, `Command.setApart_inspect`, `Block.setApart_inspect`).  So equality,
inspection and JSON draw the same distinctions between trees (`trees_told_apart`).
-/

namespace BlockScript

/-! ## Lists -/

theorem Text.join_cons (sep p : Text) (ps : List Text) :
    join sep (p :: ps) = p ++ ps.flatMap (sep ++ ·) := by
  induction ps generalizing p with
  | nil => exact (List.append_nil p).symm
  | cons q qs ih => rw [join_cons_cons, ih, List.flatMap_cons, List.append_assoc, List.append_assoc]

/-- The form of a list behind its first element. -/
def inspectRest (items : List Text) : Text := items.flatMap (", ".toList ++ ·) ++ [']']

theorem inspectList_cons (item : Text) (items : List Text) :
    inspectList (item :: items) = '[' :: (item ++ inspectRest items) := by
  rw [inspectList, Text.join_cons, List.append_assoc, inspectRest]

theorem inspectRest_cons (item : Text) (items : List Text) :
    inspectRest (item :: items) = ", ".toList ++ (item ++ inspectRest items) := by
  simp only [inspectRest, List.flatMap_cons, List.append_assoc]

section Lists

variable {α : Type} {form : α → Text} {as : List α}

theorem setApart_inspectRest (h : ∀ a ∈ as, SetApart form a) :
    SetApart (fun as => inspectRest (as.map form)) as := by
  induction as with
  | nil =>
    intro bs r q he
    cases bs with
    | nil => exact ⟨rfl, (List.cons.inj he).2⟩
    | cons b bs =>
      simp only [List.map_cons, inspectRest_cons] at he
      cases he
  | cons a as ih =>
    intro bs r q he
    cases bs with
    | nil =>
      simp only [List.map_cons, inspectRest_cons] at he
      cases he
    | cons b bs =>
      simp only [List.map_cons, inspectRest_cons, List.append_assoc, List.append_cancel_left_eq]
        at he
      obtain ⟨rfl, hrest⟩ := h a (by simp) b _ _ he
      obtain ⟨rfl, hbehind⟩ := ih (fun c hc => h c (by simp [hc])) bs _ _ hrest
      exact ⟨rfl, hbehind⟩

/-- A list is set apart by its form if its elements are by theirs, and these are not mistaken for
the end of a list. -/
theorem setApart_inspectList (h : ∀ a ∈ as, SetApart form a)
    (hopen : ∀ a, ∃ c cs, form a = c :: cs ∧ c ≠ ']') :
    SetApart (fun as => inspectList (as.map form)) as := by
  have hne : ∀ a r q, form a ++ r ≠ ']' :: q := by
    intro a r q he
    obtain ⟨c, cs, ha, hc⟩ := hopen a
    rw [ha] at he
    exact hc (List.cons.inj he).1
  intro bs r q he
  cases as with
  | nil =>
    cases bs with
    | nil => exact ⟨rfl, (List.cons.inj (List.cons.inj he).2).2⟩
    | cons b bs =>
      simp only [List.map_cons, inspectList_cons, List.cons_append, List.append_assoc] at he
      exact absurd (List.cons.inj he).2.symm (hne b _ _)
  | cons a as =>
    simp only [List.map_cons, inspectList_cons, List.cons_append, List.append_assoc] at he
    cases bs with
    | nil => exact absurd (List.cons.inj he).2 (hne a _ _)
    | cons b bs =>
      simp only [List.map_cons, inspectList_cons, List.cons_append, List.append_assoc] at he
      obtain ⟨rfl, hrest⟩ := h a (by simp) b _ _ (List.cons.inj he).2
      obtain ⟨rfl, hbehind⟩ := setApart_inspectRest (fun c hc => h c (by simp [hc])) bs _ _ hrest
      exact ⟨rfl, hbehind⟩

end Lists

/-! ## Arguments and commands -/

namespace Argument

theorem inspectAll_eq_map (as : List Argument) : inspectAll as = as.map inspect := by
  induction as with
  | nil => rfl
  | cons a as ih => rw [inspectAll, ih, List.map_cons]

theorem inspect_literal (text : Text) :
    (literal text).inspect = "Argument(".toList ++ (text.quoted ++ [')']) :=
  List.append_assoc _ _ _

theorem inspect_nested (name : Argument) (args : List Argument) :
    (nested name args).inspect =
      "Argument(".toList ++ ("command=".toList ++ (Command.inspect ⟨name, args⟩ ++ [')'])) :=
  List.append_assoc _ _ _

theorem inspect_opens (a : Argument) : ∃ c cs, a.inspect = c :: cs ∧ c ≠ ']' := by
  cases a with
  | literal text => rw [inspect_literal]; exact ⟨_, _, rfl, by decide⟩
  | nested name args => rw [inspect_nested]; exact ⟨_, _, rfl, by decide⟩

end Argument

theorem Command.inspect_eq (c : Command) :
    c.inspect = "Command(name=".toList ++ (c.name.inspect ++ (", args=".toList ++
      (inspectList (c.args.map Argument.inspect) ++ [')']))) := by
  unfold inspect inspectCommand
  simp only [Argument.inspectAll_eq_map, List.append_assoc]

theorem Command.setApart_inspect_of {c : Command} (hname : SetApart Argument.inspect c.name)
    (hargs : ∀ a ∈ c.args, SetApart Argument.inspect a) : SetApart Command.inspect c := by
  intro d r q h
  obtain ⟨name, args⟩ := c
  obtain ⟨name', args'⟩ := d
  simp only [inspect_eq, List.append_assoc, List.append_cancel_left_eq] at h
  obtain ⟨rfl, h₁⟩ := hname _ _ _ h
  rw [List.append_cancel_left_eq] at h₁
  obtain ⟨rfl, h₂⟩ := setApart_inspectList hargs Argument.inspect_opens _ _ _ h₁
  exact ⟨rfl, (List.cons.inj h₂).2⟩

namespace Argument

theorem quoted_append_ne (text r q : Text) : text.quoted ++ r ≠ "command=".toList ++ q := by
  intro h
  have hmark : text.quoteMark = 'c' := (List.cons.inj h).1
  rcases text.isQuoteMark_quoteMark with hq | hq <;> rw [hq] at hmark <;> cases hmark

mutual

theorem setApart_inspect : ∀ a : Argument, SetApart inspect a
  | .literal text, .literal text', r, q, h => by
    simp only [inspect_literal, List.append_assoc, List.append_cancel_left_eq] at h
    obtain ⟨rfl, hrest⟩ := text.setApart_quoted _ _ _ h
    exact ⟨rfl, (List.cons.inj hrest).2⟩
  | .literal text, .nested name args, r, q, h => by
    simp only [inspect_literal, inspect_nested, List.append_assoc,
      List.append_cancel_left_eq] at h
    exact absurd h (quoted_append_ne text _ _)
  | .nested name args, .literal text, r, q, h => by
    simp only [inspect_literal, inspect_nested, List.append_assoc,
      List.append_cancel_left_eq] at h
    exact absurd h.symm (quoted_append_ne text _ _)
  | .nested name args, .nested name' args', r, q, h => by
    have hc : SetApart Command.inspect ⟨name, args⟩ :=
      Command.setApart_inspect_of (setApart_inspect name) (setApart_inspect_all args)
    simp only [inspect_nested, List.append_assoc, List.append_cancel_left_eq] at h
    obtain ⟨he, hrest⟩ := hc _ _ _ h
    cases he
    exact ⟨rfl, (List.cons.inj hrest).2⟩

theorem setApart_inspect_all : ∀ as : List Argument, ∀ a ∈ as, SetApart inspect a
  | [] => List.forall_mem_nil _
  | a :: as => List.forall_mem_cons.2 ⟨setApart_inspect a, setApart_inspect_all as⟩

end

end Argument

theorem Command.setApart_inspect (c : Command) : SetApart inspect c :=
  setApart_inspect_of c.name.setApart_inspect fun a _ => a.setApart_inspect

/-! ## Blocks -/

namespace Argument

/-- The form of some arguments in brackets. -/
theorem setApart_inspectList (as : List Argument) :
    SetApart (fun as => inspectList (as.map inspect)) as :=
  BlockScript.setApart_inspectList (fun a _ => a.setApart_inspect) inspect_opens

/-- The form of a key, or of its absence. -/
def inspectKey (key? : Option Argument) : Text := (key?.map inspect).getD "None".toList

theorem setApart_inspectKey (key? : Option Argument) : SetApart inspectKey key? := by
  have hne : ∀ (a : Argument) (r q : Text), a.inspect ++ r ≠ "None".toList ++ q := by
    intro a r q h
    cases a with
    | literal text => rw [inspect_literal] at h; cases h
    | nested name args => rw [inspect_nested] at h; cases h
  intro other? r q h
  cases key? with
  | none =>
    cases other? with
    | none => exact ⟨rfl, List.append_cancel_left h⟩
    | some b => exact absurd h.symm (hne b _ _)
  | some a =>
    cases other? with
    | none => exact absurd h (hne a _ _)
    | some b =>
      obtain ⟨rfl, hrest⟩ := a.setApart_inspect b r q h
      exact ⟨rfl, hrest⟩

end Argument

namespace Block

theorem inspectAll_eq_map (bs : List Block) : inspectAll bs = bs.map inspect := by
  induction bs with
  | nil => rfl
  | cons b bs ih => rw [inspectAll, ih, List.map_cons]

theorem inspect_command (c : Command) :
    (command c).inspect = "CommandBlock(".toList ++ (c.inspect ++ [')']) :=
  List.append_assoc _ _ _

theorem inspect_forEach (key? : Option Argument) (value : Argument) (body : List Block) :
    (forEach key? value body).inspect =
      "ForBlock(key=".toList ++ (Argument.inspectKey key? ++ (", value=".toList ++
        (value.inspect ++ (", body=".toList ++ (inspectList (body.map inspect) ++ [')']))))) := by
  rw [← inspectAll_eq_map]
  simp only [← List.append_assoc]
  rfl

theorem inspect_whileLoop (condition : List Argument) (body : List Block) :
    (whileLoop condition body).inspect =
      "WhileBlock(condition=".toList ++ (inspectList (condition.map Argument.inspect) ++
        (", body=".toList ++ (inspectList (body.map inspect) ++ [')']))) := by
  rw [← inspectAll_eq_map, ← Argument.inspectAll_eq_map]
  simp only [← List.append_assoc]
  rfl

/-- The first letter of the form of a block. -/
def initial : Block → Char
  | .command _ => 'C'
  | .forEach _ _ _ => 'F'
  | .whileLoop _ _ => 'W'

theorem exists_inspect_eq_cons (b : Block) : ∃ cs, b.inspect = b.initial :: cs := by
  cases b with
  | command c => rw [inspect_command]; exact ⟨_, rfl⟩
  | forEach key? value body => rw [inspect_forEach]; exact ⟨_, rfl⟩
  | whileLoop condition body => rw [inspect_whileLoop]; exact ⟨_, rfl⟩

theorem inspect_opens (b : Block) : ∃ c cs, b.inspect = c :: cs ∧ c ≠ ']' := by
  obtain ⟨cs, h⟩ := b.exists_inspect_eq_cons
  exact ⟨b.initial, cs, h, by cases b <;> nofun⟩

theorem initial_eq {a b : Block} {r q : Text} (h : a.inspect ++ r = b.inspect ++ q) :
    a.initial = b.initial := by
  obtain ⟨cs, ha⟩ := a.exists_inspect_eq_cons
  obtain ⟨ds, hb⟩ := b.exists_inspect_eq_cons
  rw [ha, hb] at h
  exact (List.cons.inj h).1

mutual

theorem setApart_inspect : ∀ b : Block, SetApart inspect b
  | .command c, .command d, r, q, h => by
    simp only [inspect_command, List.append_assoc, List.append_cancel_left_eq] at h
    obtain ⟨rfl, hrest⟩ := c.setApart_inspect _ _ _ h
    exact ⟨rfl, (List.cons.inj hrest).2⟩
  | .forEach key? value body, .forEach key?' value' body', r, q, h => by
    have hbody := setApart_inspectList (setApart_inspect_all body) inspect_opens
    simp only [inspect_forEach, List.append_assoc, List.append_cancel_left_eq] at h
    obtain ⟨rfl, h₁⟩ := Argument.setApart_inspectKey key? _ _ _ h
    rw [List.append_cancel_left_eq] at h₁
    obtain ⟨rfl, h₂⟩ := value.setApart_inspect _ _ _ h₁
    rw [List.append_cancel_left_eq] at h₂
    obtain ⟨rfl, hrest⟩ := hbody _ _ _ h₂
    exact ⟨rfl, (List.cons.inj hrest).2⟩
  | .whileLoop condition body, .whileLoop condition' body', r, q, h => by
    have hbody := setApart_inspectList (setApart_inspect_all body) inspect_opens
    simp only [inspect_whileLoop, List.append_assoc, List.append_cancel_left_eq] at h
    obtain ⟨rfl, h₁⟩ := Argument.setApart_inspectList condition _ _ _ h
    rw [List.append_cancel_left_eq] at h₁
    obtain ⟨rfl, hrest⟩ := hbody _ _ _ h₁
    exact ⟨rfl, (List.cons.inj hrest).2⟩
  | .command _, .forEach _ _ _, _, _, h | .command _, .whileLoop _ _, _, _, h
  | .forEach _ _ _, .command _, _, _, h | .forEach _ _ _, .whileLoop _ _, _, _, h
  | .whileLoop _ _, .command _, _, _, h | .whileLoop _ _, .forEach _ _ _, _, _, h =>
    nomatch initial_eq h

theorem setApart_inspect_all : ∀ bs : List Block, ∀ b ∈ bs, SetApart inspect b
  | [] => List.forall_mem_nil _
  | b :: bs => List.forall_mem_cons.2 ⟨setApart_inspect b, setApart_inspect_all bs⟩

end

end Block

/-! ## Distinctions -/

/-- Two arguments, commands or blocks are equal exactly if they have the same form for inspection,
and exactly if they have the same JSON form up to the order of members.  No text, whatever it
consists of, can be mistaken between its quotation marks for another one with whatever behind it. -/
theorem trees_told_apart :
    (∀ a b : Argument, (a = b ↔ a.inspect = b.inspect) ∧
      (a = b ↔ a.toJson.sameUpToOrder b.toJson)) ∧
    (∀ c d : Command, (c = d ↔ c.inspect = d.inspect) ∧
      (c = d ↔ c.toJson.sameUpToOrder d.toJson)) ∧
    (∀ a b : Block, (a = b ↔ a.inspect = b.inspect) ∧
      (a = b ↔ a.toJson.sameUpToOrder b.toJson)) ∧
    ∀ s t r q : Text, s.quoted ++ r = t.quoted ++ q ↔ s = t ∧ r = q := by
  refine ⟨fun a b => ⟨?_, ?_⟩, fun c d => ⟨?_, ?_⟩, fun a b => ⟨?_, ?_⟩, fun s t r q => ?_⟩
  · exact a.setApart_inspect.eq_iff
  · exact Argument.sameUpToOrder_toJson.symm
  · exact c.setApart_inspect.eq_iff
  · exact Command.sameUpToOrder_toJson.symm
  · exact a.setApart_inspect.eq_iff
  · exact Block.sameUpToOrder_toJson.symm
  · exact s.setApart_quoted.append_eq_iff

-- a text that looks like the end of its own form is put between the other marks
example : (Argument.literal "'), Argument('".toList).inspect =
    "Argument(\"'), Argument('\")".toList := by
  decide

end BlockScript
