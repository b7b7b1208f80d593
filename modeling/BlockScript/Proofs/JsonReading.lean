import BlockScript.Json
import Mathlib.Data.List.DropRight

/-!
# Reading JSON

`Json.decode` reads a text by the grammar of JSON, as far as `Json` has documents (there are no
numbers and no truth values).  White space between the parts means nothing, and elements or members
are separated by commas.  A string is a sequence of UTF-16 units: a character stands for its own
units unless it is a quote, a backslash or a control character, and an escape stands for one unit.
Surrogates among the units make up a character in pairs only.

Main statements: what is rendered is decoded to the same document (`Json.decode_render`), and it
consists of line feeds and printable ASCII (`Json.isPlain_of_mem_render`).
-/

namespace BlockScript

namespace Json

/-! ## The grammar -/

/-- The white space of JSON. -/
def isSpace (c : Char) : Bool := c == ' ' || c == '\t' || c == '\n' || c == '\r'

/-- The text without the white space in front. -/
def skipSpace (cs : Text) : Text := cs.dropWhile isSpace

/-- The value of a hexadecimal digit, in upper or lower case. -/
def hexValue? (c : Char) : Option Nat :=
  if '0'.toNat ≤ c.toNat ∧ c.toNat ≤ '9'.toNat then some (c.toNat - '0'.toNat)
  else if 'a'.toNat ≤ c.toNat ∧ c.toNat ≤ 'f'.toNat then some (c.toNat - 'a'.toNat + 10)
  else if 'A'.toNat ≤ c.toNat ∧ c.toNat ≤ 'F'.toNat then some (c.toNat - 'A'.toNat + 10)
  else none

/-- The UTF-16 unit of four hexadecimal digits. -/
def hexUnit? (a b c d : Char) : Option Nat := do
  return (((← hexValue? a) * 16 + (← hexValue? b)) * 16 + (← hexValue? c)) * 16 + (← hexValue? d)

/-- The character that a backslash in front of `e` stands for, unless `e` is a `u`. -/
def escaped? (e : Char) : Option Char :=
  if e = '"' ∨ e = '\\' ∨ e = '/' then some e
  else if e = 'b' then some '\x08'
  else if e = 'f' then some '\x0c'
  else if e = 'n' then some '\n'
  else if e = 'r' then some '\r'
  else if e = 't' then some '\t'
  else none

/-- The UTF-16 units of a character. -/
def units (c : Char) : List Nat :=
  if c.toNat < 0x10000 then [c.toNat]
  else [0xd800 + (c.toNat - 0x10000) / 0x400, 0xdc00 + (c.toNat - 0x10000) % 0x400]

/-- The text of some UTF-16 units; a surrogate outside a pair stands for nothing. -/
def ofUnits? : List Nat → Option Text
  | [] => some []
  | unit :: rest =>
    if 0xd800 ≤ unit ∧ unit < 0xdc00 then
      match rest with
      | [] => none
      | low :: rest =>
        if 0xdc00 ≤ low ∧ low < 0xe000 then
          (ofUnits? rest).map
            (Char.ofNat (0x10000 + (unit - 0xd800) * 0x400 + (low - 0xdc00)) :: ·)
        else none
    else if 0xdc00 ≤ unit ∧ unit < 0xe000 then none
    else (ofUnits? rest).map (Char.ofNat unit :: ·)

/-- The UTF-16 units of a string whose opening quote has been read. -/
def readUnits : Text → Option (List Nat × Text)
  | [] => none
  | c :: cs =>
    if c = '"' then some ([], cs)
    else if c = '\\' then
      match cs with
      | 'u' :: h₁ :: h₂ :: h₃ :: h₄ :: cs => do
        let unit ← hexUnit? h₁ h₂ h₃ h₄
        (readUnits cs).map fun (us, rest) => (unit :: us, rest)
      | e :: cs => do
        let d ← escaped? e
        (readUnits cs).map fun (us, rest) => (units d ++ us, rest)
      | [] => none
    else if c.toNat < 0x20 then none
    else (readUnits cs).map fun (us, rest) => (units c ++ us, rest)

/-- The value of a string whose opening quote has been read. -/
def readString (cs : Text) : Option (Text × Text) := do
  let (us, rest) ← readUnits cs
  return (← ofUnits? us, rest)

section Sequences

variable {α : Type} (read : Text → Option (α × Text)) (close : Char)

/-- What follows the first element of a sequence up to the mark that closes it, `bound` being more
than there are elements left. -/
def readRest : (bound : Nat) → Text → Option (List α × Text)
  | 0, _ => none
  | bound + 1, cs =>
    match skipSpace cs with
    | [] => none
    | c :: cs =>
      if c = close then some ([], cs)
      else if c = ',' then do
        let (item, cs) ← read cs
        let (items, cs) ← readRest bound cs
        return (item :: items, cs)
      else none

/-- A sequence with commas between its elements, up to the mark that closes it. -/
def readSequence (bound : Nat) (cs : Text) : Option (List α × Text) :=
  match skipSpace cs with
  | [] => none
  | c :: rest =>
    if c = close then some ([], rest)
    else do
      let (item, rest) ← read (c :: rest)
      let (items, rest) ← readRest read close bound rest
      return (item :: items, rest)

end Sequences

/-- A member of an object: its name, a colon and its value. -/
def readMember (read : Text → Option (Json × Text)) (cs : Text) :
    Option ((Text × Json) × Text) :=
  match skipSpace cs with
  | '"' :: cs => do
    let (name, cs) ← readString cs
    match skipSpace cs with
    | ':' :: cs =>
      let (value, cs) ← read cs
      return ((name, value), cs)
    | _ => none
  | _ => none

/-- The document at the front of a text, which is read from at most `bound` of its characters. -/
def readDocument : (bound : Nat) → Text → Option (Json × Text)
  | 0, _ => none
  | bound + 1, cs =>
    match skipSpace cs with
    | 'n' :: 'u' :: 'l' :: 'l' :: cs => some (.null, cs)
    | '"' :: cs => (readString cs).map fun (text, cs) => (.string text, cs)
    | '[' :: cs =>
      (readSequence (readDocument bound) ']' bound cs).map fun (items, cs) => (.array items, cs)
    | '\x7b' :: cs =>
      (readSequence (readMember (readDocument bound)) '\x7d' bound cs).map
        fun (members, cs) => (.object members, cs)
    | _ => none

/-- The document that a text stands for, with nothing but white space around it. -/
def decode (text : Text) : Option Json := do
  let (document, rest) ← readDocument text.length text
  if skipSpace rest = [] then return document else none

/-! ## Strings -/

theorem hexValue?_digitChar : ∀ d < 16, hexValue? (Nat.digitChar d) = some d := by decide

theorem hex_four (n : Nat) :
    Text.hex 4 n = [Nat.digitChar (n / 4096 % 16), Nat.digitChar (n / 256 % 16),
      Nat.digitChar (n / 16 % 16), Nat.digitChar (n % 16)] := by
  simp [Text.hex, Nat.div_div_eq_div_mul]

theorem hexUnit?_digitChar {n : Nat} (h : n < 0x10000) :
    hexUnit? (Nat.digitChar (n / 4096 % 16)) (Nat.digitChar (n / 256 % 16))
      (Nat.digitChar (n / 16 % 16)) (Nat.digitChar (n % 16)) = some n := by
  have hd : ∀ m, hexValue? (Nat.digitChar (m % 16)) = some (m % 16) :=
    fun m => hexValue?_digitChar _ (Nat.mod_lt m (by decide))
  rw [hexUnit?, hd, hd, hd, hd]
  show some _ = some n
  congr 1
  omega

theorem readUnits_unitEscape {unit : Nat} (h : unit < 0x10000) (rest : Text) :
    readUnits (unitEscape unit ++ rest) =
      (readUnits rest).map fun (us, rest) => (unit :: us, rest) := by
  rw [unitEscape, hex_four, readUnits.eq_def]
  show (hexUnit? _ _ _ _).bind _ = _
  rw [hexUnit?_digitChar h]
  rfl

/-- How a character is written: by an escape of its own, as it is, or by its units. -/
theorem escape_cases (c : Char) :
    (∃ e ∈ ['"', '\\', 'n', 'r', 't', 'f', 'b'], escape c = ['\\', e] ∧ escaped? e = some c) ∨
      (escape c = [c] ∧ c ≠ '"' ∧ c ≠ '\\' ∧ 0x20 ≤ c.toNat ∧ c.toNat < 0x7f) ∨
      escape c = (units c).flatMap unitEscape := by
  by_cases hq : c = '"' ∨ c = '\\'
  · rcases hq with rfl | rfl
    · exact .inl ⟨'"', by decide, by decide, by decide⟩
    · exact .inl ⟨'\\', by decide, by decide, by decide⟩
  by_cases hn : c = '\n'
  · exact .inl ⟨'n', by decide, by rw [hn]; decide, by rw [hn]; decide⟩
  by_cases hr : c = '\r'
  · exact .inl ⟨'r', by decide, by rw [hr]; decide, by rw [hr]; decide⟩
  by_cases ht : c = '\t'
  · exact .inl ⟨'t', by decide, by rw [ht]; decide, by rw [ht]; decide⟩
  by_cases hf : c = '\x0c'
  · exact .inl ⟨'f', by decide, by rw [hf]; decide, by rw [hf]; decide⟩
  by_cases hb : c = '\x08'
  · exact .inl ⟨'b', by decide, by rw [hb]; decide, by rw [hb]; decide⟩
  rw [escape, if_neg hq, if_neg hn, if_neg hr, if_neg ht, if_neg hf, if_neg hb]
  by_cases hp : 0x20 ≤ c.toNat ∧ c.toNat < 0x7f
  · exact .inr (.inl ⟨if_pos hp, fun h => hq (.inl h), fun h => hq (.inr h), hp⟩)
  · refine .inr (.inr ?_)
    rw [if_neg hp, units]
    split
    · exact (List.append_nil _).symm
    · simp

/-- No character is a surrogate. -/
theorem toNat_lt_or (c : Char) :
    c.toNat < 0xd800 ∨ 0xe000 ≤ c.toNat ∧ c.toNat < 0x110000 := c.valid

theorem lt_of_mem_units {c : Char} {unit : Nat} (h : unit ∈ units c) : unit < 0x10000 := by
  have hc := toNat_lt_or c
  unfold units at h
  split at h
  · next hs => rwa [List.mem_singleton.1 h]
  · simp only [List.mem_cons, List.not_mem_nil, or_false] at h
    omega

theorem readUnits_flatMap_unitEscape {us : List Nat} (h : ∀ unit ∈ us, unit < 0x10000)
    (rest : Text) :
    readUnits (us.flatMap unitEscape ++ rest) =
      (readUnits rest).map fun (vs, rest) => (us ++ vs, rest) := by
  induction us with
  | nil => simp
  | cons unit us ih =>
    rw [List.flatMap_cons, List.append_assoc, readUnits_unitEscape (h unit (by simp)),
      ih fun v hv => h v (by simp [hv])]
    simp [Function.comp_def]

theorem readUnits_escape (c : Char) (rest : Text) :
    readUnits (escape c ++ rest) =
      (readUnits rest).map fun (us, rest) => (units c ++ us, rest) := by
  rcases escape_cases c with ⟨e, he, hs, hd⟩ | ⟨hs, hq, hb, hl, -⟩ | hs
  · have hu : e ≠ 'u' := by
      rintro rfl
      exact absurd he (by decide)
    rw [hs, List.cons_append, List.singleton_append, readUnits.eq_def]
    simp [hu, hd]
  · rw [hs, List.singleton_append, readUnits.eq_def]
    simp only [if_neg hq, if_neg hb, if_neg (show ¬ c.toNat < 0x20 by omega)]
  · rw [hs]
    exact readUnits_flatMap_unitEscape (fun unit => lt_of_mem_units) rest

theorem ofUnits?_units (c : Char) (us : List Nat) :
    ofUnits? (units c ++ us) = (ofUnits? us).map (c :: ·) := by
  have hc := toNat_lt_or c
  unfold units
  split
  · rw [List.singleton_append, ofUnits?.eq_def]
    simp only [if_neg (show ¬ (0xd800 ≤ c.toNat ∧ c.toNat < 0xdc00) by omega),
      if_neg (show ¬ (0xdc00 ≤ c.toNat ∧ c.toNat < 0xe000) by omega), Char.ofNat_toNat]
  · have hu : 0x10000 + (0xd800 + (c.toNat - 0x10000) / 0x400 - 0xd800) * 0x400 +
        (0xdc00 + (c.toNat - 0x10000) % 0x400 - 0xdc00) = c.toNat := by omega
    rw [List.cons_append, List.singleton_append, ofUnits?.eq_def]
    simp only [hu, Char.ofNat_toNat]
    rw [if_pos (by omega), if_pos (by omega)]

theorem readString_escape (text rest : Text) :
    readString (text.flatMap escape ++ '"' :: rest) = some (text, rest) := by
  have hu : readUnits (text.flatMap escape ++ '"' :: rest) =
      some (text.flatMap units, rest) := by
    induction text with
    | nil => rw [List.flatMap_nil, List.nil_append, readUnits.eq_def]; rfl
    | cons c cs ih =>
      rw [List.flatMap_cons, List.append_assoc, readUnits_escape, ih]
      rfl
  have ho : ofUnits? (text.flatMap units) = some text := by
    clear hu
    induction text with
    | nil => rw [List.flatMap_nil, ofUnits?]
    | cons c cs ih => rw [List.flatMap_cons, ofUnits?_units, ih]; rfl
  rw [readString, hu]
  show (ofUnits? (text.flatMap units)).bind _ = _
  rw [ho]
  rfl

/-! ## Sequences -/

theorem skipSpace_of_not_isSpace {c : Char} (h : isSpace c = false) (cs : Text) :
    skipSpace (c :: cs) = c :: cs := by
  rw [skipSpace, List.dropWhile_cons_of_neg (by simp [h])]

theorem skipSpace_newline (level : Nat) (cs : Text) :
    skipSpace (newline level ++ cs) = skipSpace cs := by
  have hs : ∀ c ∈ newline level, isSpace c = true := by
    intro c hc
    rcases List.mem_cons.1 hc with rfl | hc
    · rfl
    · rw [List.eq_of_mem_replicate hc]
      rfl
  rw [skipSpace, List.dropWhile_append_of_pos hs]
  rfl

theorem skipSpace_skipSpace (cs : Text) : skipSpace (skipSpace cs) = skipSpace cs :=
  List.dropWhile_idempotent _ _

section Sequences

variable {α : Type} {read : Text → Option (α × Text)} {write : α → Text} {close : Char}
  {items : List α} {rest : Text} {bound : Nat}

/-- Elements after the first, each on a line of its own. -/
def writeRest (level : Nat) (write : α → Text) (items : List α) : Text :=
  items.flatMap fun item => ',' :: (newline level ++ write item)

theorem readRest_writeRest (hc : isSpace close = false) (hcomma : close ≠ ',')
    (hskip : ∀ cs, read (skipSpace cs) = read cs)
    (hread : ∀ item ∈ items, ∀ rest, read (write item ++ rest) = some (item, rest))
    (hb : items.length < bound) (level outer : Nat) (rest : Text) :
    readRest read close bound (writeRest level write items ++ (newline outer ++ close :: rest)) =
      some (items, rest) := by
  induction items generalizing bound with
  | nil =>
    obtain ⟨bound, rfl⟩ := Nat.exists_eq_add_one_of_ne_zero (Nat.ne_of_gt hb)
    rw [writeRest, List.flatMap_nil, List.nil_append, readRest, skipSpace_newline,
      skipSpace_of_not_isSpace hc]
    simp
  | cons item items ih =>
    obtain ⟨bound, rfl⟩ := Nat.exists_eq_add_one_of_ne_zero (Nat.ne_of_gt (Nat.zero_lt_of_lt hb))
    have hitem : ∀ rest, read (newline level ++ (write item ++ rest)) = some (item, rest) := by
      intro rest
      rw [← hskip, skipSpace_newline, hskip, hread item (by simp)]
    have hitems := ih (fun i hi => hread i (by simp [hi])) (Nat.lt_of_succ_lt_succ hb)
    rw [writeRest] at hitems
    rw [writeRest, List.flatMap_cons, List.cons_append, List.cons_append, readRest,
      skipSpace_of_not_isSpace (by decide)]
    simp only [if_neg hcomma.symm, if_true, List.append_assoc, hitem]
    show (readRest read close bound _).bind _ = _
    rw [hitems]
    rfl

theorem readSequence_nil (hc : isSpace close = false) (rest : Text) :
    readSequence read close bound (close :: rest) = some ([], rest) := by
  rw [readSequence, skipSpace_of_not_isSpace hc]
  simp

theorem readSequence_cons {item : α} (hc : isSpace close = false) (hcomma : close ≠ ',')
    (hskip : ∀ cs, read (skipSpace cs) = read cs)
    (hread : ∀ i ∈ item :: items, ∀ rest, read (write i ++ rest) = some (i, rest))
    (hbegin : ∃ c cs, write item = c :: cs ∧ isSpace c = false ∧ c ≠ close)
    (hb : items.length < bound) (level outer : Nat) (rest : Text) :
    readSequence read close bound (newline level ++ (write item ++
      (writeRest level write items ++ (newline outer ++ close :: rest)))) =
        some (item :: items, rest) := by
  obtain ⟨c, cs, hw, hs, hne⟩ := hbegin
  have hitem := hread item (by simp)
  have hitems := readRest_writeRest hc hcomma hskip (fun i hi => hread i (by simp [hi])) hb
    level outer rest
  rw [hw] at hitem
  rw [readSequence, skipSpace_newline, hw, List.cons_append, skipSpace_of_not_isSpace hs]
  simp only [if_neg hne]
  rw [← List.cons_append, hitem]
  show (readRest read close bound _).bind _ = _
  rw [hitems]
  rfl

end Sequences

/-! ## Documents -/

theorem prettyItems_eq (level : Nat) (items : List Json) :
    prettyItems level items = writeRest level (pretty level) items := by
  induction items with
  | nil => rw [prettyItems]; rfl
  | cons item items ih => rw [prettyItems, ih]; simp [writeRest]

/-- A member of an object, on one line with the beginning of its value. -/
def prettyMember (level : Nat) (member : Text × Json) : Text :=
  encodeString member.1 ++ (": ".toList ++ pretty level member.2)

theorem prettyMembers_eq (level : Nat) (members : List (Text × Json)) :
    prettyMembers level members = writeRest level (prettyMember level) members := by
  induction members with
  | nil => rw [prettyMembers]; rfl
  | cons member members ih =>
    rw [prettyMembers, ih]
    simp [writeRest, prettyMember]

theorem length_le_writeRest {α : Type} (level : Nat) (write : α → Text) (items : List α) :
    items.length ≤ (writeRest level write items).length := by
  induction items with
  | nil => exact Nat.zero_le _
  | cons item items ih =>
    rw [writeRest] at ih
    rw [writeRest, List.flatMap_cons]
    simp only [List.length_cons, List.length_append]
    omega

/-- A document begins with a character that is neither white space nor a closing mark. -/
theorem pretty_eq_cons (level : Nat) (document : Json) :
    ∃ c cs, pretty level document = c :: cs ∧ isSpace c = false ∧ c ≠ ']' := by
  cases document with
  | null => exact ⟨'n', _, by rw [pretty]; rfl, by decide, by decide⟩
  | string text => exact ⟨'"', _, by rw [pretty]; rfl, by decide, by decide⟩
  | array items =>
    cases items with
    | nil => exact ⟨'[', _, by rw [pretty]; rfl, by decide, by decide⟩
    | cons item items => exact ⟨'[', _, by rw [pretty], by decide, by decide⟩
  | object members =>
    cases members with
    | nil => exact ⟨'\x7b', _, by rw [pretty]; rfl, by decide, by decide⟩
    | cons member members => exact ⟨'\x7b', _, by rw [pretty], by decide, by decide⟩

theorem readDocument_skipSpace (bound : Nat) (cs : Text) :
    readDocument bound (skipSpace cs) = readDocument bound cs := by
  cases bound with
  | zero => rw [readDocument, readDocument]
  | succ bound => rw [readDocument, readDocument, skipSpace_skipSpace]

theorem readMember_skipSpace (read : Text → Option (Json × Text)) (cs : Text) :
    readMember read (skipSpace cs) = readMember read cs := by
  rw [readMember, readMember, skipSpace_skipSpace]

theorem readDocument_string {bound : Nat} {cs rest text : Text}
    (h : readString cs = some (text, rest)) :
    readDocument (bound + 1) ('"' :: cs) = some (.string text, rest) := by
  rw [readDocument, skipSpace_of_not_isSpace (by decide)]
  simp only [h]
  rfl

theorem readDocument_array {bound : Nat} {cs rest : Text} {items : List Json}
    (h : readSequence (readDocument bound) ']' bound cs = some (items, rest)) :
    readDocument (bound + 1) ('[' :: cs) = some (.array items, rest) := by
  rw [readDocument, skipSpace_of_not_isSpace (by decide)]
  simp only [h]
  rfl

theorem readDocument_object {bound : Nat} {cs rest : Text} {members : List (Text × Json)}
    (h : readSequence (readMember (readDocument bound)) '\x7d' bound cs = some (members, rest)) :
    readDocument (bound + 1) ('\x7b' :: cs) = some (.object members, rest) := by
  rw [readDocument, skipSpace_of_not_isSpace (by decide)]
  simp only [h]
  rfl

theorem readMember_prettyMember {read : Text → Option (Json × Text)} {level : Nat}
    {member : Text × Json} (hskip : ∀ cs, read (skipSpace cs) = read cs)
    (hread : ∀ rest, read (pretty level member.2 ++ rest) = some (member.2, rest)) (rest : Text) :
    readMember read (prettyMember level member ++ rest) = some (member, rest) := by
  have hvalue : read (' ' :: (pretty level member.2 ++ rest)) = some (member.2, rest) := by
    rw [← hskip, skipSpace, List.dropWhile_cons_of_pos (by decide), ← skipSpace, hskip, hread]
  rw [prettyMember, encodeString]
  simp only [List.cons_append, List.append_assoc, List.nil_append]
  rw [readMember, skipSpace_of_not_isSpace (by decide)]
  simp only [readString_escape]
  show (read (' ' :: (pretty level member.2 ++ rest))).bind _ = _
  rw [hvalue]
  rfl

mutual

/-- A document is read back from where it is written, whatever follows. -/
theorem readDocument_pretty :
    ∀ (document : Json) (level bound : Nat), (pretty level document).length ≤ bound →
      ∀ rest, readDocument bound (pretty level document ++ rest) = some (document, rest)
  | .null, level, bound, hb, rest => by
    rw [pretty] at hb ⊢
    obtain ⟨bound, rfl⟩ := Nat.exists_eq_add_of_le' (Nat.le_trans (by decide : 1 ≤ _) hb)
    rw [readDocument]
    rfl
  | .string text, level, bound, hb, rest => by
    rw [pretty, encodeString] at hb ⊢
    obtain ⟨bound, rfl⟩ := Nat.exists_eq_add_of_le' (Nat.le_trans (Nat.le_add_left 1 _) hb)
    rw [List.cons_append, List.append_assoc]
    exact readDocument_string (readString_escape text rest)
  | .array [], level, bound, hb, rest => by
    rw [pretty] at hb ⊢
    obtain ⟨bound, rfl⟩ := Nat.exists_eq_add_of_le' (Nat.le_trans (by decide : 1 ≤ _) hb)
    exact readDocument_array (readSequence_nil (by decide) rest)
  | .array (item :: items), level, bound, hb, rest => by
    rw [pretty] at hb ⊢
    simp only [List.length_cons, List.length_append] at hb
    obtain ⟨bound, rfl⟩ := Nat.exists_eq_add_of_le' (Nat.le_trans (Nat.le_add_left 1 _) hb)
    have hitems := length_le_writeRest (level + 1) (pretty (level + 1)) items
    rw [← prettyItems_eq] at hitems
    have hitem := readDocument_pretty item (level + 1) bound (by omega)
    have hread : ∀ i ∈ item :: items, ∀ rest,
        readDocument bound (pretty (level + 1) i ++ rest) = some (i, rest) :=
      List.forall_mem_cons.2
        ⟨hitem, readDocument_prettyItems items (level + 1) bound (by omega)⟩
    have hs := readSequence_cons (show isSpace ']' = false by decide) (by decide)
      (readDocument_skipSpace bound) hread (pretty_eq_cons (level + 1) item)
      (show items.length < bound by omega) (level + 1) level rest
    rw [← prettyItems_eq] at hs
    simp only [List.cons_append, List.append_assoc, List.nil_append]
    exact readDocument_array hs
  | .object [], level, bound, hb, rest => by
    rw [pretty] at hb ⊢
    obtain ⟨bound, rfl⟩ := Nat.exists_eq_add_of_le' (Nat.le_trans (by decide : 1 ≤ _) hb)
    exact readDocument_object (readSequence_nil (by decide) rest)
  | .object ((name, value) :: members), level, bound, hb, rest => by
    rw [pretty] at hb ⊢
    simp only [List.length_cons, List.length_append] at hb
    obtain ⟨bound, rfl⟩ := Nat.exists_eq_add_of_le' (Nat.le_trans (Nat.le_add_left 1 _) hb)
    have hmembers := length_le_writeRest (level + 1) (prettyMember (level + 1)) members
    rw [← prettyMembers_eq] at hmembers
    have hvalue := readDocument_pretty value (level + 1) bound (by omega)
    have hread : ∀ m ∈ (name, value) :: members, ∀ rest,
        readMember (readDocument bound) (prettyMember (level + 1) m ++ rest) = some (m, rest) :=
      fun m hm => readMember_prettyMember (readDocument_skipSpace bound)
        (List.forall_mem_cons.2
          ⟨hvalue, readDocument_prettyMembers members (level + 1) bound (by omega)⟩ m hm)
    have hs := readSequence_cons (show isSpace '\x7d' = false by decide) (by decide)
      (readMember_skipSpace _) hread ⟨'"', _, rfl, by decide, by decide⟩
      (show members.length < bound by omega) (level + 1) level rest
    rw [← prettyMembers_eq, prettyMember] at hs
    simp only [List.cons_append, List.append_assoc, List.nil_append] at hs ⊢
    exact readDocument_object hs

theorem readDocument_prettyItems :
    ∀ (items : List Json) (level bound : Nat), (prettyItems level items).length ≤ bound →
      ∀ item ∈ items, ∀ rest, readDocument bound (pretty level item ++ rest) = some (item, rest)
  | [], _, _, _ => List.forall_mem_nil _
  | item :: items, level, bound, hb => by
    rw [prettyItems] at hb
    simp only [List.length_cons, List.length_append] at hb
    exact List.forall_mem_cons.2 ⟨readDocument_pretty item level bound (by omega),
      readDocument_prettyItems items level bound (by omega)⟩

theorem readDocument_prettyMembers :
    ∀ (members : List (Text × Json)) (level bound : Nat),
      (prettyMembers level members).length ≤ bound →
        ∀ member ∈ members, ∀ rest,
          readDocument bound (pretty level member.2 ++ rest) = some (member.2, rest)
  | [], _, _, _ => List.forall_mem_nil _
  | (name, value) :: members, level, bound, hb => by
    rw [prettyMembers] at hb
    simp only [List.length_cons, List.length_append] at hb
    exact List.forall_mem_cons.2 ⟨readDocument_pretty value level bound (by omega),
      readDocument_prettyMembers members level bound (by omega)⟩

end

/-- A document is decoded from the text that it is rendered as. -/
theorem decode_render (document : Json) : decode document.render = some document := by
  have h := readDocument_pretty document 0 document.render.length (Nat.le_refl _) []
  rw [List.append_nil, ← render] at h
  rw [decode, h]
  rfl

/-! ## Characters -/

/-- Line feeds and the printable characters of ASCII. -/
def IsPlain (c : Char) : Prop := c = '\n' ∨ 0x20 ≤ c.toNat ∧ c.toNat < 0x7f

instance (c : Char) : Decidable (IsPlain c) := inferInstanceAs (Decidable (_ ∨ _))

/-- A text is checked for plain characters one by one. -/
theorem isPlain_of_all {text : Text} (h : text.all (decide <| IsPlain ·) = true) :
    ∀ c ∈ text, IsPlain c :=
  fun c hc => of_decide_eq_true (List.all_eq_true.1 h c hc)

theorem isPlain_digitChar : ∀ d < 16, IsPlain (Nat.digitChar d) := by decide

theorem isPlain_of_mem_unitEscape {unit : Nat} : ∀ c ∈ unitEscape unit, IsPlain c := by
  have hd : ∀ m, IsPlain (Nat.digitChar (m % 16)) :=
    fun m => isPlain_digitChar _ (Nat.mod_lt m (by decide))
  rw [unitEscape, hex_four]
  refine List.forall_mem_cons.2 ⟨by decide, List.forall_mem_cons.2 ⟨by decide, ?_⟩⟩
  simp [hd]

theorem isPlain_of_mem_escape {d : Char} : ∀ c ∈ escape d, IsPlain c := by
  rcases escape_cases d with ⟨e, he, hs, -⟩ | ⟨hs, -, -, hl, hu⟩ | hs
  · have hplain : ∀ e ∈ ['"', '\\', 'n', 'r', 't', 'f', 'b'], IsPlain e :=
      isPlain_of_all (by decide)
    rw [hs]
    exact List.forall_mem_cons.2 ⟨by decide, List.forall_mem_singleton.2 (hplain e he)⟩
  · rw [hs]
    exact List.forall_mem_singleton.2 (.inr ⟨hl, hu⟩)
  · rw [hs]
    exact List.forall_mem_flatMap.2 fun unit _ => isPlain_of_mem_unitEscape

theorem isPlain_of_mem_newline {level : Nat} : ∀ c ∈ newline level, IsPlain c :=
  List.forall_mem_cons.2 ⟨.inl rfl, fun c hc => by rw [List.eq_of_mem_replicate hc]; decide⟩

theorem isPlain_of_mem_encodeString {text : Text} : ∀ c ∈ encodeString text, IsPlain c := by
  simp only [encodeString, List.forall_mem_cons, List.forall_mem_append]
  exact ⟨by decide, List.forall_mem_flatMap.2 fun _ _ => isPlain_of_mem_escape, by decide,
    List.forall_mem_nil _⟩

mutual

theorem isPlain_of_mem_pretty :
    ∀ (document : Json) (level : Nat), ∀ c ∈ pretty level document, IsPlain c
  | .null, level => by
    rw [pretty]
    exact isPlain_of_all (by decide)
  | .string text, level => by
    rw [pretty]
    exact isPlain_of_mem_encodeString
  | .array [], level => by
    rw [pretty]
    exact isPlain_of_all (by decide)
  | .array (item :: items), level => by
    simp only [pretty, List.forall_mem_cons, List.forall_mem_append]
    exact ⟨by decide, isPlain_of_mem_newline, isPlain_of_mem_pretty item (level + 1),
      isPlain_of_mem_prettyItems items (level + 1), isPlain_of_mem_newline, by decide,
      List.forall_mem_nil _⟩
  | .object [], level => by
    rw [pretty]
    exact isPlain_of_all (by decide)
  | .object ((name, value) :: members), level => by
    simp only [pretty, List.forall_mem_cons, List.forall_mem_append]
    exact ⟨by decide, isPlain_of_mem_newline, isPlain_of_mem_encodeString,
      isPlain_of_all (by decide), isPlain_of_mem_pretty value (level + 1),
      isPlain_of_mem_prettyMembers members (level + 1), isPlain_of_mem_newline, by decide,
      List.forall_mem_nil _⟩

theorem isPlain_of_mem_prettyItems :
    ∀ (items : List Json) (level : Nat), ∀ c ∈ prettyItems level items, IsPlain c
  | [], level => by
    rw [prettyItems]
    exact List.forall_mem_nil _
  | item :: items, level => by
    simp only [prettyItems, List.forall_mem_cons, List.forall_mem_append]
    exact ⟨by decide, isPlain_of_mem_newline, isPlain_of_mem_pretty item level,
      isPlain_of_mem_prettyItems items level⟩

theorem isPlain_of_mem_prettyMembers :
    ∀ (members : List (Text × Json)) (level : Nat), ∀ c ∈ prettyMembers level members, IsPlain c
  | [], level => by
    rw [prettyMembers]
    exact List.forall_mem_nil _
  | (name, value) :: members, level => by
    simp only [prettyMembers, List.forall_mem_cons, List.forall_mem_append]
    exact ⟨by decide, isPlain_of_mem_newline, isPlain_of_mem_encodeString,
      isPlain_of_all (by decide), isPlain_of_mem_pretty value level,
      isPlain_of_mem_prettyMembers members level⟩

end

/-- A rendered document consists of line feeds and printable ASCII. -/
theorem isPlain_of_mem_render (document : Json) : ∀ c ∈ document.render, IsPlain c :=
  isPlain_of_mem_pretty document 0

end Json

end BlockScript
