import BlockScript.Format
import BlockScript.Proofs.JsonReading

/-!
# Trees read back from JSON

The JSON form of a syntax tree determines the tree, even if the members of an object may come in
any order: their names tell the kinds apart, and their values are the forms of the parts
(`Argument.sameUpToOrder_toJson`, `Block.sameUpToOrder_toJson`).  So the JSON text of a program,
once it is decoded, gives the forms of the blocks and with them the program
(`renderAs_json_decodes`).
-/

namespace BlockScript

namespace Json

mutual

/-- Whether two documents are the same if the members of an object may come in any order. -/
def sameUpToOrder : Json → Json → Bool
  | .null, .null => true
  | .string s, .string t => s == t
  | .array items, .array others => itemsSameUpToOrder items others
  | .object members, .object others =>
    members.length == others.length && membersSameUpToOrder members others
  | _, _ => false

/-- Whether as many elements of two arrays are the same, one by one. -/
def itemsSameUpToOrder : List Json → List Json → Bool
  | [], [] => true
  | item :: items, other :: others =>
    sameUpToOrder item other && itemsSameUpToOrder items others
  | _, _ => false

/-- Whether each of some members has its value under its name in another object. -/
def membersSameUpToOrder : List (Text × Json) → List (Text × Json) → Bool
  | [], _ => true
  | (name, value) :: members, others =>
    (match others.lookup name with
      | some other => sameUpToOrder value other
      | none => false) && membersSameUpToOrder members others

end

end Json

mutual

theorem Argument.sameUpToOrder_toJson :
    ∀ {a b : Argument}, a.toJson.sameUpToOrder b.toJson ↔ a = b
  | .literal s, .literal t => by
    simp [Argument.toJson, Json.sameUpToOrder, Json.membersSameUpToOrder]
  | .literal s, .nested name args | .nested name args, .literal t => by
    simp [Argument.toJson, Json.sameUpToOrder, Json.membersSameUpToOrder, List.lookup_cons]
  | .nested name args, .nested name' args' => by
    have hname := @Argument.sameUpToOrder_toJson name name'
    have hargs := @Argument.itemsSameUpToOrder_allToJson args args'
    simp [Argument.toJson, Json.sameUpToOrder, Json.membersSameUpToOrder, List.lookup_cons, hname,
      hargs]

theorem Argument.itemsSameUpToOrder_allToJson : ∀ {as bs : List Argument},
    Json.itemsSameUpToOrder (Argument.allToJson as) (Argument.allToJson bs) ↔ as = bs
  | [], [] | [], b :: bs | a :: as, [] => by simp [Argument.allToJson, Json.itemsSameUpToOrder]
  | a :: as, b :: bs => by
    have hhead := @Argument.sameUpToOrder_toJson a b
    have htail := @Argument.itemsSameUpToOrder_allToJson as bs
    simp [Argument.allToJson, Json.itemsSameUpToOrder, hhead, htail]

end

theorem Command.sameUpToOrder_toJson {c d : Command} :
    c.toJson.sameUpToOrder d.toJson ↔ c = d := by
  obtain ⟨name, args⟩ := c
  obtain ⟨name', args'⟩ := d
  simp [Command.toJson, Json.sameUpToOrder, Json.membersSameUpToOrder, List.lookup_cons,
    Argument.sameUpToOrder_toJson, Argument.itemsSameUpToOrder_allToJson]

/-- A missing key is told from every key that is there. -/
theorem Argument.sameUpToOrder_keyJson {k l : Option Argument} :
    ((k.map Argument.toJson).getD .null).sameUpToOrder ((l.map Argument.toJson).getD .null) ↔
      k = l := by
  have hnull : ∀ a : Argument, Json.sameUpToOrder .null a.toJson = false ∧
      Json.sameUpToOrder a.toJson .null = false := by
    intro a
    cases a <;> simp [toJson, Json.sameUpToOrder]
  cases k with
  | none =>
    cases l with
    | none => simp [Json.sameUpToOrder]
    | some b => simp [hnull]
  | some a =>
    cases l with
    | none => simp [hnull]
    | some b => simp [sameUpToOrder_toJson]

mutual

theorem Block.sameUpToOrder_toJson :
    ∀ {a b : Block}, a.toJson.sameUpToOrder b.toJson ↔ a = b
  | .command c, .command d => by
    simp [Block.toJson, Json.sameUpToOrder, Json.membersSameUpToOrder, List.lookup_cons,
      Command.sameUpToOrder_toJson]
  | .forEach k v as, .forEach l w bs => by
    have hbody := @Block.itemsSameUpToOrder_allToJson as bs
    simp [Block.toJson, Json.sameUpToOrder, Json.membersSameUpToOrder, List.lookup_cons,
      Argument.sameUpToOrder_keyJson, Argument.sameUpToOrder_toJson, hbody]
  | .whileLoop c as, .whileLoop d bs => by
    have hbody := @Block.itemsSameUpToOrder_allToJson as bs
    simp [Block.toJson, Json.sameUpToOrder, Json.membersSameUpToOrder, List.lookup_cons,
      Argument.itemsSameUpToOrder_allToJson, hbody]
  | .command _, .forEach _ _ _ | .command _, .whileLoop _ _ | .forEach _ _ _, .command _
  | .forEach _ _ _, .whileLoop _ _ | .whileLoop _ _, .command _
  | .whileLoop _ _, .forEach _ _ _ => by
    simp [Block.toJson, Json.sameUpToOrder, Json.membersSameUpToOrder, List.lookup_cons]

theorem Block.itemsSameUpToOrder_allToJson : ∀ {as bs : List Block},
    Json.itemsSameUpToOrder (Block.allToJson as) (Block.allToJson bs) ↔ as = bs
  | [], [] | [], b :: bs | a :: as, [] => by simp [Block.allToJson, Json.itemsSameUpToOrder]
  | a :: as, b :: bs => by
    have hhead := @Block.sameUpToOrder_toJson a b
    have htail := @Block.itemsSameUpToOrder_allToJson as bs
    simp [Block.allToJson, Json.itemsSameUpToOrder, hhead, htail]

end

theorem Block.allToJson_inj {as bs : List Block} :
    Block.allToJson as = Block.allToJson bs ↔ as = bs := by
  refine ⟨fun h => ?_, congrArg _⟩
  rw [← Block.itemsSameUpToOrder_allToJson, h, Block.itemsSameUpToOrder_allToJson]

/-! ## Programs -/

theorem Block.decode_json (blocks : List Block) :
    Json.decode (Block.json blocks) = some (.array (Block.allToJson blocks)) :=
  Json.decode_render _

/-- Two programs with the same JSON text are the same. -/
theorem Block.json_inj {as bs : List Block} : Block.json as = Block.json bs ↔ as = bs := by
  refine ⟨fun h => ?_, congrArg _⟩
  have hd := Block.decode_json as
  rw [h, Block.decode_json bs] at hd
  exact Block.allToJson_inj.1 (Json.array.inj (Option.some.inj hd)).symm

/-- A program shown as JSON consists of line feeds and printable ASCII, and decoding it gives the
JSON forms of its blocks, which no other program has. -/
theorem renderAs_json_decodes (blocks : List Block) :
    ∃ text, renderAs "json".toList blocks = .ok text ∧ (∀ c ∈ text, Json.IsPlain c) ∧
      Json.decode text = some (.array (Block.allToJson blocks)) ∧
      ∀ others, renderAs "json".toList others = .ok text → others = blocks := by
  refine ⟨Block.json blocks, rfl, Json.isPlain_of_mem_render _, Block.decode_json blocks, ?_⟩
  intro others h
  exact Block.json_inj.1 (Except.ok.inj h)

/-- A loop without a key whose value is outside ASCII: the character is written by a pair of
surrogates and read back from it. -/
theorem renderAs_json_decodes_surrogates :
    ∃ text, renderAs "json".toList [.forEach none (.literal "𝄞\x7f".toList) []] = .ok text ∧
      "\\ud834\\udd1e\\u007f".toList <:+: text ∧ 'u' ∈ text ∧ Json.IsPlain 'u' ∧
      Json.decode text = some (.array [.object [("kind".toList, .string "for".toList),
        ("key".toList, .null),
        ("value".toList, .object [("text".toList, .string "𝄞\x7f".toList)]),
        ("body".toList, .array [])]]) := by
  obtain ⟨text, ht, hplain, hdecode, -⟩ :=
    renderAs_json_decodes [.forEach none (.literal "𝄞\x7f".toList) []]
  cases ht
  have hu : 'u' ∈ Block.json [.forEach none (.literal "𝄞\x7f".toList) []] := by decide
  have hpair : (Block.json [.forEach none (.literal "𝄞\x7f".toList) []]).take 72 ++
      "\\ud834\\udd1e\\u007f".toList ++
        (Block.json [.forEach none (.literal "𝄞\x7f".toList) []]).drop 90 =
          Block.json [.forEach none (.literal "𝄞\x7f".toList) []] := by
    decide
  exact ⟨_, rfl, ⟨_, _, hpair⟩, hu, hplain _ hu, hdecode⟩

end BlockScript
