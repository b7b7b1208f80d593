import BlockScript.Syntax.Json

/-!
# Output formats

A program is shown as a tree listing or as JSON.
-/

namespace BlockScript

/-- The ways to show a program. -/
inductive Format where
  | tree
  | json
  deriving DecidableEq, Repr

/-- A name that no format has. -/
structure UnsupportedFormat where
  name : Text
  deriving DecidableEq, Repr

/-- The wording of the mistake. -/
def UnsupportedFormat.message (e : UnsupportedFormat) : Text :=
  "Unsupported format: ".toList ++ e.name

namespace Format

/-- All formats. -/
def all : List Format := [.tree, .json]

/-- The name of a format. -/
def name : Format → Text
  | .tree => "tree".toList
  | .json => "json".toList

/-- The format of a name. -/
def ofName? (name : Text) : Option Format := all.find? (·.name = name)

/-- A program shown in a format. -/
def render : Format → List Block → Text
  | .tree, blocks => Block.tree blocks
  | .json, blocks => Block.json blocks

end Format

/-- A program shown in the format of the given name. -/
def renderAs (name : Text) (blocks : List Block) : Except UnsupportedFormat Text :=
  match Format.ofName? name with
  | some format => .ok (format.render blocks)
  | none => .error ⟨name⟩

end BlockScript
