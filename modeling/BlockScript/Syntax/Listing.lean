import BlockScript.Index
import BlockScript.Syntax.Source
import BlockScript.Text.Whitespace

/-!
# Tree listings

A listing shows one line for each block, indented by two spaces for each loop around it: the kind
of the block followed by the arguments of its header.  A block on its own can be listed at an
indent of its own (`Block.listingAt`), which has to be a signed number of 64 bits that leaves room
for the line; an indent below zero counts as zero for the line that it is given for.
-/

namespace BlockScript

namespace Block

/-- The word that names the kind of a block. -/
def kind : Block → Text
  | .command _ => "command".toList
  | .forEach _ _ _ => "for".toList
  | .whileLoop _ _ => "while".toList

/-- The arguments in the header of a block. -/
def header : Block → List Argument
  | .command c => c.name :: c.args
  | .forEach key? value _ => key?.toList ++ [value]
  | .whileLoop condition _ => condition

/-- The line of a block in a listing; a condition ends the line without white space after it. -/
def listingLine (indent : Int) (b : Block) : Text :=
  let line := Text.spaces indent ++ b.kind ++ Argument.trailing b.header
  match b with
  | .whileLoop _ _ => line.trimEnd
  | _ => line

mutual

/-- The lines of a block and the blocks inside it. -/
def listing (indent : Int) : Block → List Text
  | .command c => [listingLine indent (.command c)]
  | .forEach key? value body =>
    listingLine indent (.forEach key? value body) :: listingAll (indent + 2) body
  | .whileLoop condition body =>
    listingLine indent (.whileLoop condition body) :: listingAll (indent + 2) body

/-- The lines of some blocks and the blocks inside them. -/
def listingAll (indent : Int) : List Block → List Text
  | [] => []
  | b :: bs => listing indent b ++ listingAll indent bs

end

/-- What can be wrong with an indent. -/
inductive IndentError where
  | overflow
  | tooWide
  deriving DecidableEq, Repr

/-- The wording of what is wrong with an indent. -/
def IndentError.message : IndentError → Text
  | overflow => wordOverflow
  | tooWide => []

/-- The widest indent that there is room for. -/
def maxIndent : Int := 0x100000000

/-- The listing of a block at an indent of its own. -/
def listingAt (indent : Int) (b : Block) : Except IndentError (List Text) :=
  if ¬FitsWord indent then .error .overflow
  else if maxIndent < indent then .error .tooWide
  else .ok (listing indent b)

/-- The listing of a program. -/
def tree (blocks : List Block) : Text := Text.unlines (listingAll 0 blocks)

end Block

end BlockScript
