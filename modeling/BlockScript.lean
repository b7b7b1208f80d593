import BlockScript.Main
import BlockScript.Program.Cursor
import BlockScript.Syntax.Node
import BlockScript.Token.Scanner
import BlockScript.Proofs.Automaton
import BlockScript.Proofs.ArgumentRoundTrip
import BlockScript.Proofs.SourceLines
import BlockScript.Proofs.ProgramRoundTrip
import BlockScript.Proofs.Nesting
import BlockScript.Proofs.Statement
import BlockScript.Proofs.LoopStack
import BlockScript.Proofs.StackRefinement
import BlockScript.Proofs.EmbeddedCommand
import BlockScript.Proofs.Locality
import BlockScript.Proofs.Numbering
import BlockScript.Proofs.Wording
import BlockScript.Proofs.Concatenation
import BlockScript.Proofs.Completion
import BlockScript.Proofs.Entering
import BlockScript.Proofs.ListingLines
import BlockScript.Proofs.Conversation
import BlockScript.Proofs.JsonReading
import BlockScript.Proofs.JsonTrees
import BlockScript.Proofs.ListingHeader
import BlockScript.Proofs.ListingTree
import BlockScript.Proofs.CheckedLexing
import BlockScript.Proofs.CheckedReading
import BlockScript.Proofs.CheckedProgram
import BlockScript.Proofs.Grammar
import BlockScript.Proofs.ParsedShape
import BlockScript.Proofs.BlankLines
import BlockScript.Proofs.LogicalLines
import BlockScript.Proofs.LoopBody
import BlockScript.Proofs.Returning
import BlockScript.Proofs.FirstLine
import BlockScript.Proofs.DeepNesting
import BlockScript.Proofs.ClearedLines
import BlockScript.Proofs.ClearedSession
import BlockScript.Proofs.ScannerWalk
import BlockScript.Proofs.Renaming
import BlockScript.Proofs.StandIns
import BlockScript.Proofs.JobSteps
import BlockScript.Proofs.LineEnds
import BlockScript.Proofs.GivenOptions
import BlockScript.Proofs.QuotedTexts
import BlockScript.Proofs.Inspection
import BlockScript.Proofs.RefusedLine
import BlockScript.Proofs.MovingForward
