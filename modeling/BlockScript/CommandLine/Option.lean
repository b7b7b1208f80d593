import BlockScript.Text.Quoted

/-!
# Options

The options of the command line, how each is spelled, and what can be wrong with the words of a
command line.
-/

namespace BlockScript

/-- The options of the command line. -/
inductive CliOption where
  | help
  | string
  | format
  | out
  | pretty
  | repl
  | verbose
  deriving DecidableEq, Repr

namespace CliOption

/-- All options, in the order in which they are listed. -/
def all : List CliOption := [.help, .string, .format, .out, .pretty, .repl, .verbose]

/-- The long spelling of an option. -/
def long : CliOption → Text
  | help => "--help".toList
  | string => "--string".toList
  | format => "--format".toList
  | out => "--out".toList
  | pretty => "--pretty".toList
  | repl => "--repl".toList
  | verbose => "--verbose".toList

/-- The short spelling of an option, if it has one. -/
def short? : CliOption → Option Text
  | help => some "-h".toList
  | string => some "-s".toList
  | format => some "-f".toList
  | out => some "-o".toList
  | pretty => some "-p".toList
  | repl => none
  | verbose => none

/-- All spellings of an option. -/
def spellings (o : CliOption) : List Text := o.short?.toList ++ [o.long]

/-- Whether an option is followed by a value. -/
def takesValue : CliOption → Bool
  | format | out => true
  | _ => false

/-- The option that is spelled like this. -/
def ofSpelling? (word : Text) : Option CliOption := all.find? (·.spellings.contains word)

/-- The options whose long spelling begins like this. -/
def ofPrefix (word : Text) : List CliOption := all.filter (word.isPrefixOf ·.long)

end CliOption

/-- The ways in which a command line can be misused. -/
inductive UsageError where
  | ambiguous (word : Text) (candidates : List CliOption)
  | missingValue (option : CliOption)
  | ignoredValue (option : CliOption) (value : Text)
  | invalidFormat (name : Text)
  | unrecognized (words : List Text)
  deriving DecidableEq, Repr

namespace UsageError

/-- What is put in front of a message about an option. -/
def label (o : CliOption) : Text :=
  "argument ".toList ++ Text.join ['/'] o.spellings ++ ": ".toList

/-- The wording of a misuse. -/
def message : UsageError → Text
  | ambiguous word candidates =>
    "ambiguous option: ".toList ++ word ++ " could match ".toList ++
      Text.join ", ".toList (candidates.map (·.long))
  | missingValue o => label o ++ "expected one argument".toList
  | ignoredValue o value => label o ++ "ignored explicit argument ".toList ++ value.quoted
  | invalidFormat name =>
    label .format ++ "invalid choice: ".toList ++ name.quoted ++
      " (choose from 'tree', 'json')".toList
  | unrecognized words => "unrecognized arguments: ".toList ++ Text.join [' '] words

end UsageError

/-- The summary of the command line. -/
def usage : Text := Text.unlines
  ["usage: pragmash [-h] [-s] [-f \x7btree,json\x7d] [-o OUTFILE] [-p] [--repl]".toList,
    "                [--verbose]".toList,
    "                [source]".toList,
    []]

/-- The description of the command line. -/
def helpText : Text := usage ++ Text.unlines
  [[],
    "positional arguments:".toList,
    "  source                Filename or raw source (with -s)".toList,
    [],
    "options:".toList,
    "  -h, --help            show this help message and exit".toList,
    "  -s, --string          Interpret source as literal string".toList,
    "  -f \x7btree,json\x7d, --format \x7btree,json\x7d".toList,
    "                        Output format (default: tree)".toList,
    "  -o OUTFILE, --out OUTFILE".toList,
    "                        Output to file".toList,
    "  -p, --pretty          Show output with banners".toList,
    "  --repl                Launch interactive REPL instead of parsing a script".toList,
    "  --verbose             Verbose REPL mode (if --repl)".toList,
    []]

end BlockScript
