import BlockScript.CommandLine.Option
import BlockScript.Text.Digit

/-!
# Words of a command line

Each word of a command line is classified before any is acted upon.  A word is an option if it
spells one, if it is the beginning of exactly one long spelling, or if its first two characters are
a short one; a value may be attached to it, behind an equals sign or directly behind a short
spelling.  The first `--` makes all words after it loose.
-/

namespace BlockScript

/-- A word of a command line. -/
inductive CliWord where
  /-- A word that stands for itself. -/
  | loose (text : Text)
  /-- The mark behind which all words are loose. -/
  | marker
  /-- An option in its short or long spelling, with the value attached to it. -/
  | option (option : CliOption) (short : Bool) (value? : Option Text)
  /-- A word that looks like an option but is none. -/
  | unknown (text : Text)
  deriving DecidableEq, Repr

namespace CliWord

/-- Whether a text is a number without sign: digits, or a point with digits after it and perhaps in
front of it. -/
def isNumber (text : Text) : Bool :=
  match text.dropWhile isDecimalDigit with
  | [] => !text.isEmpty
  | '.' :: fraction => !fraction.isEmpty && fraction.all isDecimalDigit
  | _ => false

/-- Whether a word is a negative number, perhaps with a line feed after it. -/
def isNegativeNumber : Text → Bool
  | '-' :: text => isNumber ((Text.chop? '\n' text).getD text)
  | _ => false

/-- A word in front of the first equals sign and the value after it, if there is such a sign. -/
def splitValue? (word : Text) : Option (Text × Text) :=
  match word.dropWhile (· != '=') with
  | [] => none
  | _ :: value => some (word.takeWhile (· != '='), value)

/-- A word that begins with a hyphen but spells no option. -/
def unspelled (word : Text) : CliWord :=
  if isNegativeNumber word || word.contains ' ' then .loose word else .unknown word

/-- A word that spells no option but begins with two hyphens. -/
def abbreviated (word front : Text) (value? : Option Text) : Except UsageError CliWord :=
  match CliOption.ofPrefix front with
  | [] => .ok (unspelled word)
  | [o] => .ok (.option o false value?)
  | candidates => .error (.ambiguous word candidates)

/-- Classifies a word other than the mark. -/
def classify (word : Text) : Except UsageError CliWord :=
  match word with
  | '-' :: c :: text =>
    let (front, value?) :=
      match CliOption.ofSpelling? word, splitValue? word with
      | none, some (front, value) => (front, some value)
      | _, _ => (word, none)
    match CliOption.ofSpelling? front with
    | some o => .ok (.option o (c != '-') value?)
    | none =>
      if c = '-' then abbreviated word front value?
      else
        match CliOption.ofSpelling? ['-', c] with
        | some o => .ok (.option o true (some text))
        | none => .ok (unspelled word)
  | _ => .ok (.loose word)

/-- Classifies the words of a command line. -/
def classifyAll : List Text → Except UsageError (List CliWord)
  | [] => .ok []
  | word :: words =>
    if word = ['-', '-'] then .ok (.marker :: words.map .loose)
    else do return (← classify word) :: (← classifyAll words)

end CliWord

end BlockScript
