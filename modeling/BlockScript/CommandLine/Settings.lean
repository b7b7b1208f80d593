import BlockScript.CommandLine.Job
import BlockScript.CommandLine.Word

/-!
# Settings

The words of a command line are acted upon from left to right.  The first loose word is the
source; what is left over at the end is a mistake.  Short options may be written together: behind
one that takes no value another may follow in the same word.
-/

namespace BlockScript

/-- What a command line asks for. -/
structure Settings where
  source? : Option Text
  inline : Bool
  format : Text
  out : Text
  pretty : Bool
  repl : Bool
  verbose : Bool
  deriving DecidableEq, Repr

/-- The reasons for which a command line is not acted upon to its end. -/
inductive CliStop where
  | help
  | usage (error : UsageError)
  deriving DecidableEq, Repr

namespace Settings

/-- The settings of an empty command line. -/
def initial : Settings := ⟨none, false, Format.tree.name, [], false, false, false⟩

/-- Acts on an option that takes no value. -/
def setFlag (s : Settings) : CliOption → Except CliStop Settings
  | .help => .error .help
  | .string => .ok { s with inline := true }
  | .pretty => .ok { s with pretty := true }
  | .repl => .ok { s with repl := true }
  | .verbose => .ok { s with verbose := true }
  | .format | .out => .ok s

/-- Acts on options that take no value, one after the other. -/
def setFlags (s : Settings) : List CliOption → Except CliStop Settings
  | [] => .ok s
  | o :: os => do (← s.setFlag o).setFlags os

/-- Acts on an option with its value.  The value `--` counts as none: no file is written, and the
format is one that does not exist. -/
def setValue (s : Settings) (o : CliOption) (value : Text) : Except CliStop Settings :=
  let absent := value == ['-', '-']
  match o with
  | .out => .ok { s with out := if absent then [] else value }
  | .format =>
    if absent then .ok { s with format := "[]".toList }
    else if (Format.ofName? value).isSome then .ok { s with format := value }
    else .error (.usage (.invalidFormat value))
  | _ => .ok s

end Settings

/-- What a word stands for: options that take no value, and behind them the last option with the
value attached to it. -/
structure Expansion where
  flags : List CliOption
  last : CliOption
  value? : Option Text
  deriving DecidableEq, Repr

namespace Expansion

/-- The expansion with an option in front that takes no value. -/
def cons (o : CliOption) (e : Expansion) : Expansion := { e with flags := o :: e.flags }

/-- A short option with text attached to it: the value of the option, or more short options. -/
def ofShort (o : CliOption) : Text → Except UsageError Expansion
  | [] => if o.takesValue then .ok ⟨[], o, some []⟩ else .error (.ignoredValue o [])
  | c :: text =>
    if o.takesValue then .ok ⟨[], o, some (c :: text)⟩
    else
      match CliOption.ofSpelling? ['-', c] with
      | none => .error (.ignoredValue o (c :: text))
      | some next =>
        (if text.isEmpty then .ok ⟨[], next, none⟩ else ofShort next text).map (cons o)

/-- What an option in its short or long spelling stands for with what is attached to it. -/
def ofOption (o : CliOption) (short : Bool) : Option Text → Except UsageError Expansion
  | none => .ok ⟨[], o, none⟩
  | some value =>
    if short then ofShort o value
    else if o.takesValue then .ok ⟨[], o, some value⟩
    else .error (.ignoredValue o value)

end Expansion

namespace Settings

/-- Acts on words from left to right and collects those left over.  `sourceJust` tells whether the
word in front of them was the source, whose place a mark may still follow. -/
def apply (s : Settings) (extras : List Text) (sourceJust : Bool) :
    List CliWord → Except CliStop (Settings × List Text)
  | [] => .ok (s, extras)
  | .loose text :: words =>
    if s.source?.isNone then { s with source? := some text }.apply extras true words
    else s.apply (extras ++ [text]) false words
  | .unknown text :: words => s.apply (extras ++ [text]) false words
  | .marker :: words =>
    if s.source?.isNone || sourceJust then s.apply extras false words
    else s.apply (extras ++ [['-', '-']]) false words
  | .option o short value? :: words => do
    let e ← (Expansion.ofOption o short value?).mapError .usage
    match e.value?, e.last.takesValue with
    | some value, _ => (← (← s.setFlags e.flags).setValue e.last value).apply extras false words
    | none, false => (← s.setFlags (e.flags ++ [e.last])).apply extras false words
    | none, true =>
      match words with
      | .loose value :: words =>
        (← (← s.setFlags e.flags).setValue e.last value).apply extras false words
      | _ => .error (.usage (.missingValue e.last))

/-- The settings that a command line asks for. -/
def ofArguments (args : List Text) : Except CliStop Settings := do
  let words ← (CliWord.classifyAll args).mapError .usage
  let (s, extras) ← initial.apply [] false words
  if extras.isEmpty then return s else .error (.usage (.unrecognized extras))

end Settings

end BlockScript
