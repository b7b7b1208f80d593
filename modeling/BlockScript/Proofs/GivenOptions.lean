import BlockScript.CommandLine.Invocation
import BlockScript.Proofs.JobSteps

/-!
# Options in any order

A job can be asked for by words in many ways: each option has several spellings, and the options
stand in any order in front of the source and behind it (`GivenOption`).  Each option is classified
and acted upon by itself, whatever stands around it (`classifyAll_words`, `apply_cliWords`), so the
settings depend only on which options are given (`Job.IsGivenBy`), and the command line does the
job and reports how it has ended (`commandLine_does_job`).
-/

namespace BlockScript

/-- An option as it is given on a command line: in its short or its long spelling, two flags in one
word, a value in a word of its own or joined to the spelling. -/
inductive GivenOption where
  | string (long : Bool)
  | pretty (long : Bool)
  | both (prettyFirst : Bool)
  | format (format : Format) (long joined : Bool)
  | out (name : Text) (long : Bool)
  | outJoined (name : Text)
  deriving DecidableEq, Repr

namespace GivenOption

/-- The words of the option. -/
def words : GivenOption → List Text
  | string long => [if long then "--string".toList else "-s".toList]
  | pretty long => [if long then "--pretty".toList else "-p".toList]
  | both prettyFirst => [if prettyFirst then "-ps".toList else "-sp".toList]
  | format f long false => [if long then "--format".toList else "-f".toList, f.name]
  | format f long true => [(if long then "--format=".toList else "-f".toList) ++ f.name]
  | out name long => [if long then "--out".toList else "-o".toList, name]
  | outJoined name => ["--out=".toList ++ name]

/-- The flags that the option sets. -/
def flags : GivenOption → List CliOption
  | string _ => [.string]
  | pretty _ => [.pretty]
  | both _ => [.string, .pretty]
  | _ => []

/-- The format that the option asks for. -/
def format? : GivenOption → Option Format
  | format f _ _ => some f
  | _ => none

/-- The name of the file that the option asks for. -/
def out? : GivenOption → Option Text
  | out name _ | outJoined name => some name
  | _ => none

/-- The names that the option asks for do not look like options. -/
def Plain (g : GivenOption) : Prop := ∀ name, g.out? = some name → name.head? ≠ some '-'

end GivenOption

/-- What a job has to be if it is asked for by some options.  An option may be given again as long
as nothing different is asked for. -/
structure Job.IsGivenBy (job : Job) (given : List GivenOption) : Prop where
  source : job.source.head? ≠ some '-'
  inline : job.inline = true ↔ ∃ g ∈ given, .string ∈ g.flags
  pretty : job.pretty = true ↔ ∃ g ∈ given, .pretty ∈ g.flags
  format : ∀ g ∈ given, ∀ f, g.format? = some f → job.format = f.name
  noFormat : (∀ g ∈ given, g.format? = none) → job.format = Format.tree.name
  out : ∀ g ∈ given, ∀ name, g.out? = some name → job.out = name
  noOut : (∀ g ∈ given, g.out? = none) → job.out = []
  plain : ∀ g ∈ given, g.Plain

/-- The words of a command line: options, a source, and options. -/
def commandLine (front : List GivenOption) (source : Text) (behind : List GivenOption) :
    List Text :=
  front.flatMap GivenOption.words ++ source :: behind.flatMap GivenOption.words

/-- How a command line that asks for a job reports what has come of it. -/
structure Outcome.Reports (outcome : Outcome) (done : JobOutcome) (before : Files) : Prop where
  stdout : outcome.stdout = done.stdout
  files : outcome.files = done.files
  success : done.failure? = none →
    outcome.status? = some 0 ∧ outcome.stderr = [] ∧ outcome.failure? = none
  mistake : ∀ e, done.failure? = some (.parse e) →
    outcome.status? = some 1 ∧ outcome.stderr = "[error] >>> ".toList ++ e.message ++ ['\n'] ∧
      outcome.failure? = none ∧ outcome.stdout = [] ∧ outcome.files = before
  through : ∀ e, done.failure? = some e → (∀ m, e ≠ .parse m) →
    outcome.status? = none ∧ outcome.stderr = [] ∧ outcome.failure? = some e

/-! ## The words are classified -/

namespace CliWord

theorem classify_of_head?_ne {word : Text} (h : word.head? ≠ some '-') :
    classify word = .ok (.loose word) := by
  unfold classify
  split
  · exact absurd rfl h
  · rfl

theorem ne_marker_of_head?_ne {word : Text} (h : word.head? ≠ some '-') : word ≠ ['-', '-'] := by
  rintro rfl
  exact h rfl

/-- Words without the mark among them are classified one by one, and so are the words behind
them. -/
theorem classifyAll_append {words : List Text} {classified : List CliWord}
    (h : words.mapM classify = .ok classified) (hmarker : ['-', '-'] ∉ words) (rest : List Text) :
    classifyAll (words ++ rest) = (classifyAll rest).map (classified ++ ·) := by
  induction words generalizing classified with
  | nil =>
    cases h
    show classifyAll rest = (classifyAll rest).map fun cs => cs
    cases classifyAll rest <;> rfl
  | cons word words ih =>
    obtain ⟨hword, hwords⟩ := List.ne_and_not_mem_of_not_mem_cons hmarker
    obtain ⟨c, cs, hc, hcs, rfl⟩ := mapM_cons_eq_ok_iff.1 h
    rw [List.cons_append, classifyAll, if_neg hword.symm, hc, ih hcs hwords]
    cases classifyAll rest <;> rfl

end CliWord

namespace GivenOption

/-- The words as they are classified. -/
def cliWords : GivenOption → List CliWord
  | string long => [.option .string (!long) none]
  | pretty long => [.option .pretty (!long) none]
  | both true => [.option .pretty true (some ['s'])]
  | both false => [.option .string true (some ['p'])]
  | format f long false => [.option .format (!long) none, .loose f.name]
  | format f long true => [.option .format (!long) (some f.name)]
  | out name long => [.option .out (!long) none, .loose name]
  | outJoined name => [.option .out false (some name)]

theorem mapM_classify_words {g : GivenOption} (h : g.Plain) :
    g.words.mapM CliWord.classify = .ok g.cliWords := by
  cases g with
  | string long => cases long <;> rfl
  | pretty long => cases long <;> rfl
  | both prettyFirst => cases prettyFirst <;> rfl
  | format f long joined => cases f <;> cases long <;> cases joined <;> rfl
  | out name long =>
    have hname := CliWord.classify_of_head?_ne (h name rfl)
    refine mapM_cons_eq_ok_iff.2 ⟨_, _, ?_, mapM_cons_eq_ok_iff.2 ⟨_, _, hname, rfl, rfl⟩, rfl⟩
    cases long <;> rfl
  | outJoined name => rfl

theorem marker_not_mem_words {g : GivenOption} (h : g.Plain) : ['-', '-'] ∉ g.words := by
  cases g with
  | string long => cases long <;> decide
  | pretty long => cases long <;> decide
  | both prettyFirst => cases prettyFirst <;> decide
  | format f long joined => cases f <;> cases long <;> cases joined <;> decide
  | out name long =>
    have hname := CliWord.ne_marker_of_head?_ne (h name rfl)
    refine List.not_mem_cons_of_ne_of_not_mem ?_ (List.not_mem_cons_of_ne_of_not_mem hname.symm
      List.not_mem_nil)
    cases long <;> decide
  | outJoined name => exact List.not_mem_cons_of_ne_of_not_mem (by rintro ⟨⟩) List.not_mem_nil

theorem classifyAll_words {given : List GivenOption} (h : ∀ g ∈ given, g.Plain) (rest : List Text) :
    CliWord.classifyAll (given.flatMap words ++ rest) =
      (CliWord.classifyAll rest).map (given.flatMap cliWords ++ ·) := by
  induction given with
  | nil =>
    show CliWord.classifyAll rest = (CliWord.classifyAll rest).map fun cs => cs
    cases CliWord.classifyAll rest <;> rfl
  | cons g given ih =>
    obtain ⟨hg, hgiven⟩ := List.forall_mem_cons.1 h
    rw [List.flatMap_cons, List.append_assoc,
      CliWord.classifyAll_append (mapM_classify_words hg) (marker_not_mem_words hg), ih hgiven]
    cases CliWord.classifyAll rest with
    | error e => rfl
    | ok cs => simp [Except.map]

end GivenOption

/-! ## The options are acted upon -/

namespace Expansion

theorem ofOption_of_takesValue {o : CliOption} (h : o.takesValue = true) (short : Bool)
    (value : Text) : ofOption o short (some value) = .ok ⟨[], o, some value⟩ := by
  have hshort : ofShort o value = .ok ⟨[], o, some value⟩ := by
    cases value <;> rw [ofShort, if_pos h]
  rw [ofOption, if_pos h, hshort, ite_self]

end Expansion

namespace Settings

variable {o : CliOption} {short : Bool} {value : Text} (s : Settings) (extras : List Text)
  (sourceJust : Bool) (rest : List CliWord)

theorem apply_flags {value? : Option Text} (flags : List CliOption) (last : CliOption)
    (h : Expansion.ofOption o short value? = .ok ⟨flags, last, none⟩)
    (hlast : last.takesValue = false) :
    s.apply extras sourceJust (.option o short value? :: rest) =
      s.setFlags (flags ++ [last]) >>= fun s => s.apply extras false rest := by
  rw [apply, h]
  simp only [Except.mapError, bind, Except.bind, hlast]

theorem apply_joined (h : o.takesValue = true) :
    s.apply extras sourceJust (.option o short (some value) :: rest) =
      s.setValue o value >>= fun s => s.apply extras false rest := by
  rw [apply, Expansion.ofOption_of_takesValue h]
  rfl

theorem apply_behind (h : o.takesValue = true) :
    s.apply extras sourceJust (.option o short none :: .loose value :: rest) =
      s.setValue o value >>= fun s => s.apply extras false rest := by
  rw [apply, Expansion.ofOption]
  simp only [Except.mapError, bind, Except.bind, h]
  rfl

theorem setValue_format (f : Format) :
    s.setValue .format f.name = .ok { s with format := f.name } := by
  cases f <;> rfl

theorem setValue_out (h : value.head? ≠ some '-') :
    s.setValue .out value = .ok { s with out := value } := by
  simp [setValue, CliWord.ne_marker_of_head?_ne h]

end Settings

namespace GivenOption

/-- The settings with the option acted upon. -/
def act (s : Settings) : GivenOption → Settings
  | string _ => { s with inline := true }
  | pretty _ => { s with pretty := true }
  | both _ => { s with inline := true, pretty := true }
  | format f _ _ => { s with format := f.name }
  | out name _ | outJoined name => { s with out := name }

theorem apply_cliWords {g : GivenOption} (h : g.Plain) (s : Settings) (extras : List Text)
    (sourceJust : Bool) (rest : List CliWord) :
    s.apply extras sourceJust (g.cliWords ++ rest) = (act s g).apply extras false rest := by
  cases g with
  | string long => exact s.apply_flags _ _ _ [] .string rfl rfl
  | pretty long => exact s.apply_flags _ _ _ [] .pretty rfl rfl
  | both prettyFirst =>
    cases prettyFirst with
    | false => exact s.apply_flags _ _ _ [.string] .pretty rfl rfl
    | true => exact s.apply_flags _ _ _ [.pretty] .string rfl rfl
  | format f long joined =>
    have hvalue := s.setValue_format f
    cases joined with
    | false => exact (s.apply_behind _ _ _ rfl).trans (by rw [hvalue]; rfl)
    | true => exact (s.apply_joined _ _ _ rfl).trans (by rw [hvalue]; rfl)
  | out name long =>
    exact (s.apply_behind _ _ _ rfl).trans (by rw [s.setValue_out (h name rfl)]; rfl)
  | outJoined name =>
    exact (s.apply_joined _ _ _ rfl).trans (by rw [s.setValue_out (h name rfl)]; rfl)

/-- Options are acted upon one after the other.  Whether a mark may follow, as it may behind the
source, is left open: none of their words is one. -/
theorem exists_apply_flatMap_cliWords {given : List GivenOption} (h : ∀ g ∈ given, g.Plain)
    (s : Settings) (extras : List Text) (sourceJust : Bool) (rest : List CliWord) :
    ∃ next, s.apply extras sourceJust (given.flatMap cliWords ++ rest) =
      (given.foldl act s).apply extras next rest := by
  induction given generalizing s sourceJust with
  | nil => exact ⟨sourceJust, rfl⟩
  | cons g given ih =>
    obtain ⟨hg, hgiven⟩ := List.forall_mem_cons.1 h
    obtain ⟨next, hnext⟩ := ih hgiven (act s g) false
    refine ⟨next, ?_⟩
    rw [List.flatMap_cons, List.append_assoc, apply_cliWords hg, hnext, List.foldl_cons]

/-! ## What has been asked for -/

/-- A setting that each option either leaves alone or sets to a value of its own has in the end
the value that was asked for, or its old one if none was. -/
theorem field_foldl_act {α : Type} {value : α} (field : Settings → α)
    (asked? : GivenOption → Option α) (hact : ∀ s g, field (act s g) = (asked? g).getD (field s))
    {given : List GivenOption} {s : Settings}
    (hsome : ∀ g ∈ given, ∀ a, asked? g = some a → value = a)
    (hnone : (∀ g ∈ given, asked? g = none) → value = field s) :
    field (given.foldl act s) = value := by
  induction given generalizing s with
  | nil => exact (hnone (by simp)).symm
  | cons g given ih =>
    -- If the options behind `g` leave the setting alone, it stays what `g` has made of it.
    refine ih (fun g hg => hsome g (List.mem_cons_of_mem _ hg)) fun hrest => ?_
    rw [hact]
    cases hg : asked? g with
    | none => exact hnone (List.forall_mem_cons.2 ⟨hg, hrest⟩)
    | some a => exact hsome g List.mem_cons_self a hg

theorem kept_foldl_act {α : Type} (field : Settings → α)
    (hact : ∀ s g, field (act s g) = field s) (given : List GivenOption) (s : Settings) :
    field (given.foldl act s) = field s :=
  field_foldl_act field (fun _ => none) hact (by rintro _ _ _ ⟨⟩) fun _ => rfl

theorem flag_foldl_act {value : Bool} (field : Settings → Bool) (o : CliOption)
    (hact : ∀ s g, field (act s g) = (if o ∈ g.flags then some true else none).getD (field s))
    {given : List GivenOption} (hinitial : field .initial = false)
    (h : value = true ↔ ∃ g ∈ given, o ∈ g.flags) : field (given.foldl act .initial) = value := by
  refine field_foldl_act field (fun g => if o ∈ g.flags then some true else none) hact ?_ ?_
  · intro g hg a ha
    split at ha
    · next ho =>
      cases ha
      exact h.2 ⟨g, hg, ho⟩
    · cases ha
  · intro hnone
    rw [hinitial, ← Bool.not_eq_true, h]
    rintro ⟨g, hg, ho⟩
    have := hnone g hg
    rw [if_pos ho] at this
    cases this

theorem foldl_act_source (given : List GivenOption) (s : Settings) (source : Option Text) :
    given.foldl act { s with source? := source } =
      { given.foldl act s with source? := source } := by
  induction given generalizing s with
  | nil => rfl
  | cons g given ih =>
    rw [List.foldl_cons, List.foldl_cons, ← ih]
    cases g <;> rfl

end GivenOption

open GivenOption

theorem Settings.foldl_act_initial {job : Job} {given : List GivenOption}
    (h : job.IsGivenBy given) :
    given.foldl act .initial =
      ⟨none, job.inline, job.format, job.out, job.pretty, false, false⟩ := by
  have hsource := kept_foldl_act Settings.source? (fun s g => by cases g <;> rfl) given .initial
  have hrepl := kept_foldl_act Settings.repl (fun s g => by cases g <;> rfl) given .initial
  have hverbose := kept_foldl_act Settings.verbose (fun s g => by cases g <;> rfl) given .initial
  have hinline : (given.foldl act .initial).inline = job.inline :=
    flag_foldl_act Settings.inline .string (fun s g => by cases g <;> rfl) rfl h.inline
  have hpretty : (given.foldl act .initial).pretty = job.pretty :=
    flag_foldl_act Settings.pretty .pretty (fun s g => by cases g <;> rfl) rfl h.pretty
  have hformat : (given.foldl act .initial).format = job.format := by
    refine field_foldl_act Settings.format (fun g => g.format?.map Format.name)
      (fun s g => by cases g <;> rfl) (fun g hg name hname => ?_) fun hnone => ?_
    · obtain ⟨f, hf, rfl⟩ := Option.map_eq_some_iff.1 hname
      exact h.format g hg f hf
    · exact h.noFormat fun g hg => Option.map_eq_none_iff.1 (hnone g hg)
  have hout : (given.foldl act .initial).out = job.out :=
    field_foldl_act Settings.out out? (fun s g => by cases g <;> rfl) h.out h.noOut
  generalize given.foldl act .initial = s at *
  cases s
  subst hinline hpretty hformat hout
  cases hsource
  cases hrepl
  cases hverbose
  rfl

theorem CliWord.classifyAll_commandLine {front behind : List GivenOption} {source : Text}
    (hfront : ∀ g ∈ front, g.Plain) (hbehind : ∀ g ∈ behind, g.Plain)
    (hsource : source.head? ≠ some '-') :
    classifyAll (commandLine front source behind) =
      .ok (front.flatMap cliWords ++ .loose source :: behind.flatMap cliWords) := by
  have hlast : classifyAll (behind.flatMap words) = .ok (behind.flatMap cliWords) := by
    have := classifyAll_words hbehind []
    rw [List.append_nil] at this
    rw [this, classifyAll, Except.map, List.append_nil]
  rw [commandLine, classifyAll_words hfront, classifyAll,
    if_neg (ne_marker_of_head?_ne hsource), classify_of_head?_ne hsource, hlast]
  rfl

/-- The settings of a command line are those of the job that it asks for. -/
theorem Settings.ofArguments_commandLine {job : Job} {front behind : List GivenOption}
    (h : job.IsGivenBy (front ++ behind)) :
    ofArguments (commandLine front job.source behind) =
      .ok ⟨some job.source, job.inline, job.format, job.out, job.pretty, false, false⟩ := by
  obtain ⟨hfront, hbehind⟩ := List.forall_mem_append.1 h.plain
  -- The words in front name no source, so the first loose word behind them is the source.
  have hopen : (front.foldl act .initial).source? = none :=
    kept_foldl_act Settings.source? (fun s g => by cases g <;> rfl) front .initial
  have hsettings : behind.foldl act { front.foldl act .initial with source? := some job.source } =
      ⟨some job.source, job.inline, job.format, job.out, job.pretty, false, false⟩ := by
    refine (foldl_act_source behind _ _).trans ?_
    rw [← List.foldl_append, foldl_act_initial h]
  obtain ⟨next, hnext⟩ := exists_apply_flatMap_cliWords hfront .initial [] false
    (.loose job.source :: behind.flatMap cliWords)
  obtain ⟨last, hlast⟩ := exists_apply_flatMap_cliWords hbehind
    { front.foldl act .initial with source? := some job.source } [] true []
  rw [List.append_nil, hsettings] at hlast
  rw [ofArguments, CliWord.classifyAll_commandLine hfront hbehind h.source]
  show (initial.apply [] false _ >>= _) = _
  rw [hnext, apply, hopen, Option.isNone_none, if_pos rfl, hlast]
  rfl

theorem Outcome.reports_ofJob {done : JobOutcome} {before : Files}
    (h : ∀ e, done.failure? = some e → done.stdout = [] ∧ done.files = before) :
    (ofJob done).Reports done before := by
  rcases done with ⟨stdout, files, _ | e⟩
  · exact ⟨rfl, rfl, fun _ => ⟨rfl, rfl, rfl⟩, by rintro _ ⟨⟩, by rintro _ ⟨⟩⟩
  · obtain ⟨rfl, rfl⟩ := h e rfl
    cases e with
    | parse m =>
      refine ⟨rfl, rfl, by rintro ⟨⟩, ?_, ?_⟩
      · rintro m ⟨⟩
        exact ⟨rfl, rfl, rfl, rfl, rfl⟩
      · rintro e ⟨⟩ hother
        exact absurd rfl (hother m)
    | notAScript | path | notText | format =>
      refine ⟨rfl, rfl, by rintro ⟨⟩, by rintro _ ⟨⟩, ?_⟩
      rintro e ⟨⟩ -
      exact ⟨rfl, rfl, rfl⟩

/-- A command line whose options ask for a job does it and reports how it has ended, wherever in
front of the source or behind it they stand and however they are spelled. -/
theorem commandLine_does_job {job : Job} {front behind : List GivenOption}
    (h : job.IsGivenBy (front ++ behind)) (stdin : Text) (files : Files) :
    (runCommandLine (commandLine front job.source behind) stdin files).Reports
      (job.run files) files := by
  have hrun : runCommandLine (commandLine front job.source behind) stdin files =
      Outcome.ofJob (job.run files) := by
    rw [runCommandLine, Invocation.ofArguments, Settings.ofArguments_commandLine h]
    rfl
  rw [hrun]
  exact Outcome.reports_ofJob fun e => Job.untouched_of_failure

/-- A mistake in the program ends with status 1 and leaves the file alone that the last word
names. -/
theorem commandLine_does_job_openLoop :
    Job.IsGivenBy ⟨"for x \x7d".toList, true, "json".toList, "out".toList, true⟩
        ([.format .json false false, .both true] ++ [.outJoined "out".toList]) ∧
      (runCommandLine ["-f".toList, "json".toList, "-ps".toList, "for x \x7d".toList,
          "--out=out".toList] [] (.single "out".toList "old".toList)).Reports
        (Job.run ⟨"for x \x7d".toList, true, "json".toList, "out".toList, true⟩
          (.single "out".toList "old".toList)) (.single "out".toList "old".toList) ∧
      (runCommandLine ["-f".toList, "json".toList, "-ps".toList, "for x \x7d".toList,
          "--out=out".toList] [] (.single "out".toList "old".toList)).status? = some 1 := by
  have hgiven : Job.IsGivenBy ⟨"for x \x7d".toList, true, "json".toList, "out".toList, true⟩
      ([.format .json false false, .both true] ++ [.outJoined "out".toList]) := by
    constructor <;> simp [Plain, flags, format?, out?, Format.name]
  have hreports := commandLine_does_job hgiven [] (.single "out".toList "old".toList)
  have hopen : (Job.run ⟨"for x \x7d".toList, true, "json".toList, "out".toList, true⟩
      (.single "out".toList "old".toList)).failure? = some (.parse ⟨[1], .unclosedBody⟩) := by
    decide +kernel
  exact ⟨hgiven, hreports, (hreports.mistake _ hopen).1⟩

end BlockScript
