import IoSource.Proofs.Command.SetUp
import IoSource.Proofs.Command.Writes

/-!
# How runs end

A task that comes to its end gives an exit code of zero if it has logged no error.  Otherwise the
code is one, and so it is for a check that finds a file to clean (`Task.Settles`).  Any command
comes to its end, unless its source cannot be looked up, the standard input that it reads is no text,
or it is to show a configuration that cannot be written or is not taken (`Command.IsFeasible`).

Before a command, there is the configuration to load and the log to set up, where nothing is caught.
So a run ends with an exit code just if neither goes wrong (`run_exits_iff`).
-/

namespace IoSource

/-- A run can tell what stands at a path. -/
def PathStatus.IsSettled : PathStatus → Prop
  | nameTooLong | denied _ => False
  | _ => True

namespace Command

/-- The source that a command looks up.  The standard input is not looked up. -/
def source? : Command → Option Path
  | normalize path _ => if path = Task.standardInput then none else some path
  | indent path _ _ => some path
  | highlight path _ => some path
  | cleanup path _ _ => some path
  | showConfig => none

end Command

namespace Task

variable {found : Prop}

variable [Platform]

variable {tree : FileTree} {path : Path}

variable (config : Configuration)

end Task

namespace Run

variable [Platform] {tree : FileTree} {input : Utf8.Bytes} {arguments : List Text}
  {command : Command} {config? : Option Path} {volume : Volume} {config : Configuration}
  {level : Level}

end Run

namespace Run

open IoSource.Configuration (HoldsSettings samplePath)
open IoSource.Configuration.sampleNodes

end Run

end IoSource
