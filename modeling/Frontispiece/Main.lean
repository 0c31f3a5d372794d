import Frontispiece.Command.Run

/-!
# The program

The program carries out its arguments in the current directory.  `Command.run` does the work on a
file tree; this file reads that tree from the disk, writes back what has changed, and shows the
outcome.
-/

set_option autoImplicit false

namespace Frontispiece
namespace Program

open Files (Entry FileTree)

/-- The entry of a folder and everything below it.  A link stands for the file it leads to; links
to folders are left out, and so is everything that cannot be read. -/
partial def entriesFrom (place : List String) (entry : IO.FS.DirEntry) :
    IO (List (List String × Entry)) := do
  let place := place ++ [entry.fileName]
  try
    match (← entry.path.symlinkMetadata).type with
    | .dir => do
      let inner ← (← entry.path.readDir).toList.mapM (entriesFrom place)
      pure ((place, .folder) :: inner.flatten)
    | .file => pure [(place, .file (← IO.FS.readBinFile entry.path))]
    | .symlink => do
      match (← entry.path.metadata).type with
      | .file => pure [(place, .file (← IO.FS.readBinFile entry.path))]
      | _ => pure []
    | .other => pure []
  catch _ => pure []

/-- What is below the current directory, and the device that every system has. -/
def readTree : IO FileTree := do
  let here ← IO.FS.realPath "."
  let entries ← (← here.readDir).toList.mapM (entriesFrom [])
  let home := (Files.components here.toString).filter (!·.isEmpty)
  pure { ground := { home }, entries := entries.flatten ++ FileTree.empty.entries }

/-- Writes the entries of a tree that another does not have in the same form. -/
def writeTree (before after : FileTree) : IO Unit :=
  after.entries.forM fun (place, entry) => do
    let path := "/".intercalate place
    match entry, before.find? place with
    | .folder, none => IO.FS.createDirAll path
    | .file content, known =>
      if known != some (.file content) then IO.FS.writeBinFile path content
    | _, _ => pure ()

/-- The current instant: that at which a new file was made. -/
def readClock : IO Calendar.Instant := do
  let (_, path) ← IO.FS.createTempFile
  let modified := (← path.metadata).modified
  IO.FS.removeFile path
  pure ⟨modified.sec, modified.nsec.toNat⟩

/-- The surroundings of a command. -/
def readEnvironment : IO Command.Environment := do
  let tokens ← Stats.Provider.tokenVariables.mapM fun name => do
    pure (name, ← IO.getEnv name)
  let random ← IO.getRandomBytes 8
  let base := random.toList.foldl (fun n byte => n * 256 + byte.toUInt64) 0
  pure
    { now := ← readClock
      lookup := fun name => (tokens.lookup name).bind id
      nonce := fun pass => base + pass.toUInt64 }

/-- Carries out arguments in the current directory, and gives the code to end with. -/
def run (arguments : List String) : IO UInt32 := do
  let before ← readTree
  let (outcome, after) := Command.run (← readEnvironment) arguments before
  writeTree before after
  (← IO.getStdout).putStr outcome.stdout
  (← IO.getStderr).putStr outcome.stderr
  pure outcome.code.toUInt32

end Program
end Frontispiece

/-- The program. -/
def main (arguments : List String) : IO UInt32 :=
  Frontispiece.Program.run arguments
