import ScriptTriage.Command

/-
The command itself: it gathers what the command function asks about and does what that answers.
-/

namespace ScriptTriage.Main

/-- what a path leads to, in the words of the command function -/
def lookUp (path : String) : IO (String × Except FileFault FileEntry) := do
  try
    let data ← IO.FS.readBinFile path
    return (path, .ok (.file data.toList))
  catch e =>
    match e with
    | .noFileOrDirectory .. => return (path, .error .notFound)
    | .inappropriateType .. => return (path, .ok .directory)
    | e => return (path, .error (.other (toString e)))

/-- the file system as far as the command looks at it -/
def fileSystem (entries : List (String × Except FileFault FileEntry)) : FileSystem where
  find path := (entries.lookup path).getD (.error .notFound)
  writeFault? path :=
    match entries.lookup path with
    | some (.ok .directory) => some .isDirectory
    | _ => none

partial def readAll (stream : IO.FS.Stream) (acc : ByteArray) : IO ByteArray := do
  let chunk ← stream.read 65536
  if chunk.isEmpty then return acc else readAll stream (acc ++ chunk)

/-- write the file that an outcome asks for; if that fails, the outcome is a complaint -/
def write (outcome : Outcome) : IO Outcome := do
  match outcome.written with
  | none => return outcome
  | some (path, text) =>
    try
      IO.FS.writeFile path text
      return outcome
    catch e =>
      let fault : FileFault := match e with
        | .noFileOrDirectory .. => .notFound
        | .inappropriateType .. => .isDirectory
        | e => .other (toString e)
      return Command.refuseToWrite path fault

end ScriptTriage.Main

open ScriptTriage in
def main (args : List String) : IO UInt32 := do
  let stdin ← if Command.readsStdin args then Main.readAll (← IO.getStdin) .empty else pure .empty
  let entries ← (Command.touchedPaths args stdin.toList).mapM Main.lookUp
  let outcome := Command.run
    { arguments := args, stdin := stdin.toList, files := Main.fileSystem entries
      forceColor := ← IO.getEnv "CLICOLOR_FORCE" }
  let outcome ← Main.write outcome
  (← IO.getStdout).putStr outcome.stdout
  (← IO.getStderr).putStr (outcome.stderr.getD "")
  return outcome.exitCode.toUInt32
