import Std.Time
import ViewCompiler.Program

/-!
# The program on a real file system

Reads what the program can see of the file system into a disk, runs the program on it and
writes what it says. A run that watches looks at the file system again and again and
takes in the differences.
-/

open ViewCompiler

namespace ViewCompiler.Shell

/-- The place that an absolute path names. -/
def placeOf (path : String) : Place :=
  (Physical.rawPieces path).filter fun name => !Physical.isIdle name

/-- The disk with what stands at a path and everything below it, as far as it can be
read. -/
partial def withTree (disk : Disk) (path : String) : IO Disk := do
  try
    let real ← IO.FS.realPath path
    let metadata ← real.metadata
    match metadata.type with
    | .dir =>
      let mut disk := disk.makeDirectory (placeOf real.toString)
      for entry in ← real.readDir do
        disk ← withTree disk (real.toString ++ "/" ++ entry.fileName)
      return disk
    | .file =>
      let content ← IO.FS.readBinFile real
      let modified := metadata.modified.sec.toNat * 1000000000 + metadata.modified.nsec.toNat
      return disk.write (placeOf real.toString) content.toList modified
    | _ => return disk
  catch _ => return disk

/-- The disk with the directories that an absolute path leads through. -/
def withWay (disk : Disk) (path : Text) : IO Disk := do
  let pieces := Physical.rawPieces path
  let mut disk := disk
  for depth in List.range (pieces.length + 1) do
    try
      let real ← IO.FS.realPath (Text.string ('/' :: Text.joined ['/'] (pieces.take depth)))
      if (← real.metadata).type matches .dir then
        disk := disk.makeDirectory (placeOf real.toString)
    catch _ => pure ()
  return disk

/-- The disk with everything that paths name, seen from the working directory. -/
def withPaths (disk : Disk) (environment : Environment) (paths : List Text) : IO Disk := do
  let mut disk := disk
  for path in paths do
    let absolute := Physical.join environment.cwd path
    disk ← withTree (← withWay disk absolute) (Text.string absolute)
  return disk

/-- What the program can see of the file system: the working directory, what may be the
configuration file, what the command line names, the root of the templates, and some
paths more. -/
def survey (environment : Environment) (arguments paths : List Text) : IO Disk := do
  let disk ← withPaths (← withWay {} environment.cwd) environment paths
  match CommandLine.read arguments with
  | .error _ => return disk
  | .ok line =>
    let named := match line.command with
      | .check paths _ _ => paths
      | .watch _ => []
    let candidates := (Config.outwards environment.cwd).map (Physical.join · line.config)
    let disk ← withPaths disk environment (candidates ++ line.root.toList ++ named)
    match Config.load disk environment line.config line.root with
    | (.error _, _) => return disk
    | (.ok config, _) => withPaths disk environment [config.templateRoot disk environment]

/-- Writes text to the stream of results at once. -/
def say (text : Text) : IO Unit := do
  let stream ← IO.getStdout
  stream.putStr (Text.string text)
  stream.flush

/-- Writes what a run comes to, and gives its code. -/
def conclude (result : RunResult) : IO UInt32 := do
  for piece in result.output do
    match piece with
    | .out text => say text
    | .err text => (← IO.getStderr).putStr (Text.string text)
  return result.code.toUInt32

/-- The time of the day. -/
def clock : IO Text := do
  return Screen.clock (← Std.Time.Timestamp.now).toSecondsSinceUnixEpoch.toInt.toNat

/-- How many milliseconds pass from one look at the file system to the next. -/
def pause : UInt32 := 50

/-- Watches until the run is at its end. -/
partial def watch (arguments : List Text) (run : WatchRun) : IO UInt32 := do
  IO.sleep pause
  let disk ← survey run.environment arguments [run.root]
  let now ← IO.monoMsNow
  let (heard, run) := run.look disk now
  say heard
  let (shown, next) := run.tick disk now (← clock)
  say shown
  match next with
  | some run => watch arguments run
  | none => conclude Program.unwatchable

/-- Runs the program on arguments. -/
def run (arguments : List Text) : IO UInt32 := do
  let cwd ← IO.currentDir
  let home ← IO.getEnv "HOME"
  let environment : Environment := ⟨cwd.toString, home.getD ""⟩
  let disk ← survey environment arguments []
  match Program.run? disk environment arguments with
  | some result => conclude result
  | none =>
    match Program.watch? disk environment (← clock) arguments with
    | none => conclude Program.unwatchable
    | some (said, run) =>
      say said
      watch arguments run

end ViewCompiler.Shell

/-- The program. -/
def main (arguments : List String) : IO UInt32 :=
  ViewCompiler.Shell.run (arguments.map String.toList)
