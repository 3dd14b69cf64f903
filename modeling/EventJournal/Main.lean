import EventJournal.Cli.Run
import EventJournal.Event.RandomId

/-!
# The program

Gathers the surroundings of a command line, runs it, and writes what comes of it. The program has no
network of its own, so no log server can be reached from it.
-/

namespace EventJournal.Cli

/-- The text of a file that can be read. -/
def readText? (name : String) : IO (Option String) := do
  try return some (← IO.FS.readFile name) catch _ => return none

/-- The moment now: the moment at which the system was started, and the time since then. -/
def currentTime : IO Timestamp := do
  let started := ((← readText? "/proc/stat").getD "").splitOn "\n" |>.findSome? fun line =>
    match line.splitOn " " with
    | ["btime", seconds] => seconds.toNat?
    | _ => none
  let elapsed ← IO.monoNanosNow
  return ⟨(started.getD 0 : Int) + elapsed / 1000000000, elapsed % 1000000000⟩

/-- An id that nobody has. -/
def freshId : IO EventId := return .ofBytes (← IO.getRandomBytes 16).toList

/-- The surroundings of the process, with the files that its command line may need. -/
def surroundings (words : List String) : IO (Surroundings Unit) := do
  let environment := Config.Environment.ofBlock ((← readText? "/proc/self/environ").getD "")
  let own ← readText? ".env"
  let full := own.elim environment (Config.addFile environment)
  let texts ← (settingsNames full words).mapM fun name => return (name, ← readText? name)
  let files (name : String) : Option String :=
    if name = ".env" then own else (texts.lookup name).join
  return { environment, files, now := ← currentTime, eventId := ← freshId, markerId := ← freshId,
           transport := .unreachable }

end EventJournal.Cli

/-- Runs the command line of the process. -/
def main (words : List String) : IO UInt32 := do
  let report := EventJournal.Cli.run (← EventJournal.Cli.surroundings words) words ()
  (← IO.getStdout).putStr report.stdout
  (← IO.getStderr).putStr report.stderr
  return UInt32.ofNat report.code
