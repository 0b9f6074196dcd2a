import CatalogLint.Command.Run
import Std.Time.DateTime
import Std.Time.Format
import Std.Time.Zoned

/-!
# The executable

Gathers what a run finds, runs the program and puts its results where they belong.
-/

namespace CatalogLint

/-- The time as the log shows it. -/
def timeStamp : IO String := do
  return (← Std.Time.PlainDateTime.now).format "uuuu-MM-dd HH:mm:ss,SSS"

/-- Whether a path leads to a directory. -/
def isDirectory (path : String) : IO Bool := do
  try (← IO.FS.realPath path).isDir catch _ => return false

/-- The bytes of a file, if a path leads to one. -/
def fileBytes? (path : String) : IO (Option (List UInt8)) := do
  try return some (← IO.FS.readBinFile path).toList catch _ => return none

/-- Adds what stands at a path, and the directories on the way, to a tree. -/
def survey (current : List String) (root : FileTree) (path : String) : IO FileTree := do
  let steps := Text.cut '/' path
  let mut root := root
  for n in [1:steps.length + 1] do
    let part := "/".intercalate (steps.take n)
    let names := FileTree.absoluteNames current part
    if (root.get? names).isNone then
      if ← isDirectory part then root := FileTree.put (.dir []) names root
      else if n = steps.length then
        if let some bytes ← fileBytes? part then root := FileTree.put (.file bytes) names root
  return root

/-- The directory of the settings. -/
def configNames (current : List String) : IO (List String) := do
  let home := (← IO.getEnv "HOME").getD ""
  let base := ((← IO.getEnv "XDG_CONFIG_HOME").filter (· ≠ "")).getD (home ++ "/.config")
  return FileTree.absoluteNames current base ++ [productName]

/-- Writes a file that the run has changed: beside the old one first, then in its place. -/
def writeBack (before after : FileTree) (names : List String) : IO Unit := do
  let bytes? (t : FileTree) : Option (List UInt8) := match t.get? names with
    | some (.file bytes) => some bytes
    | _ => none
  if let some bytes := bytes? after then
    if bytes? before ≠ some bytes then
      IO.FS.createDirAll (pathText names.dropLast)
      let temporary := pathText names ++ ".tmp"
      IO.FS.writeBinFile temporary (ByteArray.mk bytes.toArray)
      IO.FS.rename temporary (pathText names)

/-- Answers messages as they come, until the input ends or cannot be read on. -/
partial def answerMessages (input output : IO.FS.Stream) (r : Server.Incoming)
    (s : Server.Session) : IO (Option Server.StreamError) := do
  let answer (piece : List UInt8) : IO Server.Session := do
    let (s, responses) := s.receive piece
    for response in responses do
      output.putStr response.sent
      IO.eprint (response.logged {})
    output.flush
    return s
  match (← input.read 1).toList with
  | [] =>
    if let some piece := r.finish? then
      let _ ← answer piece
    return none
  | b :: _ =>
    match r.feed b with
    | .error e => return some e
    | .ok (r, none) => answerMessages input output r s
    | .ok (r, some piece) => answerMessages input output r (← answer piece)

end CatalogLint

open CatalogLint in
def main (arguments : List String) : IO UInt32 := do
  let current := FileTree.absoluteNames [] (← IO.currentDir).toString
  let config ← configNames current
  let settingsFile := config ++ [Settings.fileName]
  let paths := pathText current :: pathText settingsFile :: arguments
  let root ← paths.foldlM (survey current) (.dir [])
  let stdout ← IO.getStdout
  let keep (after : FileTree) : IO Unit :=
    paths.forM fun path => writeBack root after (FileTree.absoluteNames current path)
  let world : Command.World :=
    { name := productName, root, current, config, color := ← stdout.isTty, time := ← timeStamp }
  match Command.start world arguments with
  | .ended ending =>
    keep ending.root
    stdout.putStr ending.stdout
    stdout.flush
    (← IO.getStderr).putStr ending.stderr
    if let some failure := ending.failure then IO.eprintln failure.message
    return UInt32.ofNat ending.exitCode
  | .serving after =>
    keep after
    match ← answerMessages (← IO.getStdin) stdout {} {} with
    | none => return 0
    | some e =>
      IO.eprintln e.message
      return 1
