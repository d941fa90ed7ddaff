import Placeholder.Program.Run

/-!
# The command

Hands the arguments, the environment and the files of a process to `Program.run`, and does what
comes out of it. Only the files that a run may touch are read. No network is reachable and no other
program is started from here.
-/
open Placeholder

namespace Placeholder.Command

def environ : IO (List (ByteArray × ByteArray)) := do
  let bytes ← IO.FS.readBinFile "/proc/self/environ"
  let entries := bytes.toList.splitBy fun a b => a != 0 && b != 0
  return (entries.filter fun e => !e.contains 0).map fun e =>
    (⟨(e.takeWhile (· != 61)).toArray⟩, ⟨((e.dropWhile (· != 61)).drop 1).toArray⟩)

/-- Adds what stands at a path to the known files. A special file is read only if the run was told
to read it, for that may take for ever. -/
def learn (told : Bool) (files : Files) (path : String) : IO Files := do
  let here ← IO.currentDir
  let place := Files.place files.directory path
  if (files.devices.lookup place).isSome then return files
  let mut directories := files.directories
  for n in List.range place.length do
    let above := place.take n
    if ← (here / Files.absolute above).isDir then directories := above :: directories
  let files := { files with directories }
  let found := here / Files.absolute place
  try
    match (← found.metadata).type with
    | .dir => return { files with directories := place :: directories }
    | .file =>
      let bytes ← IO.FS.readBinFile found
      return { files with contents := (place, bytes) :: files.contents }
    | _ =>
      let bytes ← if told then IO.FS.readBinFile found else pure .empty
      return { files with devices := (place, { gives := .ok bytes }) :: files.devices }
  catch _ => return files

/-- Writes the files that a run has made or changed. What an output of the run has taken is part of
that output already. -/
def keep (before after : Files) : IO Unit := do
  for (place, bytes) in after.contents do
    if (before.contents.lookup place).map ByteArray.toList != some bytes.toList then
      IO.FS.writeBinFile (Files.absolute place) bytes
  for (place, device) in after.devices do
    if device.outlet.isNone then
      for bytes in device.taken do IO.FS.writeBinFile (Files.absolute place) bytes

def finish (words : List String) : IO Program.Finish := do
  let directory := Files.place [] (← IO.currentDir).toString
  let start : Program.Start :=
    { words, environ := ← environ, files := { directory, contents := [] } }
  let files ← (Assignments.candidates directory).foldlM (learn false) start.files
  let start := { start with files }
  let files ← start.inputs.foldlM (learn true) files
  let files ← start.others.foldlM (learn false) files
  match (Program.run (.isolated 0) { start with files } 0).1 with
  | .ok finish =>
    keep files finish.files
    return finish
  | .error .help => return { stdout := Program.helpText, files }
  | .error .version => return { stdout := Program.versionText, files }
  | .error .misuse => return { exit := 2, stderr := Program.helpText, files }

end Placeholder.Command

def main (words : List String) : IO UInt32 := do
  let finish ← Command.finish words
  IO.eprint finish.stderr
  IO.print finish.stdout
  return finish.exit.toUInt32
