import Signpost.Command

/-!
# The program

Runs a command on the files of the working directory.
-/
open Signpost

/-- The bytes of a file, if it can be read. -/
def readFile? (path : String) : IO (Option (List UInt8)) := do
  try
    let bytes ← IO.FS.readBinFile path
    return some bytes.toList
  catch _ => return none

def main (arguments : List String) : IO UInt32 := do
  match ← Command.run readFile? arguments with
  | .done code printed =>
    IO.print printed
    return code.toUInt32
  | .ready settings _ =>
    IO.eprintln ("no transport to listen at " ++ settings.bindAddress)
    return 1
