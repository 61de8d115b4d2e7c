import StakeLedger.Offline.CommandLine

/-!
# The program

Offline checks of snapshot files from the command line.
-/

namespace StakeLedger

/-- The bytes of a file, if it can be read. -/
def readFile? (path : String) : IO (Option Bytes) :=
  try
    let bytes ← IO.FS.readBinFile path
    return some bytes.toList
  catch _ => return none

/-- Whether bytes can be written to a file, which is done. -/
def writeFile (path : String) (bytes : Bytes) : IO Bool :=
  try
    IO.FS.writeBinFile path (ByteArray.mk bytes.toArray)
    return true
  catch _ => return false

/-- Carries out what a command leaves behind. -/
def Command.Outcome.carryOut (o : Command.Outcome) : IO UInt32 := do
  let written ← match o.file with
    | none => pure true
    | some (path, bytes) => writeFile path bytes
  let o := o.conclude fun _ => written
  let stdout ← IO.getStdout
  stdout.write (ByteArray.mk o.output.toArray)
  stdout.flush
  if let some (path, bytes) := o.file then IO.eprintln s!"Wrote {bytes.length} bytes to {path}"
  if let some complaint := o.complaint then IO.eprintln s!"Error: {complaint}"
  return UInt32.ofNat o.exitCode

end StakeLedger

/-- Runs the command that the arguments ask for. -/
def main (args : List String) : IO UInt32 :=
  match StakeLedger.Command.parse args with
  | .error usage => (StakeLedger.Command.Outcome.ofUsage usage).carryOut
  | .ok command => do
    let file ← StakeLedger.readFile? command.input
    (command.run .blake3 file).carryOut
