import ConfinedRelay.Program

/-!
The command line. The resource is looked for on the real host, the program is run
on what is found there, and its output is sent to the real standard output. If
that cannot take it, the program is run again with a device that fails in the same
way.
-/
namespace ConfinedRelay.Program

/-- The fault behind an error of an input or output call. -/
def faultOf : IO.Error → Fault
  | .alreadyExists _ code _ | .otherError code _ | .resourceBusy code _
  | .resourceVanished code _ | .unsupportedOperation code _ | .hardwareFault code _
  | .unsatisfiedConstraints code _ | .illegalOperation code _ | .protocolError code _
  | .timeExpired code _ | .interrupted _ code _ | .noFileOrDirectory _ code _
  | .invalidArgument _ code _ | .permissionDenied _ code _ | .resourceExhausted _ code _
  | .inappropriateType _ code _ | .noSuchThing _ code _ =>
    .system (.ofNumber code.toNat)
  | .unexpectedEof => .plain .unexpectedEof
  | .userError text => .described .other text

/-- Look for what a location names. It has to lie beneath the location's directory. -/
def find (location : Location) : IO (Except Fault FileView) := do
  try
    let directory ← IO.FS.realPath location.directory
    if !(← directory.isDir) then
      return .error (.system .notDirectory)
    let object ← IO.FS.realPath (location.directory ++ "/" ++ location.name)
    let above := Path.components directory.toString
    if !above.isPrefixOf (Path.components object.toString) then
      return .error Walk.escape
    if ← object.isDir then
      return .ok ⟨⟨.directory, 0, []⟩, .directory⟩
    let bytes ← IO.FS.readBinFile object
    return .ok ⟨⟨.file 0, 0, []⟩, .bytes bytes.toList⟩
  catch e => return .error (faultOf e)

/-- Send the output of a run, and give the run that tells the outcome. -/
def deliver (opening : Opening FileView) (terminal : Bool) : IO (Bool × List Char) := do
  let exit := runOpened opening terminal ({} : ScriptedDevice)
  try
    let output ← IO.getStdout
    output.write ⟨exit.device.stored⟩
    output.flush
    return (exit.success, exit.diagnostics)
  catch e =>
    let f := faultOf e
    if h : f.IsInterruption then
      return (exit.success, exit.diagnostics)
    else
      let broken := runOpened opening terminal (BrokenDevice.mk f h)
      return (broken.success, broken.diagnostics)

end ConfinedRelay.Program

def main : IO UInt32 := do
  let path := ConfinedRelay.Program.settings.inputPath
  let found ←
    match ConfinedRelay.Path.split path with
    | none => pure (.error ConfinedRelay.Host.noFileName)
    | some location => ConfinedRelay.Program.find location
  let terminal ← (← IO.getStderr).isTty
  let (success, diagnostics) ← ConfinedRelay.Program.deliver (.of path found) terminal
  (← IO.getStderr).putStr (String.ofList diagnostics)
  return if success then 0 else 1
