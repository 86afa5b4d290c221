import ConfinedRelay.LineBuffer
import ConfinedRelay.Log
import ConfinedRelay.OpenFile

/-!
The program: with the default settings it starts its log, opens the resource and
transfers it to standard output through a line buffer. A failure is told on
standard error in one line behind what the log has written there. When the program
ends, whatever is still pending in the buffer goes out, and nobody asks whether
that succeeds.
-/
namespace ConfinedRelay

/-- The end of a run: whether it was a success, what was written to standard
error, and the device behind standard output. -/
structure Exit (δ : Type) where
  success : Bool
  diagnostics : List Char
  device : δ

namespace Program

def settings : Settings := {}

def complaint (message : String) : List Char := message.toList ++ ['\n']

variable {σ δ : Type} [PatternSyntax] [ChunkDevice δ]

/-- Run the program once its resource has been looked for. Standard error may be a
terminal. -/
def runOpened [ByteSource σ] (opening : Opening σ) (terminal : Bool) (device : δ) : Exit δ :=
  let (starting, log) := Log.start { terminal } settings
  let transfer := opening.transfer (LineBuffer.mk device [])
  let device := transfer.next.drain.2.device
  let before :=
    match starting with
    | .ok () => []
    | .error e => complaint e.message
  let logged := log.written transfer.events
  match transfer.answer with
  | .ok _ => ⟨true, before ++ logged, device⟩
  | .error failure => ⟨false, before ++ logged ++ complaint failure.message, device⟩

/-- Run the program on a host. -/
def run (h : Host) (terminal : Bool) (device : δ) : Exit δ :=
  runOpened ((h.open settings.inputPath).mapSource h.view) terminal device

end Program
end ConfinedRelay
