/-!
Faults of the operating system and of devices. A fault has a kind, which decides
how it is handled, and a text, which is shown. It comes from the system with an
error number, or from a device with a text of its own or with the fixed text of
its kind.
-/
namespace ConfinedRelay

inductive FaultKind where
  | notFound | permissionDenied | connectionRefused | connectionReset | connectionAborted
  | notConnected | addrInUse | addrNotAvailable | brokenPipe | alreadyExists | wouldBlock
  | notADirectory | isADirectory | directoryNotEmpty | readOnlyFilesystem
  | staleNetworkFileHandle | invalidInput | invalidData | timedOut | writeZero | storageFull
  | notSeekable | quotaExceeded | fileTooLarge | resourceBusy | executableFileBusy | deadlock
  | tooManyLinks | argumentListTooLong | interrupted | unsupported | unexpectedEof
  | outOfMemory | other
  | inputOutputError | filesystemLoop | invalidFilename | uncategorized
  deriving DecidableEq, Repr

/-- The text of a fault that says nothing but its kind. -/
def FaultKind.text : FaultKind → String
  | .notFound => "entity not found"
  | .permissionDenied => "permission denied"
  | .connectionRefused => "connection refused"
  | .connectionReset => "connection reset"
  | .connectionAborted => "connection aborted"
  | .notConnected => "not connected"
  | .addrInUse => "address in use"
  | .addrNotAvailable => "address not available"
  | .brokenPipe => "broken pipe"
  | .alreadyExists => "entity already exists"
  | .wouldBlock => "operation would block"
  | .notADirectory => "not a directory"
  | .isADirectory => "is a directory"
  | .directoryNotEmpty => "directory not empty"
  | .readOnlyFilesystem => "read-only filesystem or storage medium"
  | .staleNetworkFileHandle => "stale network file handle"
  | .invalidInput => "invalid input parameter"
  | .invalidData => "invalid data"
  | .timedOut => "timed out"
  | .writeZero => "write zero"
  | .storageFull => "no storage space"
  | .notSeekable => "seek on unseekable file"
  | .quotaExceeded => "quota exceeded"
  | .fileTooLarge => "file too large"
  | .resourceBusy => "resource busy"
  | .executableFileBusy => "executable file busy"
  | .deadlock => "deadlock"
  | .tooManyLinks => "too many links"
  | .argumentListTooLong => "argument list too long"
  | .interrupted => "operation interrupted"
  | .unsupported => "unsupported"
  | .unexpectedEof => "unexpected end of file"
  | .outOfMemory => "out of memory"
  | .other => "other error"
  | .inputOutputError => "input/output error"
  | .filesystemLoop => "filesystem loop or indirection limit (e.g. symlink loop)"
  | .invalidFilename => "invalid filename"
  | .uncategorized => "uncategorized error"

/-- The numbered errors of the operating system. -/
inductive SystemError where
  | notPermitted | noEntry | interruptedCall | inputOutput | badDescriptor | tryAgain
  | accessDenied | exists | notDirectory | isDirectory | invalidArgument | fileTooBig
  | noSpace | readOnly | brokenPipe | nameTooLong | linkLoop
  | unlisted (number : Nat)
  deriving DecidableEq, Repr

namespace SystemError

def number : SystemError → Nat
  | notPermitted => 1
  | noEntry => 2
  | interruptedCall => 4
  | inputOutput => 5
  | badDescriptor => 9
  | tryAgain => 11
  | accessDenied => 13
  | .exists => 17
  | notDirectory => 20
  | isDirectory => 21
  | invalidArgument => 22
  | fileTooBig => 27
  | noSpace => 28
  | readOnly => 30
  | brokenPipe => 32
  | nameTooLong => 36
  | linkLoop => 40
  | unlisted n => n

def ofNumber : Nat → SystemError
  | 1 => notPermitted
  | 2 => noEntry
  | 4 => interruptedCall
  | 5 => inputOutput
  | 9 => badDescriptor
  | 11 => tryAgain
  | 13 => accessDenied
  | 17 => .exists
  | 20 => notDirectory
  | 21 => isDirectory
  | 22 => invalidArgument
  | 27 => fileTooBig
  | 28 => noSpace
  | 30 => readOnly
  | 32 => brokenPipe
  | 36 => nameTooLong
  | 40 => linkLoop
  | n => unlisted n

def kind : SystemError → FaultKind
  | notPermitted | accessDenied => .permissionDenied
  | noEntry => .notFound
  | interruptedCall => .interrupted
  | inputOutput => .inputOutputError
  | tryAgain => .wouldBlock
  | .exists => .alreadyExists
  | notDirectory => .notADirectory
  | isDirectory => .isADirectory
  | invalidArgument => .invalidInput
  | fileTooBig => .fileTooLarge
  | noSpace => .storageFull
  | readOnly => .readOnlyFilesystem
  | brokenPipe => .brokenPipe
  | nameTooLong => .invalidFilename
  | linkLoop => .filesystemLoop
  | badDescriptor | unlisted _ => .uncategorized

def description : SystemError → String
  | notPermitted => "Operation not permitted"
  | noEntry => "No such file or directory"
  | interruptedCall => "Interrupted system call"
  | inputOutput => "Input/output error"
  | badDescriptor => "Bad file descriptor"
  | tryAgain => "Resource temporarily unavailable"
  | accessDenied => "Permission denied"
  | .exists => "File exists"
  | notDirectory => "Not a directory"
  | isDirectory => "Is a directory"
  | invalidArgument => "Invalid argument"
  | fileTooBig => "File too large"
  | noSpace => "No space left on device"
  | readOnly => "Read-only file system"
  | brokenPipe => "Broken pipe"
  | nameTooLong => "File name too long"
  | linkLoop => "Too many levels of symbolic links"
  | unlisted n => "Unknown error " ++ toString n

/-- The description with the number behind it. -/
def text (e : SystemError) : String :=
  e.description ++ " (os error " ++ toString e.number ++ ")"

end SystemError

inductive Fault where
  | plain (kind : FaultKind)
  | described (kind : FaultKind) (text : String)
  | system (error : SystemError)
  deriving DecidableEq, Repr

namespace Fault

def kind : Fault → FaultKind
  | plain k => k
  | described k _ => k
  | system e => e.kind

def text : Fault → String
  | plain k => k.text
  | described _ t => t
  | system e => e.text

@[simp] theorem kind_plain (k : FaultKind) : (plain k).kind = k := rfl
@[simp] theorem kind_described (k : FaultKind) (t : String) : (described k t).kind = k := rfl
@[simp] theorem kind_system (e : SystemError) : (system e).kind = e.kind := rfl
@[simp] theorem text_plain (k : FaultKind) : (plain k).text = k.text := rfl
@[simp] theorem text_described (k : FaultKind) (t : String) : (described k t).text = t := rfl
@[simp] theorem text_system (e : SystemError) : (system e).text = e.text := rfl

/-- An interrupted call may be made again as if nothing had happened. -/
def IsInterruption (f : Fault) : Prop := f.kind = .interrupted

instance (f : Fault) : Decidable f.IsInterruption :=
  inferInstanceAs (Decidable (f.kind = .interrupted))

end Fault
end ConfinedRelay
