import ConfinedRelay.Host
import ConfinedRelay.Opening

/-!
Opening a resource and reading it. A path is opened in two stages. Its directory
is found by an ordinary walk. Its name is then followed beneath that directory
and never leads out of it. What is opened is an object of the tree, which a later
removal or replacement of the name does not touch. It is read through a buffer
that is filled, when it is empty, with the next bytes that the object then has.
-/
namespace ConfinedRelay

/-- What a path opens: a file, or a directory, which can be opened but not read. -/
inductive FileObject where
  | file (id : Nat)
  | directory
  deriving DecidableEq, Repr

/-- What an object holds at some moment. -/
inductive Content where
  | bytes (b : List UInt8)
  | directory
  deriving DecidableEq, Repr

def Tree.content (t : Tree) : FileObject → Content
  | .file id => .bytes (t.contents id)
  | .directory => .directory

/-- An open object: `position` counts the bytes taken from it, `buffer` holds those
of them that have not been read yet. -/
structure BufferedFile where
  object : FileObject
  position : Nat := 0
  buffer : List UInt8 := []
  deriving DecidableEq, Repr

namespace BufferedFile

/-- The number of bytes that fill the buffer. -/
def capacity : Nat := 8192

end BufferedFile

/-- An open object together with what it holds now. -/
structure FileView where
  file : BufferedFile
  content : Content
  deriving DecidableEq, Repr

namespace FileView

def read (v : FileView) : ReadAnswer × FileView :=
  match v.file.buffer, v.content with
  | b :: rest, _ => (.unit b, { v with file.buffer := rest })
  | [], .directory => (.fault (.system .isDirectory), v)
  | [], .bytes bytes =>
    match (bytes.drop v.file.position).take BufferedFile.capacity with
    | [] => (.ended, v)
    | b :: rest =>
      (.unit b, { v with
        file.buffer := rest
        file.position := v.file.position + (rest.length + 1) })

/-- How many bytes the object holds behind the position. -/
def ahead (v : FileView) : Nat :=
  match v.content with
  | .bytes bytes => bytes.length - v.file.position
  | .directory => 0

def remaining (v : FileView) : Nat := v.file.buffer.length + v.ahead

theorem remaining_read {v : FileView} {b : UInt8} (h : v.read.1 = .unit b) :
    v.read.2.remaining < v.remaining := by
  unfold read at h ⊢
  split at h
  · simp_all [remaining, ahead]
  · simp at h
  · rename_i hbuffer hbytes
    split at h
    · simp at h
    · rename_i rest heq
      have hlen := congrArg List.length heq
      simp only [List.length_take, List.length_drop, List.length_cons] at hlen
      simp only [hbuffer, hbytes, remaining, ahead, List.length_nil]
      omega

theorem not_isInterruption_read (v : FileView) : ¬ v.read.1.IsInterruption := by
  unfold read
  split
  · simp
  · simp [Fault.IsInterruption, SystemError.kind]
  · split <;> simp

instance : ByteSource FileView where
  read := read
  remaining := remaining
  remaining_of_unit _ _ := remaining_read
  remaining_of_interruption v h := absurd h (not_isInterruption_read v)

end FileView

namespace Host

/-- The length in bytes that a path text must stay below. -/
def pathLimit : Nat := 4096

/-- The fault of a directory path that holds a NUL character. -/
def nulInPath : Fault := .described .invalidInput "file name contained an unexpected NUL byte"

/-- The fault of a path without a name to open. -/
def noFileName : Fault := .described .invalidInput "input path has no file name"

/-- Open a directory by an ordinary walk. -/
def openDirectory (h : Host) (path : String) : Except Fault Place :=
  if path.toList.contains '\x00' then .error nulInPath
  else if pathLimit ≤ path.utf8ByteSize then .error (.system .nameTooLong)
  else
    match h.tree.resolve h.current path with
    | .error f => .error f
    | .ok place =>
      if h.tree.look place = some .directory then .ok place
      else .error (.system .notDirectory)

/-- Open what a name leads to beneath a directory. -/
def openBeneath (h : Host) (directory : Place) (name : String) : Except Fault FileObject :=
  if name.toList.contains '\x00' then .error (.system .invalidArgument)
  else
    match h.tree.resolveBeneath directory name with
    | .error f => .error f
    | .ok place =>
      match h.tree.look (place ++ directory) with
      | some (.file id) => .ok (.file id)
      | some .directory => .ok .directory
      | some (.link _) | none => .error (.system .noEntry)

/-- Open what a path leads to, its directory first and then its name. -/
def openObject (h : Host) (path : String) : Except Fault FileObject :=
  match Path.split path with
  | none => .error noFileName
  | some location =>
    match h.openDirectory location.directory with
    | .error f => .error f
    | .ok directory => h.openBeneath directory location.name

/-- Open a resource. -/
def «open» (h : Host) (path : String) : Opening BufferedFile :=
  Opening.of path ((h.openObject path).map fun object => { object })

/-- A file with what its object holds now on this host. -/
def view (h : Host) (file : BufferedFile) : FileView := ⟨file, h.tree.content file.object⟩

/-- Open a resource and transfer it to a device. -/
def run {δ : Type} [UnitDevice δ] (h : Host) (path : String) (device : δ) :
    Turn δ (Except Failure Report) :=
  ((h.open path).mapSource h.view).transfer device

end Host
end ConfinedRelay
