import ConfinedRelay.Fault

/-!
A tree of directories, files and symbolic links. A place in the tree is the list
of names that lead there, the innermost first, so the root is the empty place and
the places beneath a directory end in its own. A file's contents are kept apart
from its name, under a number: they outlive the name, and whoever holds the
number still reads them.
-/
namespace ConfinedRelay

/-- The names on the way from the root, innermost first. -/
abbrev Place := List String

inductive Entry where
  | directory
  | file (id : Nat)
  | link (target : String)
  deriving DecidableEq, Repr

structure Tree where
  entries : List (Place × Entry) := []
  files : Array (List UInt8) := #[]
  deriving Repr

namespace Tree

/-- What is found at a place. The newest entry for a place counts. -/
def look (t : Tree) : Place → Option Entry
  | [] => some .directory
  | name :: above => t.entries.lookup (name :: above)

/-- The contents of a file, whether or not it still has a name. -/
def contents (t : Tree) (id : Nat) : List UInt8 := t.files[id]?.getD []

def put (t : Tree) (place : Place) (e : Entry) : Tree :=
  { t with entries := (place, e) :: t.entries }

/-- Take away a place and everything beneath it. -/
def erase (t : Tree) (place : Place) : Tree :=
  { t with entries := t.entries.filter fun e => !place.isSuffixOf e.1 }

/-- Put a new file with these contents at a place. -/
def create (t : Tree) (place : Place) (bytes : List UInt8) : Tree :=
  { t.put place (.file t.files.size) with files := t.files.push bytes }

/-- Change the contents of a file, for everyone who holds it. -/
def update (t : Tree) (id : Nat) (change : List UInt8 → List UInt8) : Tree :=
  { t with files := t.files.modify id change }

@[simp] theorem look_nil (t : Tree) : t.look [] = some .directory := rfl

@[simp] theorem contents_put (t : Tree) (place : Place) (e : Entry) (id : Nat) :
    (t.put place e).contents id = t.contents id := rfl

@[simp] theorem contents_erase (t : Tree) (place : Place) (id : Nat) :
    (t.erase place).contents id = t.contents id := rfl

end Tree
end ConfinedRelay
