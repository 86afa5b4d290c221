import ConfinedRelay.Walk

/-!
A host is a tree with a current directory, where relative paths start. Edits
prepare it: they make the directories that they need, follow links, and leave the
host as it is where they cannot be carried out.
-/
namespace ConfinedRelay

structure Host where
  tree : Tree := {}
  current : Place := []
  deriving Repr

inductive Edit where
  | write (path : String) (bytes : List UInt8)
  | append (path : String) (bytes : List UInt8)
  | makeDirectory (path : String)
  | link (path target : String)
  | remove (path : String)
  deriving Repr

namespace Tree

/-- Go along the moves and make the directories that are missing. -/
def makeWay (t : Tree) (place : Place) : List Move → Option (Tree × Place)
  | [] => some (t, place)
  | .stay :: moves => t.makeWay place moves
  | .up :: moves => t.makeWay place.tail moves
  | .into name :: moves =>
    match t.look (name :: place) with
    | none => (t.put (name :: place) .directory).makeWay (name :: place) moves
    | some .directory => t.makeWay (name :: place) moves
    | some (.file _) => none
    | some (.link target) =>
      match t.resolve place target with
      | .ok there => if t.look there = some .directory then t.makeWay there moves else none
      | .error _ => none

/-- The place that a name in a directory stands for once links are followed. It
may still be empty. -/
def destination (t : Tree) : Nat → Place → String → Option Place
  | links, directory, name =>
    match t.look (name :: directory) with
    | some (.link target) =>
      match links, Path.split target with
      | links + 1, some location =>
        match t.resolve directory location.directory with
        | .ok there => t.destination links there location.name
        | .error _ => none
      | _, _ => none
    | _ => some (name :: directory)

end Tree

namespace Host

/-- A host with an empty current directory, two levels below the root. Beside it
there is only the empty device `/dev/null`. -/
def fresh : Host where
  tree := ((((({} : Tree).put ["dev"] .directory).create ["null", "dev"] []).put ["tmp"]
    .directory).put ["work", "tmp"] .directory)
  current := ["work", "tmp"]

def start (h : Host) (path : String) : Place :=
  if Path.isAbsolute path then [] else h.current

/-- The directory and the name of a path, with the directory made where missing. -/
def prepare (h : Host) (path : String) : Option (Tree × Place × String) := do
  let location ← Path.split path
  let (tree, place) ← h.tree.makeWay (h.start path) (Path.moves location.directory)
  some (tree, place, location.name)

/-- Change the contents of a file, or make the file from no contents. -/
def change (h : Host) (path : String) (f : List UInt8 → List UInt8) : Host :=
  match h.prepare path with
  | none => h
  | some (tree, directory, name) =>
    match tree.destination Walk.linkLimit directory name with
    | none => h
    | some place =>
      match tree.look place with
      | none => { h with tree := tree.create place (f []) }
      | some (.file id) => { h with tree := tree.update id f }
      | some _ => h

def edit (h : Host) : Edit → Host
  | .write path bytes => h.change path fun _ => bytes
  | .append path bytes => h.change path (· ++ bytes)
  | .makeDirectory path =>
    match h.tree.makeWay (h.start path) (Path.moves path) with
    | some (tree, _) => { h with tree }
    | none => h
  | .link path target =>
    match h.prepare path with
    | some (tree, directory, name) =>
      match tree.look (name :: directory) with
      | none => { h with tree := tree.put (name :: directory) (.link target) }
      | some _ => h
    | none => h
  | .remove path =>
    match Path.split path with
    | none => h
    | some location =>
      match h.tree.resolve (h.start path) location.directory with
      | .ok directory => { h with tree := h.tree.erase (location.name :: directory) }
      | .error _ => h

end Host
end ConfinedRelay
