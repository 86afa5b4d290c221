import ConfinedRelay.Path
import ConfinedRelay.Tree

/-!
Walks through a tree. A path text is a list of moves: stay, go up, or go into a
name. A link that is met on the way is replaced by the moves of its target, at
most forty times in one walk.

A walk reaches anywhere or stays beneath the directory where it starts. One that
reaches anywhere follows absolute links from the root, and going up from the root
leaves it there. One that stays beneath refuses both.
-/
namespace ConfinedRelay

inductive Move where
  | stay
  | up
  | into (name : String)
  deriving DecidableEq, Repr

/-- Blank pieces still ask that the place so far be a directory. -/
def Move.ofPiece (piece : List Char) : Move :=
  if Path.isBlank piece then .stay
  else if piece = Path.parent then .up
  else .into (String.ofList piece)

def Path.moves (path : String) : List Move :=
  (Text.pieces '/' path.toList).map Move.ofPiece

inductive Reach where
  | anywhere
  | beneath
  deriving DecidableEq, Repr

namespace Walk

/-- The number of links that one walk may replace. -/
def linkLimit : Nat := 40

/-- The length in bytes of the longest name. -/
def nameLimit : Nat := 255

/-- The fault of a walk that is led out of the directory it must stay beneath. -/
def escape : Fault := .described .permissionDenied "a path led outside of the filesystem"

/-- Go from a place along the moves, with so many links to replace, where `look`
tells what is found at a place. -/
def walk (look : Place → Option Entry) (reach : Reach) :
    Nat → Place → List Move → Except Fault Place
  | _, place, [] => .ok place
  | links, place, move :: moves =>
    if look place ≠ some .directory then .error (.system .notDirectory)
    else
      match move with
      | .stay => walk look reach links place moves
      | .up =>
        match place, reach with
        | _ :: above, _ => walk look reach links above moves
        | [], .anywhere => walk look reach links [] moves
        | [], .beneath => .error escape
      | .into name =>
        if nameLimit < name.utf8ByteSize then .error (.system .nameTooLong)
        else
          match look (name :: place) with
          | none => .error (.system .noEntry)
          | some .directory | some (.file _) => walk look reach links (name :: place) moves
          | some (.link target) =>
            match links with
            | 0 => .error (.system .linkLoop)
            | links + 1 =>
              if Path.isAbsolute target then
                match reach with
                | .anywhere => walk look reach links [] (Path.moves target ++ moves)
                | .beneath => .error escape
              else walk look reach links place (Path.moves target ++ moves)
termination_by links _ moves => (links, moves.length)

end Walk

namespace Tree

/-- Follow a path from a place, or from the root if the path is absolute, through
links and upwards wherever it leads. -/
def resolve (t : Tree) (start : Place) (path : String) : Except Fault Place :=
  Walk.walk t.look .anywhere Walk.linkLimit (if Path.isAbsolute path then [] else start)
    (Path.moves path)

/-- Follow a name beneath a directory. Places are counted from the directory, and
nothing outside it is looked at. -/
def resolveBeneath (t : Tree) (directory : Place) (name : String) : Except Fault Place :=
  Walk.walk (fun place => t.look (place ++ directory)) .beneath Walk.linkLimit []
    [.into name]

end Tree
end ConfinedRelay
