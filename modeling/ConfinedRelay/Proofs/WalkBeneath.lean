import ConfinedRelay.Proofs.WalkSteps

/-!
What a walk looks at. A walk takes one step for each move, and each step asks for nothing
but the kinds of what is found and for the texts of links. A walk that stays beneath its
directory is refused as soon as it is led out, by an absolute link or by going up from
where it began. The links that it meets are counted up to the limit.
-/
namespace ConfinedRelay

/-- The same kind of entry, whatever the number of a file. -/
inductive Entry.Alike : Option Entry → Option Entry → Prop where
  | none : Alike none none
  | directory : Alike (some .directory) (some .directory)
  | file (m n : Nat) : Alike (some (.file m)) (some (.file n))
  | link (target : String) : Alike (some (.link target)) (some (.link target))

namespace Entry.Alike

variable {a b : Option Entry}

end Entry.Alike

namespace Walk

/-- How a walk that stays beneath its directory goes on from a name, if no link is one too
many: the number of links that it has met, where it stands, and the moves to come. -/
inductive Passes (look : Place → Option Entry) (start : String) : Nat → Place → List Move → Prop
  | start : Passes look start 0 [] [.into start]
  | stay {n : Nat} {place : Place} {moves : List Move}
      (before : Passes look start n place (.stay :: moves))
      (directory : look place = some .directory) :
      Passes look start n place moves
  | up {n : Nat} {name : String} {place : Place} {moves : List Move}
      (before : Passes look start n (name :: place) (.up :: moves))
      (directory : look (name :: place) = some .directory) :
      Passes look start n place moves
  | directory {n : Nat} {name : String} {place : Place} {moves : List Move}
      (before : Passes look start n place (.into name :: moves))
      (directory : look place = some .directory) (short : name.utf8ByteSize ≤ nameLimit)
      (found : look (name :: place) = some .directory) :
      Passes look start n (name :: place) moves
  | file {n id : Nat} {name : String} {place : Place} {moves : List Move}
      (before : Passes look start n place (.into name :: moves))
      (directory : look place = some .directory) (short : name.utf8ByteSize ≤ nameLimit)
      (found : look (name :: place) = some (.file id)) :
      Passes look start n (name :: place) moves
  | link {n : Nat} {name target : String} {place : Place} {moves : List Move}
      (before : Passes look start n place (.into name :: moves))
      (directory : look place = some .directory) (short : name.utf8ByteSize ≤ nameLimit)
      (found : look (name :: place) = some (.link target))
      (relative : Path.isAbsolute target = false) :
      Passes look start (n + 1) place (Path.moves target ++ moves)

/-- A walk that meets its n-th link to be led out of its directory: the link is absolute,
or the moves it has brought go up from the directory. They might come back. -/
inductive LeadsOut (look : Place → Option Entry) (start : String) : Nat → Prop
  | absolute {n : Nat} {name target : String} {place : Place} {moves : List Move}
      (before : Passes look start n place (.into name :: moves))
      (directory : look place = some .directory) (short : name.utf8ByteSize ≤ nameLimit)
      (found : look (name :: place) = some (.link target))
      (absolute : Path.isAbsolute target = true) :
      LeadsOut look start (n + 1)
  | climbing {n : Nat} {moves : List Move}
      (before : Passes look start n [] (.up :: moves))
      (directory : look [] = some .directory) :
      LeadsOut look start n

end Walk
end ConfinedRelay
