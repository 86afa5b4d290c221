import ConfinedRelay.Text.Pieces

/-!
Paths as text. A path is cut at its slashes. Pieces that are empty or a single
dot name nothing, the others are the path's components. A path with a last
component other than `..` is split there into a directory and a name.
-/
namespace ConfinedRelay

/-- Where a resource is: a directory, and a name to be opened beneath it. -/
structure Location where
  directory : String
  name : String
  deriving DecidableEq, Repr

namespace Path

def isAbsolute (path : String) : Bool := path.toList.head? == some '/'

/-- The pieces that name nothing. -/
def isBlank (piece : List Char) : Bool := piece == [] || piece == ['.']

def parent : List Char := ['.', '.']

def components (path : String) : List (List Char) :=
  (Text.pieces '/' path.toList).filter fun piece => !isBlank piece

/-- Whether a path begins with a single dot as a piece. -/
def isDotted (path : String) : Bool :=
  (Text.pieces '/' path.toList).head? == some ['.']

/-- Two paths are the same if they have the same components and begin alike.
Repeated and trailing slashes and later dots make no difference. -/
def Same (p q : String) : Prop :=
  isAbsolute p = isAbsolute q ∧ isDotted p = isDotted q ∧ components p = components q

instance (p q : String) : Decidable (Same p q) :=
  inferInstanceAs (Decidable (_ ∧ _ ∧ _))

/-- The text of a directory from its pieces. Where no piece is left the directory
is the root or the current one. -/
def directoryText (absolute : Bool) : List (List Char) → String
  | [] => if absolute then "/" else "."
  | pieces => String.ofList (Text.glue '/' pieces)

/-- Blank pieces on either side of the last component belong to neither part. -/
def split (path : String) : Option Location :=
  match (Text.pieces '/' path.toList).reverse.dropWhile isBlank with
  | [] => none
  | name :: before =>
    if name = parent then none
    else
      let directory := directoryText (isAbsolute path) (before.dropWhile isBlank).reverse
      some ⟨directory, String.ofList name⟩

end Path
end ConfinedRelay
