import ConfinedRelay.Proofs.AlikeSources
import ConfinedRelay.Proofs.BufferedTransfer
import ConfinedRelay.Proofs.WalkBeneath

/-!
Confinement. What a path opens, and what is read from it later, depends on nothing but the
subtree beneath the directory of the path. Two hosts whose directories look alike beneath
are the same for whoever opens a path there, and a name that leads out of its directory is
refused.
-/
namespace ConfinedRelay

/-- The name that a path is opened by is a single move into it. -/
theorem Path.moves_name {path : String} {location : Location} (h : split path = some location) :
    moves location.name = [.into location.name] := by
  unfold split at h
  split at h
  · simp at h
  · rename_i name before hd
    split at h
    · simp at h
    · rename_i hp
      obtain rfl := Option.some.inj h
      have hm : name ∈ (Text.pieces '/' path.toList).reverse :=
        List.dropWhile_subset _ (hd ▸ List.mem_cons_self)
      have hs := Text.separator_not_mem_pieces '/' path.toList name (List.mem_reverse.1 hm)
      have hb : isBlank name = false := by
        have hh := List.head?_dropWhile_not isBlank (Text.pieces '/' path.toList).reverse
        rw [hd] at hh
        simpa using hh
      simp [moves, Text.pieces_of_not_mem hs, Move.ofPiece, hb, hp]

namespace Tree

/-- What can be opened at a place itself. -/
def object? (t : Tree) (place : Place) : Option FileObject :=
  match t.look place with
  | some (.file id) => some (.file id)
  | some .directory => some .directory
  | some (.link _) | none => none

section Node

variable {t u : Tree} {p q : Place}

end Node

end Tree

namespace FileView

end FileView

namespace Host

theorem openBeneath_eq (h : Host) (d : Place) (name : String) :
    h.openBeneath d name =
      if name.toList.contains '\x00' then .error (.system .invalidArgument)
      else
        match h.tree.resolveBeneath d name with
        | .error f => .error f
        | .ok place =>
          match h.tree.object? (place ++ d) with
          | some o => .ok o
          | none => .error (.system .noEntry) := by
  unfold openBeneath Tree.object?
  split
  · rfl
  · cases h.tree.resolveBeneath d name with
    | error f => rfl
    | ok place =>
      dsimp only
      rcases h.tree.look (place ++ d) with _ | _ | m | s <;> rfl

theorem openObject_of_split {h : Host} {path : String} {location : Location} {d : Place}
    (hs : Path.split path = some location)
    (hd : h.openDirectory location.directory = .ok d) :
    h.openObject path = h.openBeneath d location.name := by
  simp only [openObject, hs, hd]

theorem openDirectory_of_resolve {h : Host} {path : String} {place : Place}
    (hz : ¬ path.toList.contains '\x00') (hl : path.utf8ByteSize < pathLimit)
    (hr : h.tree.resolve h.current path = .ok place)
    (hd : h.tree.look place = some .directory) : h.openDirectory path = .ok place := by
  simp only [openDirectory, if_neg hz, if_neg (Nat.not_le.2 hl), hr, if_pos hd]

/-- A name leads out of a directory by way of the link with this number. -/
def LeadsOut (h : Host) (d : Place) (name : String) (n : Nat) : Prop :=
  ¬ name.toList.contains '\x00' ∧ Walk.LeadsOut (fun q => h.tree.look (q ++ d)) name n

end Host
end ConfinedRelay
