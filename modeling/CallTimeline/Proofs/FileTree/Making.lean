import CallTimeline.Proofs.FileTree.Writing

namespace CallTimeline.FileTree

def SameFiles (before after : FileTree) : Prop :=
  ∀ place bytes, after.HasFile place bytes ↔ before.HasFile place bytes

theorem SameFiles.refl (tree : FileTree) : SameFiles tree tree :=
  fun _ _ => Iff.rfl

theorem SameFiles.trans {before between after : FileTree} (first : SameFiles before between)
    (second : SameFiles between after) : SameFiles before after :=
  fun place bytes => (second place bytes).trans (first place bytes)

variable {tree : FileTree}

theorem sameFiles_makeDirectory {path : String} {after : FileTree}
    (makes : tree.makeDirectory path = .ok after) : SameFiles tree after := by
  obtain ⟨led, located, makes⟩ := of_bind_ok makes
  cases led with
  | found => cases makes
  | free directory name =>
      cases makes
      obtain ⟨entries, inside, none⟩ := free_of_follow (locate_eq_ok.mp located).2
      have nothing : tree.root.at? (directory ++ [name]) = .none := by
        rw [Node.at?_concat inside, none]
      intro place bytes
      by_cases here : place = directory ++ [name]
      · subst here
        rw [HasFile, HasFile, Node.at?_put_append _ name inside, nothing]
        simp
      · have held : ∀ node, tree.root.at? (directory ++ [name]) = some node → node.IsLeaf := by
          intro node held
          rw [nothing] at held
          cases held
        have elsewhere := Node.bare_at?_put_leaf Node.isLeaf_dir held here
        rw [HasFile, HasFile, ← Node.map_bare_eq_file, elsewhere, Node.map_bare_eq_file]

theorem sameFiles_makeDirectories (above : Nat) (path : PlainPath) :
    SameFiles tree (tree.makeDirectories above path).1 := by
  induction above generalizing path with
  | zero =>
      rw [makeDirectories.eq_def]
      split
      case h_1 after makes => exact sameFiles_makeDirectory makes
      case h_2 => exact .refl tree
      case h_3 => exact .refl tree
  | succ above ih =>
      rw [makeDirectories.eq_def]
      split
      case h_1 after makes => exact sameFiles_makeDirectory makes
      case h_3 => exact .refl tree
      case h_2 =>
        have parent := ih path.parent
        simp only
        split
        case h_1 between fault makes =>
          rw [makes] at parent
          exact parent
        case h_2 between makes =>
          rw [makes] at parent
          split
          case h_1 after makes => exact parent.trans (sameFiles_makeDirectory makes)
          case h_2 fault fails => split <;> exact parent

end CallTimeline.FileTree
