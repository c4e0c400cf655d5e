import CallTimeline.Proofs.FileTree.Writing

namespace CallTimeline

namespace Path

variable {name : String} (proper : IsName name)

include proper

theorem IsName.segments : segments name = [name] := by
  have whole : ∀ part ∈ [name], '/' ∉ part.toList := by simpa using proper.whole
  have joined : "/".intercalate [name] = name := rfl
  have parts := segments_intercalate whole (List.cons_ne_nil name [])
  rwa [joined] at parts

theorem IsName.relative : isAbsolute name = false := by
  rw [isAbsolute, beq_eq_false_iff_ne]
  exact fun first => proper.whole (List.mem_of_head? first)

theorem IsName.ofText : PlainPath.ofText name = { anchor := "", names := [name] } := by
  have anchor : anchor name = "" := by
    unfold Path.anchor
    have whole := proper.whole
    split <;> simp_all
  rw [PlainPath.ofText, anchor, proper.segments]
  exact congrArg (PlainPath.mk "") (filter_of_isName (by simpa using proper))

theorem IsName.text_child : ((PlainPath.ofText ".").child name).text = name := by
  have here : PlainPath.ofText "." = { anchor := "", names := [] } := by decide +kernel
  have nonempty : name.isEmpty = false := by simpa using proper.nonempty
  rw [here, PlainPath.child, proper.ofText]
  simp [PlainPath.text, nonempty]

end Path

namespace FileTree

variable {tree : FileTree} {entries : List (String × Node)} {name : String}
  (inside : tree.root.at? tree.workingDirectory = some (.dir entries)) (proper : Path.IsName name)

include inside proper

theorem Takes.place_eq {place : List String} (takes : tree.Takes name place)
    (unlinked : ∀ target, entries.lookup name ≠ some (.link target)) :
    place = tree.workingDirectory ++ [name] := by
  obtain ⟨led, located, rfl, -⟩ := takes
  obtain ⟨-, leads⟩ := locate_eq_ok.mp located
  rw [proper.segments, proper.relative, if_neg Bool.false_ne_true, follow, inside] at leads
  simp only [beq_eq_false_iff_ne.mpr proper.nonempty, beq_eq_false_iff_ne.mpr proper.notHere,
    beq_eq_false_iff_ne.mpr proper.notAbove, Bool.or_self, Bool.false_eq_true, if_false] at leads
  split at leads
  case isTrue => cases leads
  case isFalse =>
    split at leads
    case h_1 =>
      cases leads
      rfl
    case h_2 target link => exact absurd link (unlinked target)
    case h_3 =>
      rw [follow] at leads
      cases leads
      rfl

theorem takes_of_free (usable : name.contains '\x00' = false) (short : name.utf8ByteSize ≤ maxName)
    (free : entries.lookup name = none) : tree.Takes name (tree.workingDirectory ++ [name]) := by
  refine ⟨.free _ name, locate_eq_ok.mpr ⟨⟨usable, ?_, short.trans_lt (by decide)⟩, ?_⟩, rfl, trivial⟩
  · simpa using proper.nonempty
  · rw [proper.segments, proper.relative, if_neg Bool.false_ne_true]
    exact follow_free inside (by simp [proper.nonempty, proper.notHere]) (by simp [proper.notAbove])
      (Nat.not_lt.mpr short) free

theorem read_of_lookup {bytes : List UInt8} (usable : name.contains '\x00' = false)
    (short : name.utf8ByteSize ≤ maxName) (entry : entries.lookup name = some (.file bytes)) :
    tree.read name = .ok bytes := by
  refine read_eq_ok.mpr ⟨_, locate_eq_ok.mpr ⟨⟨usable, ?_, short.trans_lt (by decide)⟩, ?_⟩,
    (Node.at?_concat inside name).trans entry⟩
  · simpa using proper.nonempty
  · rw [proper.segments, proper.relative, if_neg Bool.false_ne_true,
      follow_below inside (by simp [proper.nonempty, proper.notHere]) (by simp [proper.notAbove])
        (Nat.not_lt.mpr short) entry nofun, follow]

omit proper in
theorem locate_here (followLast : Bool) :
    tree.locate followLast "." = .ok (.found tree.workingDirectory) := by
  have segments : Path.segments "." = ["."] := by decide +kernel
  have relative : Path.isAbsolute "." = false := by decide +kernel
  refine locate_eq_ok.mpr ⟨⟨by cbv, by decide +kernel, by decide +kernel⟩, ?_⟩
  rw [segments, relative, if_neg Bool.false_ne_true, follow_idle inside (by decide), follow]

omit proper in
theorem makeDirectories_here (above : Nat) :
    tree.makeDirectories above { anchor := "", names := [] } = (tree, .ok ()) := by
  have text : PlainPath.text { anchor := "", names := [] } = "." := by decide +kernel
  have there : tree.makeDirectory "." = .error (.file .exists ".") := by
    rw [makeDirectory, locate_here inside]
    rfl
  have kept : tree.isDirectory "." = true := by
    rw [isDirectory, locate_here inside]
    simp only [inside]
  rw [makeDirectories.eq_def, text, there]
  simp only [keepDirectory, kept, if_true]
  rfl

end FileTree

end CallTimeline
