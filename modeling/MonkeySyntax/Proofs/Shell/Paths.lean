import MonkeySyntax.Shell.Invocation

/-! Paths and the names that files are reported by. A path is cut at its slashes, and a file is
reported by what stands behind the last of them. Where a file can be read this is the name of an
entry: a path that ends with a slash, or with a step to a directory, leads to no file. -/
namespace MonkeySyntax.Shell

/-- The name is what stands behind the last slash of the path. -/
def EndsWith (path name : String) : Prop :=
  '/' ∉ name.toList ∧
    (path.toList = name.toList ∨ ∃ above, path.toList = above ++ '/' :: name.toList)

namespace FileTree

theorem namesAfter_split (rest name : List Char) (plain : '/' ∉ name) :
    ∃ front last, namesAfter name rest = front ++ [String.ofList last] ∧ '/' ∉ last ∧
      (name ++ rest = last ∨ ∃ above, name ++ rest = above ++ '/' :: last) := by
  fun_induction namesAfter name rest with
  | case1 name => exact ⟨[], name, rfl, plain, .inl (List.append_nil name)⟩
  | case2 name rest ih =>
    obtain ⟨front, last, names, plain', rfl | ⟨above, rfl⟩⟩ := ih List.not_mem_nil
    · exact ⟨_ :: front, _, by rw [names]; rfl, plain', .inr ⟨name, rfl⟩⟩
    · exact ⟨_ :: front, last, by rw [names]; rfl, plain', .inr ⟨name ++ '/' :: above, by simp⟩⟩
  | case3 name c rest other ih =>
    have plain' : '/' ∉ name ++ [c] := by
      simpa [plain] using fun same : '/' = c => other same.symm
    simpa using ih plain'

end FileTree

theorem endsWith_reportedName (path : String) : EndsWith path (reportedName path) := by
  obtain ⟨front, last, names, plain, split⟩ :=
    FileTree.namesAfter_split path.toList [] List.not_mem_nil
  have reported : reportedName path = String.ofList last := by
    rw [reportedName, FileTree.names, names]
    simp
  rw [EndsWith, reported, String.toList_ofList]
  exact ⟨plain, split⟩

theorem EndsWith.takeWhile {path name : String} (ends : EndsWith path name) :
    path.toList.reverse.takeWhile (· ≠ '/') = name.toList.reverse := by
  obtain ⟨plain, split⟩ := ends
  have within : ∀ c ∈ name.toList.reverse, decide (c ≠ '/') = true := by
    intro c member
    exact decide_eq_true fun slash => plain (slash ▸ List.mem_reverse.mp member)
  rcases split with whole | ⟨above, whole⟩
  · rw [whole, ← List.append_nil name.toList.reverse, List.takeWhile_append_of_pos within,
      List.takeWhile_nil]
  · rw [whole, List.reverse_append, List.reverse_cons, List.append_assoc,
      List.takeWhile_append_of_pos within]
    simp

theorem EndsWith.unique {path name other : String} (ends : EndsWith path name)
    (ends' : EndsWith path other) : name = other :=
  String.toList_inj.mp (List.reverse_inj.mp (ends.takeWhile.symm.trans ends'.takeWhile))

namespace FileTree

theorem walk_outside (tree : FileTree) (names : List String) (content : ByteArray) :
    tree.walk .outside names ≠ .ok (.file content) := by
  induction names with
  | nil => simp [walk]
  | cons name rest ih =>
    rw [walk]
    split
    · simp
    · exact ih

/-- A walk ends at a file only by a step to an entry of a directory. -/
theorem last_of_walk {tree : FileTree} {content : ByteArray} {names path : List String}
    (found : tree.walk (.directory path) names = .ok (.file content)) :
    ∃ last, names.getLast? = some last ∧ last ∉ ["", ".", ".."] := by
  induction names generalizing path with
  | nil => simp [walk] at found
  | cons name rest ih =>
    have behind {path : List String} (walked : tree.walk (.directory path) rest =
        .ok (.file content)) :
        ∃ last, (name :: rest).getLast? = some last ∧ last ∉ ["", ".", ".."] := by
      obtain ⟨last, ends, proper⟩ := ih walked
      exact ⟨last, by simp [List.getLast?_cons, ends], proper⟩
    rw [walk] at found
    split at found
    · exact behind found
    · next step =>
      split at found
      · split at found
        · exact absurd found (tree.walk_outside rest content)
        · exact behind found
      · next down =>
        split at found
        · cases found
        · next node there =>
          cases rest with
          | nil => exact ⟨name, rfl, by simpa [isStep, down] using step⟩
          | cons _ _ =>
            cases node with
            | file _ => cases found
            | directory _ => exact behind found
            | outside => exact absurd found (tree.walk_outside _ content)

theorem reportedName_of_read {tree : FileTree} {path : String} {content : ByteArray}
    (found : tree.read path = .ok content) : reportedName path ∉ ["", ".", ".."] := by
  have walked : tree.walk (.directory []) (names path) = .ok (.file content) := by
    rw [read] at found
    split at found
    · next reached =>
      cases found
      split at reached
      · exact absurd reached (tree.walk_outside _ _)
      · exact reached
    · cases found
    · cases found
  obtain ⟨last, ends, proper⟩ := last_of_walk walked
  rw [reportedName, List.getLastD_eq_getLast?, ends]
  exact proper

end FileTree

end MonkeySyntax.Shell
