import Mathlib.Data.List.TakeWhile
import SourceLoader.Proofs.Path.Canonical

/-!
Which operations on the text of a path keep it absolute. Each of them is absolute exactly when the
path that it begins with is, so a path that is anchored at the root stays there whatever the links
on the way say.
-/

namespace SourceLoader.Path

theorem isAbsolute_iff {path : Text} : isAbsolute path = true ↔ ∃ rest, path = '/' :: rest := by
  cases path <;> simp [isAbsolute]

theorem isAbsolute_append_left {front : Text} (h : front ≠ []) (back : Text) :
    isAbsolute (front ++ back) = isAbsolute front := by
  cases front with
  | nil => exact absurd rfl h
  | cons c front => rfl

theorem isAbsolute_eq_of_isPrefix {front path : Text} (h : front <+: path) (hne : front ≠ []) :
    isAbsolute front = isAbsolute path := by
  obtain ⟨back, rfl⟩ := h
  exact (isAbsolute_append_left hne back).symm

theorem isAbsolute_append_of_isAbsolute {path : Text} (h : isAbsolute path = true)
    (directory : Text) : append directory path = path := by
  rw [append, if_pos h]

theorem isAbsolute_append {path : Text} (h : isAbsolute path = false) (directory : Text) :
    isAbsolute (append directory path) = isAbsolute directory := by
  rw [append, if_neg (by simp [h])]
  cases directory with
  | nil => simpa [isAbsolute] using h
  | cons c directory =>
      split
      · exact isAbsolute_append_left (by simp) path
      · exact isAbsolute_append_left (by simp) ('/' :: path)

theorem isAbsolute_append_of_left {directory : Text} (h : isAbsolute directory = true)
    (path : Text) : isAbsolute (append directory path) = true := by
  cases hpath : isAbsolute path with
  | true => rw [isAbsolute_append_of_isAbsolute hpath, hpath]
  | false => rw [isAbsolute_append hpath, h]

theorem trimSlashes_isPrefix (path : Text) : trimSlashes path <+: path := by
  rw [← List.reverse_suffix, trimSlashes, List.reverse_reverse]
  exact List.dropWhile_suffix _

theorem exists_last_slash {path : Text} (h : '/' ∈ path) :
    ∃ front name, path = front ++ '/' :: name ∧ '/' ∉ name := by
  obtain ⟨front, back, hsplit, hfront⟩ := List.eq_append_cons_of_mem (List.mem_reverse.2 h)
  refine ⟨back.reverse, front.reverse, ?_, by simpa using hfront⟩
  rw [← List.reverse_reverse path, hsplit]
  simp

theorem splitLast_of_not_mem {path : Text} (h : '/' ∉ path) : splitLast path = ([], path) := by
  have hrun : path.reverse.takeWhile (· ≠ '/') = path.reverse := by
    rw [List.takeWhile_eq_self_iff]
    intro c hc
    have hne : c ≠ '/' := fun he => h (he ▸ List.mem_reverse.1 hc)
    simpa using hne
  simp only [splitLast, hrun]
  simp

theorem isAbsolute_splitLast (path : Text) :
    isAbsolute (splitLast path).1 = isAbsolute path := by
  by_cases hslash : '/' ∈ path
  · obtain ⟨front, name, rfl, hname⟩ := exists_last_slash hslash
    have hfront : isAbsolute (front ++ ['/']) = isAbsolute (front ++ '/' :: name) :=
      isAbsolute_eq_of_isPrefix ⟨name, by simp⟩ (by simp)
    rw [splitLast_append front hname]
    split
    · exact hfront
    · next htrim => exact (isAbsolute_eq_of_isPrefix (trimSlashes_isPrefix _) htrim).trans hfront
  · have hpath : isAbsolute path = false := by
      cases path with
      | nil => rfl
      | cons c path =>
          have hc : c ≠ '/' := fun he => hslash (by simp [he])
          simp [isAbsolute, hc]
    rw [splitLast_of_not_mem hslash, hpath]
    rfl

theorem isAbsolute_above (path : Text) : isAbsolute (Host.above path) = isAbsolute path := by
  unfold Host.above
  split
  · next h => simp [h, isAbsolute, dotDot]
  · have hdirectory := isAbsolute_splitLast path
    split
    next directory name hsplit =>
    rw [hsplit] at hdirectory
    split
    · rw [isAbsolute_append rfl, isAbsolute_append rfl, hdirectory]
    · exact hdirectory

theorem mem_pushComponent {rooted : Bool} {component c : Text} {collected : List Text}
    (h : c ∈ pushComponent rooted collected component) :
    c ∈ collected ∨ c = component ∧ c ≠ [] := by
  by_cases hskip : component = [] ∨ component = dot
  · simp only [pushComponent, if_pos hskip] at h
    exact .inl h
  · have hne : component ≠ [] := fun he => hskip (.inl he)
    have hadded : c ∈ component :: collected → c ∈ collected ∨ c = component ∧ c ≠ [] := by
      intro h
      rcases List.mem_cons.1 h with rfl | h
      · exact .inr ⟨rfl, hne⟩
      · exact .inl h
    simp only [pushComponent, if_neg hskip] at h
    split at h
    · split at h
      · split at h
        · exact .inl h
        · exact hadded h
      · split at h
        · exact hadded h
        · exact .inl (List.mem_cons_of_mem _ h)
    · exact hadded h

theorem mem_foldl_pushComponent {rooted : Bool} {components collected : List Text} {c : Text}
    (h : c ∈ components.foldl (pushComponent rooted) collected) :
    c ∈ collected ∨ c ∈ components ∧ c ≠ [] := by
  induction components generalizing collected with
  | nil => exact .inl h
  | cons component components ih =>
      rcases ih h with h | ⟨h, hne⟩
      · rcases mem_pushComponent h with h | ⟨rfl, hne⟩
        · exact .inl h
        · exact .inr ⟨by simp, hne⟩
      · exact .inr ⟨List.mem_cons_of_mem _ h, hne⟩

theorem isAbsolute_join {pieces : List Text} (h : ∀ piece ∈ pieces, piece ≠ [] ∧ '/' ∉ piece) :
    isAbsolute (Text.join ['/'] pieces) = false := by
  cases pieces with
  | nil => rfl
  | cons piece pieces =>
      obtain ⟨hne, hslash⟩ := h piece (by simp)
      obtain ⟨c, piece, rfl⟩ := List.exists_cons_of_ne_nil hne
      have hc : c ≠ '/' := fun he => hslash (by simp [he])
      cases pieces <;> simp [isAbsolute, Text.join, hc]

theorem leadingSlashes_of_isAbsolute {path : Text} (h : isAbsolute path = true) :
    ∃ rest, leadingSlashes path = '/' :: rest := by
  obtain ⟨rest, rfl⟩ := isAbsolute_iff.1 h
  unfold leadingSlashes
  split <;> simp_all

theorem leadingSlashes_of_not_isAbsolute {path : Text} (h : isAbsolute path = false) :
    leadingSlashes path = [] := by
  cases path with
  | nil => rfl
  | cons c path =>
      have hc : c ≠ '/' := by simpa [isAbsolute] using h
      unfold leadingSlashes
      split <;> simp_all

theorem isAbsolute_normalize (path : Text) : isAbsolute (normalize path) = isAbsolute path := by
  cases h : isAbsolute path with
  | true =>
      obtain ⟨rest, hlead⟩ := leadingSlashes_of_isAbsolute h
      simp [normalize, hlead, isAbsolute]
  | false =>
      rw [normalize, leadingSlashes_of_not_isAbsolute h]
      simp only [List.nil_append]
      split
      · rfl
      · refine isAbsolute_join fun piece hpiece => ?_
        rcases mem_foldl_pushComponent (List.mem_reverse.1 hpiece) with hnil | ⟨hmem, hne⟩
        · simp at hnil
        · exact ⟨hne, Text.not_mem_of_mem_splitOn hmem⟩

theorem exists_eq_rootName_append {path : Text} (h : rootName .posix path ≠ []) :
    ∃ rest, path = rootName .posix path ++ rest ∧ (rest = [] ∨ isAbsolute rest = true) := by
  match path with
  | [] | [_] | [_, _] => exact absurd rfl h
  | a :: b :: c :: rest =>
    by_cases hnet : Platform.posix.isSeparator a = true ∧ b = a ∧
        ¬ Platform.posix.isSeparator c = true
    · rw [rootName, if_pos hnet, takeWhile_isSeparator_posix]
      refine ⟨(c :: rest).dropWhile (· ≠ '/'), by simp, ?_⟩
      by_cases hnil : (c :: rest).dropWhile (· ≠ '/') = []
      · exact .inl hnil
      · have hhead := List.head_dropWhile_not (· ≠ '/') hnil
        refine .inr ?_
        rw [isAbsolute, List.head?_eq_some_head hnil]
        simpa using hhead
    · rw [rootName, if_neg hnet] at h
      exact absurd rfl h

theorem rootName_isPrefix (path : Text) : rootName .posix path <+: path := by
  by_cases h : rootName .posix path = []
  · rw [h]
    exact List.nil_prefix
  · obtain ⟨rest, hsplit, -⟩ := exists_eq_rootName_append h
    exact ⟨rest, hsplit.symm⟩

theorem IsRootName.isAbsolute {name : Text} (h : IsRootName name) (hne : name ≠ []) :
    isAbsolute name = true := by
  rcases h with rfl | ⟨host, -, -, rfl⟩
  · exact absurd rfl hne
  · rfl

theorem anchor_cases (workDir path : Text) :
    anchor .posix workDir path = workDir ∨
      isAbsolute path = true ∧ anchor .posix workDir path = rootName .posix workDir ++ path ∨
      rootName .posix path ≠ [] ∧ anchor .posix workDir path = path ∨
      rootName .posix path ≠ [] ∧ anchor .posix workDir path =
        rootName .posix path ++ workDir.drop (rootName .posix workDir).length ++
          '/' :: path.drop (rootName .posix path).length ∨
      anchor .posix workDir path = trimSlashes workDir ++ '/' :: path := by
  simp only [anchor, Platform.generic_posix]
  by_cases hpath : path = []
  · exact .inl (if_pos hpath)
  · rw [if_neg hpath]
    by_cases hname : rootName .posix path = []
    · by_cases habs : isAbsolute path = true
      · simp [hname, habs]
      · simp [hname, habs]
    · simp only [hname, ne_eq, not_false_eq_true, if_true, if_false]
      split
      · simp
      · simp

theorem isAbsolute_anchor {workDir : Text} (h : isAbsolute workDir = true) (path : Text) :
    isAbsolute (anchor .posix workDir path) = true := by
  have hroot : ∀ {p : Text}, rootName .posix p ≠ [] → isAbsolute (rootName .posix p) = true :=
    fun hne => (isRootName_rootName _).isAbsolute hne
  rcases anchor_cases workDir path with ha | ⟨habs, ha⟩ | ⟨hname, ha⟩ | ⟨hname, ha⟩ | ha
  · rw [ha, h]
  · rw [ha]
    by_cases hwork : rootName .posix workDir = []
    · rw [hwork]
      exact habs
    · rw [isAbsolute_append_left hwork, hroot hwork]
  · rw [ha, ← isAbsolute_eq_of_isPrefix (rootName_isPrefix path) hname, hroot hname]
  · rw [ha, List.append_assoc, isAbsolute_append_left hname, hroot hname]
  · rw [ha]
    by_cases htrim : trimSlashes workDir = []
    · rw [htrim]
      rfl
    · rw [isAbsolute_append_left htrim, isAbsolute_eq_of_isPrefix (trimSlashes_isPrefix _) htrim, h]

theorem rooted_eq (path : Text) :
    (split .posix path).rooted =
      isAbsolute (path.drop (rootName .posix path).length) := rfl

theorem isAbsolute_of_rooted {path : Text} (h : (split .posix path).rooted = true) :
    isAbsolute path = true := by
  by_cases hname : rootName .posix path = []
  · simpa [rooted_eq, hname] using h
  · rw [← isAbsolute_eq_of_isPrefix (rootName_isPrefix path) hname]
    exact (isRootName_rootName path).isAbsolute hname

/-- An absolute path has a root unless it is a root name and nothing more. -/
theorem rooted_iff {path : Text} (h : isAbsolute path = true) :
    (split .posix path).rooted = true ↔ ¬ IsRootName path := by
  have hne : path ≠ [] := by
    rintro rfl
    cases h
  rw [rooted_eq]
  by_cases hname : rootName .posix path = []
  · have hroot : ¬ IsRootName path := fun hroot => hne (hroot.rootName_eq ▸ hname)
    simp [hname, h, hroot]
  · obtain ⟨rest, hsplit, hrest⟩ := exists_eq_rootName_append hname
    have hdrop : (rootName .posix path ++ rest).drop (rootName .posix path).length = rest :=
      List.drop_left
    rw [← hsplit] at hdrop
    rw [hdrop]
    -- Whatever follows the root name begins with a slash, which is the root.
    rcases hrest with rfl | hrest
    · have hroot : IsRootName path := by
        rw [hsplit, List.append_nil]
        exact isRootName_rootName path
      simp [hroot, isAbsolute]
    · have hroot : ¬ IsRootName path := by
        intro hroot
        rw [hroot.rootName_eq] at hsplit
        obtain rfl : rest = [] := by simpa using hsplit
        cases hrest
      simp [hroot, hrest]

end SourceLoader.Path
