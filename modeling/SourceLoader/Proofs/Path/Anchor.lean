import Mathlib.Data.List.Induction
import SourceLoader.Proofs.Path.Absolute

/-!
What a path becomes when it is seen from a working directory. There are four kinds of paths, and
each is anchored by an equation of its own: the empty path, a path with a root, a root name with
nothing behind it, and a path that goes on from the working directory. A network root at the front
is never lost, and under a working directory that lies below the one root of the host every path
gets a root.

Names with slashes between them, as a path of their own. Such a path is seen from a place as the
path of the names behind that place, and it is what is left of the longer path below the place.
-/

namespace SourceLoader.Path

open Location

/-- Whether a path begins with one slash and not with two. -/
def HasOneSlash (path : Text) : Prop := ∃ rest, path = '/' :: rest ∧ rest.head? ≠ some '/'

theorem HasOneSlash.isAbsolute {path : Text} (h : HasOneSlash path) : isAbsolute path = true := by
  obtain ⟨rest, rfl, -⟩ := h
  rfl

theorem HasOneSlash.rootName_eq {path : Text} (h : HasOneSlash path) :
    rootName .posix path = [] := by
  obtain ⟨rest, rfl, hrest⟩ := h
  exact rootName_slash hrest

theorem hasOneSlash_path {location : Location} (h : Named location) :
    HasOneSlash (path location) :=
  ⟨_, rfl, by simpa using head?_join_ne_slash h [] fun _ => rfl⟩

/-- Every path is of one of the four kinds that are anchored in their own ways. -/
theorem anchor_kinds (path : Text) :
    path = [] ∨ (split .posix path).rooted = true ∨ path ≠ [] ∧ IsRootName path ∨
      path ≠ [] ∧ isAbsolute path = false := by
  by_cases hne : path = []
  · exact .inl hne
  · cases habs : isAbsolute path with
    | false => exact .inr (.inr (.inr ⟨hne, rfl⟩))
    | true =>
        by_cases hroot : IsRootName path
        · exact .inr (.inr (.inl ⟨hne, hroot⟩))
        · exact .inr (.inl ((rooted_iff habs).2 hroot))

section

variable {workDir path : Text}

theorem anchor_nil (workDir : Text) : anchor .posix workDir [] = workDir := by
  simp [anchor]

theorem anchor_of_rooted (h : (split .posix path).rooted = true) :
    anchor .posix workDir path =
      if rootName .posix path = [] then rootName .posix workDir ++ path else path := by
  have hne : path ≠ [] := by
    rintro rfl
    cases h
  have hrest : isAbsolute (path.drop (rootName .posix path).length) = true := h
  simp only [anchor, Platform.generic_posix, if_neg hne, hrest, if_true]
  rfl

theorem HasOneSlash.anchor_of_rooted (h : HasOneSlash workDir)
    (hrooted : (split .posix path).rooted = true) : anchor .posix workDir path = path := by
  rw [Path.anchor_of_rooted hrooted, h.rootName_eq]
  simp

theorem isAbsolute_anchor_of_rooted (workDir : Text) (h : (split .posix path).rooted = true) :
    isAbsolute (anchor .posix workDir path) = true := by
  rw [anchor_of_rooted h]
  by_cases hwork : rootName .posix workDir = []
  · rw [hwork, List.nil_append, ite_self, isAbsolute_of_rooted h]
  · split
    · rw [isAbsolute_append_left hwork, (isRootName_rootName workDir).isAbsolute hwork]
    · exact isAbsolute_of_rooted h

theorem anchor_of_isRootName (hne : path ≠ []) (h : IsRootName path) :
    anchor .posix workDir path =
      path ++ workDir.drop (rootName .posix workDir).length ++ ['/'] := by
  have hrest : path.drop (rootName .posix path).length = [] := by
    rw [h.rootName_eq, List.drop_length]
  simp only [anchor, Platform.generic_posix, if_neg hne, hrest]
  simp [isAbsolute, h.rootName_eq, hne]

theorem rootName_of_relative (h : isAbsolute path = false) : rootName .posix path = [] := by
  by_contra hname
  rw [← isAbsolute_eq_of_isPrefix (rootName_isPrefix path) hname,
    (isRootName_rootName path).isAbsolute hname] at h
  cases h

theorem anchor_of_relative (hne : path ≠ []) (h : isAbsolute path = false) :
    anchor .posix workDir path = trimSlashes workDir ++ '/' :: path := by
  simp [anchor, hne, rootName_of_relative h, h]

theorem mem_anchor {c : Char} (hc : c ≠ '/') (h : c ∈ anchor .posix workDir path) :
    c ∈ workDir ∨ c ∈ path := by
  have hname : c ∈ rootName .posix path → c ∈ path := fun h => (rootName_isPrefix path).subset h
  have hwork : c ∈ rootName .posix workDir → c ∈ workDir :=
    fun h => (rootName_isPrefix workDir).subset h
  rcases anchor_cases workDir path with ha | ⟨-, ha⟩ | ⟨-, ha⟩ | ⟨-, ha⟩ | ha
  · exact .inl (ha ▸ h)
  · rw [ha] at h
    exact (List.mem_append.1 h).imp_left hwork
  · exact .inr (ha ▸ h)
  · rw [ha] at h
    rcases List.mem_append.1 h with h | h
    · rcases List.mem_append.1 h with h | h
      · exact .inr (hname h)
      · exact .inl (List.mem_of_mem_drop h)
    · exact .inr (List.mem_of_mem_drop ((List.mem_cons.1 h).resolve_left hc))
  · rw [ha] at h
    rcases List.mem_append.1 h with h | h
    · exact .inl ((trimSlashes_isPrefix workDir).subset h)
    · exact .inr ((List.mem_cons.1 h).resolve_left hc)

theorem rootName_append {name rest : Text} (h : IsRootName name) (hne : name ≠ [])
    (hrest : rest.head? = some '/' ∨ rest = []) : rootName .posix (name ++ rest) = name := by
  rcases h with rfl | ⟨host, hhost, hslash, rfl⟩
  · exact absurd rfl hne
  · exact rootName_network hhost hslash hrest

theorem IsRootName.getLast?_ne {name : Text} (h : IsRootName name) : name.getLast? ≠ some '/' := by
  rcases h with rfl | ⟨host, hhost, hslash, rfl⟩
  · simp
  · intro hlast
    obtain ⟨c, host, rfl⟩ := List.exists_cons_of_ne_nil hhost
    exact hslash (List.mem_of_getLast? (by simpa [List.getLast?_cons_cons] using hlast))

theorem getLast?_trimSlashes (path : Text) : (trimSlashes path).getLast? ≠ some '/' := by
  rw [trimSlashes, List.getLast?_reverse]
  intro hhead
  have hnot := List.head?_dropWhile_not (· = '/') path.reverse
  rw [hhead] at hnot
  simp at hnot

theorem trimSlashes_append {front : Text} (h : front.getLast? ≠ some '/') (back : Text) :
    trimSlashes (front ++ back) = front ++ trimSlashes back := by
  induction back using List.reverseRecOn with
  | nil => simpa [trimSlashes] using trimSlashes_of_getLast? h
  | append_singleton back c ih =>
      by_cases hc : c = '/'
      · rw [hc, ← List.append_assoc, trimSlashes_concat_slash, trimSlashes_concat_slash, ih]
      · rw [trimSlashes_of_getLast? (by simp [hc]), trimSlashes_of_getLast? (by simp [hc])]

theorem trimSlashes_append_of_ne_nil (front : Text) {back : Text} (h : trimSlashes back ≠ []) :
    trimSlashes (front ++ back) = front ++ trimSlashes back := by
  induction back using List.reverseRecOn with
  | nil => exact absurd rfl h
  | append_singleton back c ih =>
      by_cases hc : c = '/'
      · rw [hc, trimSlashes_concat_slash] at h
        rw [hc, ← List.append_assoc, trimSlashes_concat_slash, trimSlashes_concat_slash, ih h]
      · rw [trimSlashes_of_getLast? (by simp [hc]), trimSlashes_of_getLast? (by simp [hc])]

theorem head?_trimSlashes_append (h : path = [] ∨ isAbsolute path = true) (rest : Text) :
    (trimSlashes path ++ '/' :: rest).head? = some '/' := by
  by_cases htrim : trimSlashes path = []
  · rw [htrim]
    rfl
  · have hne : path ≠ [] := by
      rintro rfl
      exact htrim rfl
    have habs := isAbsolute_eq_of_isPrefix (trimSlashes_isPrefix path) htrim
    rw [h.resolve_left hne] at habs
    obtain ⟨tail, htail⟩ := isAbsolute_iff.1 habs
    simp [htail]

theorem rootName_anchor_ne_nil (h : rootName .posix workDir ≠ []) (path : Text) :
    rootName .posix (anchor .posix workDir path) ≠ [] := by
  obtain ⟨rest, hwork, hrest⟩ := exists_eq_rootName_append h
  have hroot := isRootName_rootName workDir
  rcases anchor_kinds path with rfl | hrooted | ⟨hne, hpath⟩ | ⟨hne, hrel⟩
  · rwa [anchor_nil]
  · rw [anchor_of_rooted hrooted]
    split
    · have habs : path.head? = some '/' := by
        simpa [isAbsolute] using isAbsolute_of_rooted hrooted
      rwa [rootName_append hroot h (.inl habs)]
    · next hname => exact hname
  · have hdrop : workDir.drop (rootName .posix workDir).length = rest := by
      have hleft : (rootName .posix workDir ++ rest).drop (rootName .posix workDir).length =
          rest := List.drop_left
      rwa [← hwork] at hleft
    have hback : (rest ++ ['/']).head? = some '/' := by
      rcases hrest with rfl | hrest
      · rfl
      · obtain ⟨tail, rfl⟩ := isAbsolute_iff.1 hrest
        rfl
    rwa [anchor_of_isRootName hne hpath, hdrop, List.append_assoc,
      rootName_append hpath hne (.inl hback)]
  · rw [anchor_of_relative hne hrel, hwork, trimSlashes_append hroot.getLast?_ne,
      List.append_assoc, rootName_append hroot h (.inl (head?_trimSlashes_append hrest path))]
    exact h

theorem HasOneSlash.not_isRootName_below (h : HasOneSlash workDir)
    (hrel : Path.isAbsolute path = false) : ¬ IsRootName (trimSlashes workDir ++ '/' :: path) := by
  rintro (hnil | ⟨host, -, hslash, hsplit⟩)
  · simp at hnil
  -- Two slashes would have to be those of the working directory, or stand before a relative path.
  · cases htrim : trimSlashes workDir with
    | nil =>
        rw [htrim] at hsplit
        obtain rfl : path = '/' :: host := by simpa using hsplit
        cases hrel
    | cons c front =>
        rw [htrim] at hsplit
        obtain ⟨rfl, hfront⟩ := List.cons.inj hsplit
        cases front with
        | nil => exact getLast?_trimSlashes workDir (by rw [htrim]; rfl)
        | cons d front =>
            obtain ⟨rfl, -⟩ := List.cons.inj hfront
            obtain ⟨back, hback⟩ := trimSlashes_isPrefix workDir
            obtain ⟨rest, rfl, hrest⟩ := h
            rw [htrim] at hback
            obtain ⟨-, rfl⟩ := List.cons.inj hback
            exact hrest rfl

/-- Below the one root of the host every path has a root. -/
theorem rooted_anchor (h : HasOneSlash workDir) (path : Text) :
    (split .posix (anchor .posix workDir path)).rooted = true := by
  rw [rooted_iff (isAbsolute_anchor h.isAbsolute path)]
  have hne : workDir ≠ [] := by
    obtain ⟨rest, rfl, -⟩ := h
    simp
  have hwork : ¬ IsRootName workDir := fun hroot => hne (hroot.rootName_eq ▸ h.rootName_eq)
  rcases anchor_kinds path with rfl | hrooted | ⟨hpne, hpath⟩ | ⟨hpne, hrel⟩
  · rwa [anchor_nil]
  · rw [h.anchor_of_rooted hrooted]
    exact (rooted_iff (isAbsolute_of_rooted hrooted)).1 hrooted
  · intro hroot
    have hname := hroot.rootName_eq
    rw [anchor_of_isRootName hpne hpath, h.rootName_eq, List.append_assoc] at hname
    have habs : (workDir ++ ['/']).head? = some '/' := by
      obtain ⟨rest, rfl, -⟩ := h
      rfl
    rw [List.length_nil, List.drop_zero, rootName_append hpath hpne (.inl habs)] at hname
    simp at hname
  · rw [anchor_of_relative hpne hrel]
    exact h.not_isRootName_below hrel

end

section

variable {workDir name : Text} {segments : List Text}

/-- A canonical path is seen from everywhere as it is, unless the working directory has a network
root and the path has none. -/
theorem anchor_render (hname : IsRootName name) (h : Named segments) (isDirectory : Bool)
    (hwork : name = [] → rootName .posix workDir = []) :
    anchor .posix workDir (render name segments isDirectory) =
      render name segments isDirectory := by
  have hsplit := split_render hname h isDirectory
  rw [anchor_of_rooted (congrArg Parts.rooted hsplit), rootName_render hname h]
  split
  · next hnil => rw [hwork hnil, List.nil_append]
  · rfl

theorem trimSlashes_render (hname : IsRootName name) (h : Named segments) (isDirectory : Bool) :
    trimSlashes (render name segments isDirectory) =
      name ++ if segments = [] then [] else path segments := by
  rw [render_eq, trimSlashes_append hname.getLast?_ne]
  congr 1
  rcases List.eq_nil_or_concat segments with rfl | ⟨front, last, rfl⟩
  · rfl
  · rw [List.concat_eq_append] at h ⊢
    have hlast : IsName last := by simp_all
    have htrim := trimSlashes_of_getLast? (getLast?_path_concat front hlast)
    rw [if_neg (by simp), mark]
    split
    · rw [trimSlashes_concat_slash, htrim]
    · rw [List.append_nil, htrim]

/-- A canonical path ends in a slash where nothing stands behind its root, or where it is marked as
a directory. -/
theorem getLast?_render (name : Text) (h : Named segments) (isDirectory : Bool) :
    (render name segments isDirectory).getLast? = some '/' ↔
      segments = [] ∨ isDirectory = true := by
  rw [render_eq]
  rcases List.eq_nil_or_concat segments with rfl | ⟨front, last, rfl⟩
  · simp [mark]
  · rw [List.concat_eq_append] at h ⊢
    have hlast : IsName last := by simp_all
    cases isDirectory with
    | true => simp [mark]
    | false =>
        have hmark : mark (front ++ [last]) false = [] := by simp [mark]
        have hend := getLast?_path_concat front hlast
        have hne : path (front ++ [last]) ≠ [] := by simp [Location.path]
        rw [hmark, List.append_nil, List.getLast?_append, List.getLast?_eq_some_getLast hne]
        simpa [List.getLast?_eq_some_getLast hne] using hend

theorem IsCanonical.rooted {path : Text} (h : IsCanonical path) :
    (split .posix path).rooted = true := by
  obtain ⟨name, segments, isDirectory, hname, hnamed, rfl⟩ := h
  rw [split_render hname hnamed]

theorem IsCanonical.isAbsolute {path : Text} (h : IsCanonical path) : isAbsolute path = true :=
  isAbsolute_of_rooted h.rooted

theorem render_root_or (name : Text) (segments : List Text) (isDirectory : Bool) :
    render name segments (decide (segments = []) || isDirectory) =
      render name segments isDirectory := by
  by_cases h : segments = [] <;> simp [render, h]

end

end SourceLoader.Path

/-! ## Relative names -/

namespace SourceLoader.Path

open Location

theorem split_path_of_pieces {pieces : List Text} (h : ∀ s ∈ pieces, s ≠ [] ∧ '/' ∉ s)
    (hne : pieces ≠ []) :
    rootName .posix (path pieces) = [] ∧ (split .posix (path pieces)).rooted = true ∧
      (split .posix (path pieces)).segments = pieces := by
  have hhead : (Text.join ['/'] pieces).head? ≠ some '/' := by
    simpa [isAbsolute] using isAbsolute_join h
  have hname : rootName .posix (path pieces) = [] := rootName_slash hhead
  have hself : pieces.filter (· ≠ []) = pieces :=
    List.filter_eq_self.2 fun s hs => by simpa using (h s hs).1
  refine ⟨hname, ?_, ?_⟩
  · rw [rooted_eq, hname]
    rfl
  · rw [segments_eq, hname, List.length_nil, List.drop_zero, path, Text.splitOn_slash,
      Text.splitOn_join (fun s hs => (h s hs).2) hne, List.filter_cons_of_neg (by simp), hself]

theorem join_ne_nil {pieces : List Text} (h : ∀ s ∈ pieces, s ≠ [] ∧ '/' ∉ s) (hne : pieces ≠ []) :
    Text.join ['/'] pieces ≠ [] := by
  intro hnil
  have hsplit := Text.splitOn_join (fun s hs => (h s hs).2) hne
  rw [hnil] at hsplit
  have hmem : [] ∈ pieces := by
    rw [← hsplit]
    simp
  exact (h [] hmem).1 rfl

theorem anchor_join {location : Location} {pieces : List Text} (hlocation : Named location)
    (h : ∀ s ∈ pieces, s ≠ [] ∧ '/' ∉ s) (hne : pieces ≠ []) :
    anchor .posix (path location) (Text.join ['/'] pieces) = path (location ++ pieces) := by
  have htrim := trimSlashes_render (.inl rfl) hlocation false
  rw [render_eq, mark] at htrim
  simp only [Bool.false_eq_true, and_false, if_false, List.append_nil, List.nil_append] at htrim
  rw [anchor_of_relative (join_ne_nil h hne) (isAbsolute_join h), htrim, path_append location hne]

theorem isDirectory_join {names : List Text} (h : Named names) (hne : names ≠ []) :
    (split .posix (Text.join ['/'] names)).isDirectory = false := by
  have hname := rootName_of_relative (isAbsolute_join h.pieces)
  have hlast : IsName (names.getLast hne) := h _ (List.getLast_mem hne)
  simp only [split, Platform.generic_posix, hname, List.length_nil, List.drop_zero,
    h.splitOn_join hne]
  simp [List.getLastD_eq_getLast?, List.getLast?_eq_some_getLast hne, hlast.namesDirectory_eq_false]

/-- A path below a canonical directory goes on from it with names. -/
theorem isBelow_render_iff {name path : Text} {above : List Text} (hname : IsRootName name)
    (habove : Named above) {isDirectory : Bool} (hpath : IsCanonical path) :
    isBelow .posix (render name above isDirectory) path = .ok true ↔
      ∃ below isDirectory', below ≠ [] ∧ Named below ∧
        path = render name (above ++ below) isDirectory' := by
  obtain ⟨name', segments, isDirectory', hname', hnamed, rfl⟩ := hpath
  rw [isBelow_render hname hname' habove hnamed]
  constructor
  · intro h
    obtain ⟨rfl, ⟨below, rfl⟩, hne⟩ : name = name' ∧ above <+: segments ∧ above ≠ segments := by
      simpa using h
    have hbelow : below ≠ [] := by
      rintro rfl
      simp at hne
    exact ⟨below, isDirectory', hbelow, (named_append.1 hnamed).2, rfl⟩
  · rintro ⟨below, isDirectory'', hne, hbelow, heq⟩
    have hsplit := congrArg (split .posix) heq
    rw [split_render hname' hnamed,
      split_render hname (named_append.2 ⟨habove, hbelow⟩)] at hsplit
    obtain ⟨rfl, -, rfl, -⟩ := Parts.mk.inj hsplit
    simpa using hne

theorem relativeTo_render {name : Text} {above below : List Text} (hname : IsRootName name)
    (habove : Named above) (hbelow : Named below) (hne : below ≠ [])
    (isDirectory₁ isDirectory₂ : Bool) :
    relativeTo .posix (render name above isDirectory₁) (render name (above ++ below) isDirectory₂) =
      .ok (Text.join ['/'] below ++ mark below isDirectory₂) := by
  have hall : Named (above ++ below) := named_append.2 ⟨habove, hbelow⟩
  have hafter : segmentsAfter? above (above ++ below) = some below :=
    segmentsAfter?_eq_some_iff.2 rfl
  have hslash : (render name (above ++ below) isDirectory₂).getLast? = some '/' ↔
      isDirectory₂ = true := by
    rw [getLast?_render name hall]
    simp [hne]
  obtain ⟨first, below, rfl⟩ := List.exists_cons_of_ne_nil hne
  simp only [relativeTo, relativeSegments, comparableParts_render hname habove,
    comparableParts_render hname hall, bind, Except.bind, pure, Except.pure, hafter]
  simp [mark, hslash]

end SourceLoader.Path
