import Mathlib.Data.List.Basic
import SourceLoader.Proofs.Path.Anchor

/-!
Paths as places in a tree. A path is compared with others by its root name and its segments; slashes
at its end belong to neither, and what is written behind a path adds its own segments to those of
the path. So lying below is the strict order of a tree: nothing lies below itself, and of two
directories above the same path one lies below the other unless they are the same place.
-/

namespace SourceLoader.Path

theorem exists_eq_trimSlashes_append (path : Text) :
    ∃ n, path = trimSlashes path ++ List.replicate n '/' := by
  induction path using List.reverseRecOn with
  | nil => exact ⟨0, rfl⟩
  | append_singleton path c ih =>
      by_cases hc : c = '/'
      · obtain ⟨n, hn⟩ := ih
        refine ⟨n + 1, ?_⟩
        rw [hc, trimSlashes_concat_slash, List.replicate_succ', ← List.append_assoc, ← hn]
      · have hself : trimSlashes (path ++ [c]) = path ++ [c] :=
          trimSlashes_of_getLast? (by simp [hc])
        exact ⟨0, by simp [hself]⟩

theorem trimSlashes_append_slashes (path : Text) (n : Nat) :
    trimSlashes (path ++ List.replicate n '/') = trimSlashes path := by
  induction n with
  | zero => simp
  | succ n ih => rw [List.replicate_succ', ← List.append_assoc, trimSlashes_concat_slash, ih]

theorem trimSlashes_ne_nil {path : Text} (hne : path ≠ []) (h : isAbsolute path = false) :
    trimSlashes path ≠ [] := by
  intro htrim
  obtain ⟨n, hn⟩ := exists_eq_trimSlashes_append path
  rw [htrim, List.nil_append] at hn
  cases n with
  | zero => exact hne hn
  | succ n =>
      rw [hn] at h
      cases h

theorem rootName_slashes (n : Nat) : rootName .posix (List.replicate n '/') = [] := by
  match n with
  | 0 | 1 | 2 => rfl
  | n + 3 => simp [rootName, List.replicate_succ, Platform.isSeparator]

theorem takeWhile_append_slash (front rest : Text) :
    (front ++ '/' :: rest).takeWhile (· ≠ '/') = front.takeWhile (· ≠ '/') := by
  induction front with
  | nil => simp
  | cons c front ih => simp only [List.cons_append, List.takeWhile_cons, ih]

/-- What follows a slash behind a path is not part of its root name, unless the path is made of
slashes itself. -/
theorem rootName_append_slash {front : Text} (hne : front ≠ []) (h : front.getLast? ≠ some '/')
    (rest : Text) : rootName .posix (front ++ '/' :: rest) = rootName .posix front := by
  match front with
  | [] => exact absurd rfl hne
  | [c] =>
      have hc : '/' ≠ c := fun he => h (by simp [← he])
      cases rest <;> simp [rootName, hc]
  | [a, b] => simp [rootName, Platform.isSeparator]
  | a :: b :: c :: front =>
      simp only [rootName, List.cons_append, takeWhile_isSeparator_posix]
      rw [← List.cons_append, takeWhile_append_slash]

theorem rootName_trimSlashes (path : Text) :
    rootName .posix (trimSlashes path) = rootName .posix path := by
  obtain ⟨n, hn⟩ := exists_eq_trimSlashes_append path
  by_cases htrim : trimSlashes path = []
  · rw [htrim, List.nil_append] at hn
    rw [htrim, hn, rootName_slashes]
    rfl
  · cases n with
    | zero => rw [← List.append_nil (trimSlashes path), ← List.replicate_zero, ← hn]
    | succ n =>
        rw [List.replicate_succ] at hn
        conv_rhs => rw [hn, rootName_append_slash htrim (getLast?_trimSlashes path)]

theorem rootName_append_drop (path : Text) :
    rootName .posix path ++ path.drop (rootName .posix path).length = path :=
  List.prefix_iff_eq_append.1 (rootName_isPrefix path)

theorem drop_trimSlashes (path : Text) :
    (trimSlashes path).drop (rootName .posix path).length =
      trimSlashes (path.drop (rootName .posix path).length) := by
  have htrim := trimSlashes_append (isRootName_rootName path).getLast?_ne
    (path.drop (rootName .posix path).length)
  rw [rootName_append_drop] at htrim
  rw [htrim, List.drop_left]

theorem filter_splitOn_trimSlashes (text : Text) :
    ((trimSlashes text).splitOn '/').filter (· ≠ []) = (text.splitOn '/').filter (· ≠ []) := by
  induction text using List.reverseRecOn with
  | nil => rfl
  | append_singleton text c ih =>
      by_cases hc : c = '/'
      · rw [hc, trimSlashes_concat_slash, splitOn_concat_slash, ih]
        simp
      · rw [trimSlashes_of_getLast? (by simp [hc])]

theorem filter_splitOn_dropWhile_slash (name : Text) :
    ((name.dropWhile (· = '/')).splitOn '/').filter (· ≠ []) =
      (name.splitOn '/').filter (· ≠ []) := by
  induction name with
  | nil => rfl
  | cons c name ih =>
      by_cases hc : c = '/'
      · subst hc
        rw [List.dropWhile_cons_of_pos (by simp), ih, Text.splitOn_slash]
        simp
      · rw [List.dropWhile_cons_of_neg (by simpa using hc)]

theorem getLastD_splitOn_dropWhile_slash (name : Text) :
    ((name.dropWhile (· = '/')).splitOn '/').getLastD [] = (name.splitOn '/').getLastD [] := by
  induction name with
  | nil => rfl
  | cons c name ih =>
      by_cases hc : c = '/'
      · subst hc
        have hlast := getLastD_splitOn_append_slash [] name
        rw [List.nil_append] at hlast
        rw [List.dropWhile_cons_of_pos (by simp), ih, hlast]
      · rw [List.dropWhile_cons_of_neg (by simpa using hc)]

/-! ### Paths behind paths -/

/-- Whether two paths have the same root and the same segments. -/
def SamePlace (a b : Text) : Prop :=
  rootName .posix a = rootName .posix b ∧
    (split .posix a).segments = (split .posix b).segments

theorem samePlace_trimSlashes (path : Text) : SamePlace (trimSlashes path) path := by
  refine ⟨rootName_trimSlashes path, ?_⟩
  rw [segments_eq, segments_eq, rootName_trimSlashes, drop_trimSlashes, filter_splitOn_trimSlashes]

theorem samePlace_append_slashes (path : Text) (n : Nat) :
    SamePlace (path ++ List.replicate n '/') path := by
  have hlong := samePlace_trimSlashes (path ++ List.replicate n '/')
  have hshort := samePlace_trimSlashes path
  rw [trimSlashes_append_slashes] at hlong
  exact ⟨hlong.1.symm.trans hshort.1, hlong.2.symm.trans hshort.2⟩

section

variable {path rest : Text}

theorem rootName_below (path : Text) (hrest : rest.head? ≠ some '/') :
    rootName .posix (trimSlashes path ++ '/' :: rest) = rootName .posix path := by
  rw [← rootName_trimSlashes path]
  by_cases htrim : trimSlashes path = []
  · rw [htrim]
    exact rootName_slash hrest
  · exact rootName_append_slash htrim (getLast?_trimSlashes path) rest

theorem drop_rootName_below (path : Text) (hrest : rest.head? ≠ some '/') :
    (trimSlashes path ++ '/' :: rest).drop
        (rootName .posix (trimSlashes path ++ '/' :: rest)).length =
      trimSlashes (path.drop (rootName .posix path).length) ++ '/' :: rest := by
  have hlength : (rootName .posix path).length ≤ (trimSlashes path).length := by
    rw [← rootName_trimSlashes path]
    exact (rootName_isPrefix _).length_le
  rw [rootName_below path hrest, List.drop_append_of_le_length hlength, drop_trimSlashes]

theorem segments_below (path : Text) (hrest : rest.head? ≠ some '/') :
    (split .posix (trimSlashes path ++ '/' :: rest)).segments =
      (split .posix path).segments ++ (rest.splitOn '/').filter (· ≠ []) := by
  rw [segments_eq, drop_rootName_below path hrest, List.splitOn_append_cons_self,
    List.filter_append, filter_splitOn_trimSlashes, segments_eq]

theorem rooted_below (h : isAbsolute path = true) (hrest : rest.head? ≠ some '/') :
    (split .posix (trimSlashes path ++ '/' :: rest)).rooted = true := by
  rw [rooted_eq, drop_rootName_below path hrest]
  have hbody : path.drop (rootName .posix path).length = [] ∨
      isAbsolute (path.drop (rootName .posix path).length) = true := by
    by_cases hname : rootName .posix path = []
    · exact .inr (by simpa [hname] using h)
    · obtain ⟨body, hsplit, hbody⟩ := exists_eq_rootName_append hname
      have hdrop : (rootName .posix path ++ body).drop (rootName .posix path).length = body :=
        List.drop_left
      rw [← hsplit] at hdrop
      rwa [hdrop]
  simpa [isAbsolute] using head?_trimSlashes_append hbody rest

theorem isDirectory_below (path : Text) (hrest : rest.head? ≠ some '/') :
    (split .posix (trimSlashes path ++ '/' :: rest)).isDirectory =
      namesDirectory ((rest.splitOn '/').getLastD []) := by
  simp only [split, Platform.generic_posix, drop_rootName_below path hrest,
    getLastD_splitOn_append_slash]
  simp

/-- Seen from below the one root of the host, what is written behind a path stands behind the place
of that path, unless the path is no more than a root name. -/
theorem anchor_below {workDir : Text} (h : HasOneSlash workDir) (hroot : ¬ IsRootName path)
    (hrest : rest.head? ≠ some '/') :
    anchor .posix workDir (trimSlashes path ++ '/' :: rest) =
      trimSlashes (anchor .posix workDir path) ++ '/' :: rest := by
  rcases anchor_kinds path with hnil | hrooted | ⟨-, hbare⟩ | ⟨hne, hrel⟩
  · exact absurd (.inl hnil) hroot
  · rw [h.anchor_of_rooted hrooted,
      h.anchor_of_rooted (rooted_below (isAbsolute_of_rooted hrooted) hrest)]
  · exact absurd hbare hroot
  · have htrim := trimSlashes_ne_nil hne hrel
    have hrel' : isAbsolute (trimSlashes path ++ '/' :: rest) = false := by
      rw [isAbsolute_append_left htrim, isAbsolute_eq_of_isPrefix (trimSlashes_isPrefix path) htrim,
        hrel]
    have hfront : trimSlashes (trimSlashes workDir ++ '/' :: path) =
        trimSlashes workDir ++ '/' :: trimSlashes path := by
      simpa using trimSlashes_append_of_ne_nil (trimSlashes workDir ++ ['/']) htrim
    rw [anchor_of_relative hne hrel, anchor_of_relative (by simp) hrel', hfront]
    simp

end

/-! ### The order -/

/-- Whether a path can be compared with others: it is not empty, it has a root behind its root name,
and no segment of it is `.` or `..`. -/
structure Comparable (path : Text) : Prop where
  ne_nil : path ≠ []
  rooted : (split .posix path).rooted = true
  no_dot : dot ∉ (split .posix path).segments
  no_dotDot : dotDot ∉ (split .posix path).segments

/-- Whether a path lies strictly inside a directory: it has the same root and more segments behind
those of the directory. -/
def Encloses (directory path : Text) : Prop :=
  rootName .posix directory = rootName .posix path ∧
    (split .posix directory).segments <+: (split .posix path).segments ∧
    (split .posix directory).segments ≠ (split .posix path).segments

instance (directory path : Text) : Decidable (Encloses directory path) :=
  inferInstanceAs (Decidable (_ ∧ _ ∧ _))

section

variable {a b c : Text}

theorem Comparable.comparableParts_eq (h : Comparable a) :
    comparableParts .posix a = .ok (split .posix a) := by
  simp [comparableParts, h.ne_nil, h.rooted, h.no_dot, h.no_dotDot]

theorem exists_violation_of_not_comparable (h : ¬ Comparable a) :
    ∃ rule, comparableParts .posix a = .error (.violation rule) := by
  unfold comparableParts
  split
  · exact ⟨_, rfl⟩
  · next hne =>
    simp only
    split
    · exact ⟨_, rfl⟩
    · next hrooted =>
      split
      · exact ⟨_, rfl⟩
      · next hdots =>
        rw [not_or] at hdots
        exact absurd ⟨hne, not_not.1 hrooted, hdots.1, hdots.2⟩ h

theorem Comparable.exists_relativeSegments (ha : Comparable a) (hb : Comparable b) :
    ∃ segments, relativeSegments .posix a b = .ok segments := by
  simp only [relativeSegments, ha.comparableParts_eq, hb.comparableParts_eq, bind, Except.bind]
  split <;> exact ⟨_, rfl⟩

theorem exists_violation_of_relativeSegments (h : ¬ (Comparable a ∧ Comparable b)) :
    ∃ rule, relativeSegments .posix a b = .error (.violation rule) := by
  by_cases ha : Comparable a
  · obtain ⟨rule, hrule⟩ := exists_violation_of_not_comparable fun hb => h ⟨ha, hb⟩
    exact ⟨rule, by simp [relativeSegments, ha.comparableParts_eq, hrule, bind, Except.bind]⟩
  · obtain ⟨rule, hrule⟩ := exists_violation_of_not_comparable ha
    exact ⟨rule, by simp [relativeSegments, hrule, bind, Except.bind]⟩

theorem IsCanonical.comparable (h : IsCanonical a) : Comparable a := by
  obtain ⟨name, segments, isDirectory, hname, hnamed, rfl⟩ := h
  have hsplit := split_render hname hnamed isDirectory
  refine ⟨by simp [render], by rw [hsplit], ?_, ?_⟩
  · rw [hsplit]
    exact fun hmem => (hnamed dot hmem).ne_dot rfl
  · rw [hsplit]
    exact fun hmem => (hnamed dotDot hmem).ne_dotDot rfl

theorem Comparable.isBelow_eq (ha : Comparable a) (hb : Comparable b) :
    ∃ below, isBelow .posix a b = .ok below ∧ (below = true ↔ Encloses a b) :=
  ⟨_, isBelow_of_parts ha.comparableParts_eq hb.comparableParts_eq, decide_eq_true_iff⟩

theorem Comparable.isBelow_iff (ha : Comparable a) (hb : Comparable b) :
    isBelow .posix a b = .ok true ↔ Encloses a b := by
  obtain ⟨below, hbelow, henc⟩ := ha.isBelow_eq hb
  rw [hbelow, ← henc]
  simp

theorem Comparable.exists_relativeTo (ha : Comparable a) (hb : Comparable b) :
    ∃ name, relativeTo .posix a b = .ok name := by
  obtain ⟨segments, hsegments⟩ := ha.exists_relativeSegments hb
  simp only [relativeTo, hsegments, bind, Except.bind]
  split <;> exact ⟨_, rfl⟩

theorem Comparable.append_slashes (h : Comparable a) (n : Nat) :
    Comparable (a ++ List.replicate n '/') := by
  have hplace := samePlace_append_slashes a n
  refine ⟨by simp [h.ne_nil], ?_, hplace.2 ▸ h.no_dot, hplace.2 ▸ h.no_dotDot⟩
  have hrooted := h.rooted
  rw [rooted_eq] at hrooted ⊢
  rw [hplace.1, List.drop_append_of_le_length (rootName_isPrefix a).length_le,
    isAbsolute_append_left (by rintro hnil; simp [hnil, isAbsolute] at hrooted), hrooted]

theorem not_encloses_self (a : Text) : ¬ Encloses a a := fun h => h.2.2 rfl

theorem Encloses.trans (hab : Encloses a b) (hbc : Encloses b c) : Encloses a c := by
  obtain ⟨hname, hprefix, hne⟩ := hab
  obtain ⟨hname', hprefix', -⟩ := hbc
  refine ⟨hname.trans hname', hprefix.trans hprefix', fun heq => hne ?_⟩
  exact hprefix.eq_of_length_le (heq ▸ hprefix'.length_le)

theorem Encloses.total (hac : Encloses a c) (hbc : Encloses b c) :
    Encloses a b ∨ Encloses b a ∨ SamePlace a b := by
  have hname : rootName .posix a = rootName .posix b := hac.1.trans hbc.1.symm
  by_cases heq : (split .posix a).segments = (split .posix b).segments
  · exact .inr (.inr ⟨hname, heq⟩)
  · rcases List.prefix_or_prefix_of_prefix hac.2.1 hbc.2.1 with hprefix | hprefix
    · exact .inl ⟨hname, hprefix, heq⟩
    · exact .inr (.inl ⟨hname.symm, hprefix, Ne.symm heq⟩)

theorem SamePlace.encloses_iff {a' b' : Text} (ha : SamePlace a' a) (hb : SamePlace b' b) :
    Encloses a' b' ↔ Encloses a b := by
  rw [Encloses, Encloses, ha.1, ha.2, hb.1, hb.2]

/-- Among paths that can be compared, lying below is the strict order of a tree, and slashes at the
end of a path make no difference to it. -/
theorem isBelow_strict_tree_order (ha : Comparable a) (hb : Comparable b) (hc : Comparable c) :
    isBelow .posix a a = .ok false ∧
      (isBelow .posix a b = .ok true → isBelow .posix b c = .ok true →
        isBelow .posix a c = .ok true) ∧
      (isBelow .posix a c = .ok true → isBelow .posix b c = .ok true →
        isBelow .posix a b = .ok true ∨ isBelow .posix b a = .ok true ∨ SamePlace a b) ∧
      ∀ m n, ∃ below, isBelow .posix a b = .ok below ∧
        isBelow .posix (a ++ List.replicate m '/') (b ++ List.replicate n '/') = .ok below := by
  refine ⟨?_, ?_, ?_, fun m n => ?_⟩
  · obtain ⟨below, hbelow, henc⟩ := ha.isBelow_eq ha
    cases below with
    | false => exact hbelow
    | true => exact absurd (henc.1 rfl) (not_encloses_self a)
  · rw [ha.isBelow_iff hb, hb.isBelow_iff hc, ha.isBelow_iff hc]
    exact Encloses.trans
  · rw [ha.isBelow_iff hc, hb.isBelow_iff hc, ha.isBelow_iff hb, hb.isBelow_iff ha]
    exact Encloses.total
  · obtain ⟨below, hbelow, henc⟩ := ha.isBelow_eq hb
    obtain ⟨below', hbelow', henc'⟩ := (ha.append_slashes m).isBelow_eq (hb.append_slashes n)
    rw [(samePlace_append_slashes a m).encloses_iff (samePlace_append_slashes b n), ← henc] at henc'
    exact ⟨below, hbelow, Bool.eq_iff_iff.2 henc' ▸ hbelow'⟩

/-- Two directories above one path below a network root, each spelled with slashes that say
nothing. -/
theorem isBelow_strict_tree_order_network :
    Comparable "//h//x/".toList ∧ Comparable "//h/x/y".toList ∧ Comparable "//h/x///y/z".toList ∧
      isBelow .posix "//h//x/".toList "//h//x/".toList = .ok false ∧
      isBelow .posix "//h//x/".toList "//h/x/y".toList = .ok true ∧
      isBelow .posix "//h/x/y".toList "//h/x///y/z".toList = .ok true ∧
      isBelow .posix "//h//x/".toList "//h/x///y/z".toList = .ok true ∧
      isBelow .posix ("//h//x/".toList ++ List.replicate 2 '/')
        ("//h/x/y".toList ++ List.replicate 1 '/') = .ok true := by
  have ha : Comparable "//h//x/".toList := ⟨by decide, by decide, by decide, by decide⟩
  have hb : Comparable "//h/x/y".toList := ⟨by decide, by decide, by decide, by decide⟩
  have hc : Comparable "//h/x///y/z".toList := ⟨by decide, by decide, by decide, by decide⟩
  have hab : isBelow .posix "//h//x/".toList "//h/x/y".toList = .ok true := by cbv
  have hbc : isBelow .posix "//h/x/y".toList "//h/x///y/z".toList = .ok true := by cbv
  obtain ⟨hself, htrans, -, hslashes⟩ := isBelow_strict_tree_order ha hb hc
  obtain ⟨below, hbelow, hmarked⟩ := hslashes 2 1
  obtain rfl := Except.ok.inj (hab.symm.trans hbelow)
  exact ⟨ha, hb, hc, hself, hab, hbc, htrans hab hbc, hmarked⟩

end

end SourceLoader.Path
