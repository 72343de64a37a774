import SourceLoader.Path.Basic
import SourceLoader.Proofs.Path.Location

/-!
Collapsing dots is walking from the root. The segments that have been collected are at all times a
run of `..` followed by the place that a walk has reached, and only the run is dropped at the end.

Canonical paths of a POSIX host. Such a path is a root name, a slash, names with slashes between
them and perhaps a slash at the end. Taking it apart gives these pieces back, so canonical paths are
compared as if they were the pieces themselves.
-/

namespace SourceLoader.Path

@[simp] theorem dotDot_ne_dot : dotDot ≠ dot := by decide

def Undotted (segments : List Text) : Prop := ∀ s ∈ segments, s ≠ dot ∧ s ≠ dotDot

theorem undotted_walkStep {location : List Text} (h : Undotted location) (segment : Text) :
    Undotted (walkStep location segment) := by
  intro s hs
  unfold walkStep at hs
  split at hs
  · exact h s hs
  · split at hs
    · exact h s (List.dropLast_subset location hs)
    · rcases List.mem_append.1 hs with hs | hs
      · exact h s hs
      · simp_all

theorem undotted_foldl_walkStep {location : List Text} (h : Undotted location)
    (segments : List Text) : Undotted (segments.foldl walkStep location) := by
  induction segments generalizing location with
  | nil => exact h
  | cons segment segments ih => exact ih (undotted_walkStep h segment)

theorem undotted_walkFromRoot (segments : List Text) : Undotted (walkFromRoot segments) :=
  undotted_foldl_walkStep (by simp [Undotted]) segments

theorem mem_of_mem_foldl_walkStep {location segments : List Text} {s : Text}
    (h : s ∈ segments.foldl walkStep location) : s ∈ location ∨ s ∈ segments := by
  induction segments generalizing location with
  | nil => exact .inl h
  | cons segment segments ih =>
      rcases ih h with h | h
      · unfold walkStep at h
        split at h
        · exact .inl h
        · split at h
          · exact .inl (List.dropLast_subset location h)
          · rcases List.mem_append.1 h with h | h
            · exact .inl h
            · exact .inr (by simp_all)
      · exact .inr (List.mem_cons_of_mem _ h)

theorem mem_of_mem_walkFromRoot {segments : List Text} {s : Text}
    (h : s ∈ walkFromRoot segments) : s ∈ segments :=
  (mem_of_mem_foldl_walkStep h).resolve_left (by simp)

theorem foldl_walkStep_of_undotted {segments : List Text} (h : Undotted segments)
    (location : List Text) : segments.foldl walkStep location = location ++ segments := by
  induction segments generalizing location with
  | nil => simp
  | cons segment segments ih =>
      have hhead := h segment (by simp)
      rw [List.foldl_cons, ih fun s hs => h s (List.mem_cons_of_mem _ hs)]
      simp [walkStep, hhead.1, hhead.2]

theorem walkFromRoot_of_undotted {segments : List Text} (h : Undotted segments) :
    walkFromRoot segments = segments := by
  simpa [walkFromRoot] using foldl_walkStep_of_undotted h []

theorem foldl_walkStep_of_dotDot_not_mem {segments : List Text} (h : dotDot ∉ segments)
    (location : List Text) :
    segments.foldl walkStep location = location ++ segments.filter (· ≠ dot) := by
  induction segments generalizing location with
  | nil => simp
  | cons segment segments ih =>
      rw [List.mem_cons, not_or] at h
      rw [List.foldl_cons, ih h.2]
      by_cases hdot : segment = dot
      · simp [walkStep, hdot]
      · simp [walkStep, hdot, Ne.symm h.1]

theorem walkFromRoot_walkFromRoot_append (front back : List Text) :
    walkFromRoot (walkFromRoot front ++ back) = walkFromRoot (front ++ back) := by
  have hplace := walkFromRoot_of_undotted (undotted_walkFromRoot front)
  calc walkFromRoot (walkFromRoot front ++ back)
      = back.foldl walkStep (walkFromRoot (walkFromRoot front)) := List.foldl_append
    _ = back.foldl walkStep (walkFromRoot front) := by rw [hplace]
    _ = walkFromRoot (front ++ back) := List.foldl_append.symm

theorem pushSegment_of_ne {segment : Text} (hdot : segment ≠ dot) (hdd : segment ≠ dotDot)
    (collected : List Text) : pushSegment collected segment = segment :: collected := by
  cases collected <;> simp [pushSegment, hdot, hdd]

/-- One segment more takes the place of the walk one step further. It may lengthen the run of `..`
that was collected before the place, but only where the place is the root. -/
theorem pushSegment_walkStep {location : List Text} (h : Undotted location) (run : Nat)
    (segment : Text) :
    ∃ run', pushSegment (location.reverse ++ List.replicate run dotDot) segment =
      (walkStep location segment).reverse ++ List.replicate run' dotDot := by
  by_cases hdot : segment = dot
  · exact ⟨run, by simp [pushSegment, walkStep, hdot]⟩
  · by_cases hdd : segment = dotDot
    · subst hdd
      rcases List.eq_nil_or_concat location with rfl | ⟨front, last, rfl⟩
      · -- At the root there is nothing to go up from, so the segment joins the run.
        exact ⟨run + 1, by cases run <;> simp [pushSegment, walkStep, List.replicate_succ]⟩
      · rw [List.concat_eq_append] at h ⊢
        have hlast := h last (by simp)
        exact ⟨run, by simp [pushSegment, walkStep, hlast.2]⟩
    · refine ⟨run, ?_⟩
      rw [pushSegment_of_ne hdot hdd]
      simp [walkStep, hdot, hdd]

theorem foldl_pushSegment {location : List Text} (h : Undotted location) (run : Nat)
    (segments : List Text) :
    ∃ run', segments.foldl pushSegment (location.reverse ++ List.replicate run dotDot) =
      (segments.foldl walkStep location).reverse ++ List.replicate run' dotDot := by
  -- The invariant: names on top of a run of `..`, which a further `..` may lengthen.
  induction segments generalizing location run with
  | nil => exact ⟨run, rfl⟩
  | cons segment segments ih =>
      obtain ⟨run', hstep⟩ := pushSegment_walkStep h run segment
      rw [List.foldl_cons, hstep]
      exact ih (undotted_walkStep h segment) run'

theorem dropLeadingDotDots_replicate_append {location : List Text} (h : Undotted location)
    (run : Nat) : dropLeadingDotDots (List.replicate run dotDot ++ location) = location := by
  rw [dropLeadingDotDots, List.dropWhile_append_of_pos fun s hs => by
    simpa using List.eq_of_mem_replicate hs]
  cases location with
  | nil => rfl
  | cons s location => simp [(h s (by simp)).2]

/-- What is left of a list of segments is a run of `..` and the place that a walk reaches. -/
theorem exists_collapseDots_eq (segments : List Text) :
    ∃ run, collapseDots segments = List.replicate run dotDot ++ walkFromRoot segments := by
  have hroot : Undotted [] := by simp [Undotted]
  obtain ⟨run, hrun⟩ := foldl_pushSegment hroot 0 segments
  simp only [List.reverse_nil, List.replicate_zero, List.append_nil] at hrun
  exact ⟨run, by simp [collapseDots, walkFromRoot, hrun]⟩

/-- Collapsing the dots of a list of segments and dropping the run of `..` that is left in front
walks along the segments from the root. -/
theorem dropLeadingDotDots_collapseDots (segments : List Text) :
    dropLeadingDotDots (collapseDots segments) = walkFromRoot segments := by
  obtain ⟨run, hrun⟩ := exists_collapseDots_eq segments
  rw [hrun]
  exact dropLeadingDotDots_replicate_append (undotted_walkFromRoot segments) run

theorem foldl_pushSegment_replicate (run : Nat) :
    (List.replicate run dotDot).foldl pushSegment [] = List.replicate run dotDot := by
  induction run with
  | zero => rfl
  | succ run ih =>
      -- The last of the run is pushed onto the others, none of which it takes away.
      rw [List.replicate_succ', List.foldl_append, ih, ← List.replicate_succ']
      cases run <;> simp [pushSegment, List.replicate_succ]

theorem foldl_pushSegment_of_undotted {segments : List Text} (h : Undotted segments)
    (collected : List Text) : segments.foldl pushSegment collected = segments.reverse ++ collected := by
  induction segments generalizing collected with
  | nil => rfl
  | cons segment segments ih =>
      obtain ⟨⟨hdot, hdd⟩, hrest⟩ := List.forall_mem_cons.1 h
      rw [List.foldl_cons, pushSegment_of_ne hdot hdd, ih hrest]
      simp

theorem foldl_pushSegment_collapseDots (segments : List Text) :
    (collapseDots segments).foldl pushSegment [] = segments.foldl pushSegment [] := by
  obtain ⟨run, hrun⟩ := exists_collapseDots_eq segments
  calc (collapseDots segments).foldl pushSegment []
      = (walkFromRoot segments).reverse ++ List.replicate run dotDot := by
        rw [hrun, List.foldl_append, foldl_pushSegment_replicate,
          foldl_pushSegment_of_undotted (undotted_walkFromRoot segments)]
    _ = (collapseDots segments).reverse := by simp [hrun]
    _ = segments.foldl pushSegment [] := by rw [collapseDots, List.reverse_reverse]

theorem collapseDots_collapseDots_append (front back : List Text) :
    collapseDots (collapseDots front ++ back) = collapseDots (front ++ back) := by
  rw [collapseDots, List.foldl_append, foldl_pushSegment_collapseDots, ← List.foldl_append,
    collapseDots]

/-! ## Canonical paths -/

open Location

/-- Whether a text is the root name of a POSIX path: nothing, or two slashes and a host. -/
def IsRootName (name : Text) : Prop :=
  name = [] ∨ ∃ host, host ≠ [] ∧ '/' ∉ host ∧ name = '/' :: '/' :: host

/-- Whether a path is put together from a root name and names of directories below it. -/
def IsCanonical (path : Text) : Prop :=
  ∃ name segments isDirectory, IsRootName name ∧ Named segments ∧
    path = render name segments isDirectory

theorem takeWhile_isSeparator_posix (path : Text) :
    path.takeWhile (! Platform.posix.isSeparator ·) = path.takeWhile (· ≠ '/') := by
  congr 1
  funext c
  by_cases hc : c = '/' <;> simp [Platform.isSeparator, hc]

theorem isRootName_rootName (path : Text) : IsRootName (rootName .posix path) := by
  match path with
  | [] | [_] | [_, _] => exact .inl rfl
  | a :: b :: c :: rest =>
    by_cases h : Platform.posix.isSeparator a = true ∧ b = a ∧
        ¬ Platform.posix.isSeparator c = true
    · refine .inr ⟨(c :: rest).takeWhile (· ≠ '/'), ?_, ?_, ?_⟩
      · have hc : c ≠ '/' := by simpa [Platform.isSeparator] using h.2.2
        simp [hc]
      · intro hmem
        have hall := List.all_eq_true.1 (List.all_takeWhile (l := c :: rest) (p := (· ≠ '/')))
        simpa using hall '/' hmem
      · have ha : a = '/' := by simpa [Platform.isSeparator] using h.1
        rw [rootName, if_pos h, takeWhile_isSeparator_posix, h.2.1, ha]
    · exact .inl (by rw [rootName, if_neg h])

theorem rootName_slash {rest : Text} (h : rest.head? ≠ some '/') :
    rootName .posix ('/' :: rest) = [] := by
  match rest with
  | [] | [_] => rfl
  | b :: c :: rest =>
    have hb : b ≠ '/' := by simpa using h
    simp [rootName, hb]

theorem rootName_network {host rest : Text} (hne : host ≠ []) (hslash : '/' ∉ host)
    (hrest : rest.head? = some '/' ∨ rest = []) :
    rootName .posix ('/' :: '/' :: host ++ rest) = '/' :: '/' :: host := by
  have hrun : (host ++ rest).takeWhile (· ≠ '/') = host := by
    rw [List.takeWhile_append_of_pos]
    · cases rest with
      | nil => simp
      | cons c rest => simp_all
    · intro c hc
      have hne : c ≠ '/' := fun he => hslash (he ▸ hc)
      simpa using hne
  cases host with
  | nil => exact absurd rfl hne
  | cons c host =>
      have hc : c ≠ '/' := fun he => hslash (by simp [he])
      have hsep : Platform.posix.isSeparator c = false := by simp [Platform.isSeparator, hc]
      rw [List.cons_append] at hrun
      simp only [List.cons_append, rootName, hsep, takeWhile_isSeparator_posix, hrun]
      simp [Platform.isSeparator]

theorem rootName_render {name : Text} {segments : List Text} (hname : IsRootName name)
    (h : Named segments) (isDirectory : Bool) :
    rootName .posix (render name segments isDirectory) = name := by
  rcases hname with rfl | ⟨host, hne, hslash, rfl⟩
  · simp only [render, List.nil_append, List.cons_append]
    exact rootName_slash (head?_join_ne_slash h _ fun he => by simp [he])
  · rw [render, List.append_assoc]
    exact rootName_network hne hslash (.inl rfl)

theorem splitOn_concat_slash (path : Text) :
    (path ++ ['/']).splitOn '/' = path.splitOn '/' ++ [[]] := by
  simpa using List.splitOn_append_cons_self path []

theorem getLastD_splitOn_append_slash (front rest : Text) :
    ((front ++ '/' :: rest).splitOn '/').getLastD [] = (rest.splitOn '/').getLastD [] := by
  rw [List.splitOn_append_cons_self, List.getLastD_eq_getLast?, List.getLast?_append,
    List.getLastD_eq_getLast?, List.getLast?_eq_some_getLast (List.splitOn_ne_nil '/' rest)]
  rfl

theorem IsName.namesDirectory_eq_false {name : Text} (h : IsName name) :
    namesDirectory name = false := by
  simp [namesDirectory, h.ne_nil, h.ne_dot, h.ne_dotDot]

/-- The slash that marks a directory, where there is a name to stand behind. -/
def mark (segments : List Text) (isDirectory : Bool) : Text :=
  if segments ≠ [] ∧ isDirectory then ['/'] else []

theorem render_eq (name : Text) (segments : List Text) (isDirectory : Bool) :
    render name segments isDirectory = name ++ (path segments ++ mark segments isDirectory) := by
  rw [render, List.append_assoc]
  rfl

theorem render_marked (name : Text) {segments : List Text} (hne : segments ≠ []) :
    render name segments true = render name segments false ++ ['/'] := by
  simp [render, hne]

theorem filter_splitOn_marked {segments : List Text} (h : Named segments) (isDirectory : Bool) :
    ((path segments ++ mark segments isDirectory).splitOn '/').filter (· ≠ []) = segments := by
  unfold mark
  split
  · rw [splitOn_concat_slash, List.filter_append, filter_splitOn_path h]
    simp
  · rw [List.append_nil, filter_splitOn_path h]

theorem namesDirectory_getLastD_marked {segments : List Text} (h : Named segments)
    (isDirectory : Bool) :
    namesDirectory (((path segments ++ mark segments isDirectory).splitOn '/').getLastD []) =
      (decide (segments = []) || isDirectory) := by
  rcases List.eq_nil_or_concat segments with rfl | ⟨front, last, rfl⟩
  · rfl
  · rw [List.concat_eq_append] at h ⊢
    have hlast : IsName last := by simp_all
    cases isDirectory with
    | false =>
        have hmark : mark (front ++ [last]) false = [] := by simp [mark]
        rw [hmark, List.append_nil, splitOn_path h (by simp), ← List.cons_append,
          List.getLastD_eq_getLast?, List.getLast?_concat]
        simp [hlast.namesDirectory_eq_false]
    | true =>
        have hmark : mark (front ++ [last]) true = ['/'] := by simp [mark]
        rw [hmark, splitOn_concat_slash]
        simp [List.getLastD_eq_getLast?, namesDirectory]

theorem split_render {name : Text} {segments : List Text} (hname : IsRootName name)
    (h : Named segments) (isDirectory : Bool) :
    split .posix (render name segments isDirectory) =
      ⟨name, true, segments, decide (segments = []) || isDirectory⟩ := by
  have hne : render name segments isDirectory ≠ [] := by simp [render]
  have hdrop : (render name segments isDirectory).drop name.length =
      path segments ++ mark segments isDirectory := by
    rw [render_eq, List.drop_left]
  simp only [split, Platform.generic_posix, rootName_render hname h, hdrop,
    filter_splitOn_marked h, namesDirectory_getLastD_marked h]
  simp [hne, path]

theorem split_path {segments : List Text} (h : Named segments) :
    split .posix (path segments) = ⟨[], true, segments, decide (segments = [])⟩ := by
  simpa [render_eq, mark] using split_render (.inl rfl) h false

theorem comparableParts_render {name : Text} {segments : List Text} (hname : IsRootName name)
    (h : Named segments) (isDirectory : Bool) :
    comparableParts .posix (render name segments isDirectory) =
      .ok ⟨name, true, segments, decide (segments = []) || isDirectory⟩ := by
  have hne : render name segments isDirectory ≠ [] := by simp [render]
  have hdot : dot ∉ segments := fun hmem => (h dot hmem).ne_dot rfl
  have hdd : dotDot ∉ segments := fun hmem => (h dotDot hmem).ne_dotDot rfl
  simp [comparableParts, hne, split_render hname h, hdot, hdd]

/-- The host is asked for a canonical path without a root name by the path of its location. -/
theorem toText_ofText_render {segments : List Text} (h : Named segments) (isDirectory : Bool) :
    (Plain.ofText (render [] segments isDirectory)).toText = path segments := by
  have hlead : leadingSlashes (render [] segments isDirectory) = ['/'] :=
    leadingSlashes_slash (head?_join_ne_slash h _ fun he => by simp [he])
  have hself : segments.filter (· ≠ dot) = segments :=
    List.filter_eq_self.2 fun s hs => by simpa using (h s hs).ne_dot
  have hcomponents : ((render [] segments isDirectory).splitOn '/').filter
      (fun c => c ≠ [] ∧ c ≠ dot) = segments := by
    rw [render_eq, List.nil_append]
    calc _ = ((((path segments ++ mark segments isDirectory).splitOn '/').filter (· ≠ [])).filter
          (· ≠ dot)) := by
          rw [List.filter_filter]
          congr 1
          funext c
          simp [Bool.and_comm]
      _ = segments := by rw [filter_splitOn_marked h, hself]
  simp only [Plain.toText, Plain.ofText, hlead, hcomponents]
  simp [path]

theorem isBelow_render {name₁ name₂ : Text} {segments₁ segments₂ : List Text}
    (hname₁ : IsRootName name₁) (hname₂ : IsRootName name₂) (h₁ : Named segments₁)
    (h₂ : Named segments₂) (isDirectory₁ isDirectory₂ : Bool) :
    isBelow .posix (render name₁ segments₁ isDirectory₁) (render name₂ segments₂ isDirectory₂) =
      .ok (decide (name₁ = name₂ ∧ segments₁ <+: segments₂ ∧ segments₁ ≠ segments₂)) := by
  rw [isBelow_of_parts (comparableParts_render hname₁ h₁ isDirectory₁)
    (comparableParts_render hname₂ h₂ isDirectory₂)]

theorem IsRootName.rootName_eq {name : Text} (h : IsRootName name) :
    rootName .posix name = name := by
  rcases h with rfl | ⟨host, hne, hslash, rfl⟩
  · rfl
  · simpa using rootName_network hne hslash (.inr rfl)

theorem isUnc_posix (path : Text) : isUnc .posix path = decide (rootName .posix path ≠ []) := by
  rcases isRootName_rootName path with h | ⟨host, -, -, h⟩ <;> simp [isUnc, h]

theorem segments_eq (path : Text) :
    (split .posix path).segments =
      ((path.drop (rootName .posix path).length).splitOn '/').filter (· ≠ []) := rfl

theorem segments_of_rootName_eq_nil {path : Text} (h : rootName .posix path = []) :
    (split .posix path).segments = (path.splitOn '/').filter (· ≠ []) := by
  rw [segments_eq, h]
  rfl

theorem walkFromRoot_of_named {location : List Text} (h : Named location) :
    walkFromRoot location = location :=
  walkFromRoot_of_undotted fun s hs => ⟨(h s hs).ne_dot, (h s hs).ne_dotDot⟩

theorem named_walkFromRoot_of_pieces {segments : List Text}
    (h : ∀ s ∈ segments, s ≠ [] ∧ '/' ∉ s) : Named (walkFromRoot segments) := by
  intro s hs
  obtain ⟨hne, hslash⟩ := h s (mem_of_mem_walkFromRoot hs)
  obtain ⟨hdot, hdd⟩ := undotted_walkFromRoot segments s hs
  exact ⟨hne, hslash, hdot, hdd⟩

theorem named_walkFromRoot (path : Text) :
    Named (walkFromRoot (split .posix path).segments) := by
  refine named_walkFromRoot_of_pieces fun s hs => ⟨ne_nil_of_mem_segments hs, ?_⟩
  rw [segments_eq] at hs
  exact Text.not_mem_of_mem_splitOn (List.mem_filter.1 hs).1

/-- The canonical form of an anchored path names the place that a walk along the segments reaches. It
fails only where nothing is rooted behind the root name, since no place is named with dots. -/
theorem canonicalOfAnchored_eq (platform : Platform) (workDir anchored : Text)
    (isDirectory : Bool) :
    canonicalOfAnchored platform workDir anchored isDirectory =
      if (split platform anchored).rooted then
        .ok (render
          (if ¬ isUnc platform (split platform anchored).rootName ∧
            (split platform anchored).rootName = rootName platform workDir then []
          else (split platform anchored).rootName)
          (walkFromRoot (split platform anchored).segments) isDirectory)
      else .error (.violation (.anchoredPathNotRooted anchored)) := by
  have hdd : dotDot ∉ walkFromRoot (split platform anchored).segments := fun hmem =>
    (undotted_walkFromRoot _ dotDot hmem).2 rfl
  simp only [canonicalOfAnchored, dropLeadingDotDots_collapseDots, hdd, if_false]
  cases (split platform anchored).rooted <;> rfl

theorem canonicalOfAnchored_posix (workDir anchored : Text) (isDirectory : Bool) :
    canonicalOfAnchored .posix workDir anchored isDirectory =
      if (split .posix anchored).rooted then
        .ok (render (rootName .posix anchored) (walkFromRoot (split .posix anchored).segments)
          isDirectory)
      else .error (.violation (.anchoredPathNotRooted anchored)) := by
  have hkept : (if ¬ isUnc .posix (split .posix anchored).rootName ∧
      (split .posix anchored).rootName = rootName .posix workDir then []
      else (split .posix anchored).rootName) = rootName .posix anchored := by
    have hname : (split .posix anchored).rootName = rootName .posix anchored := rfl
    rw [hname, isUnc_posix, (isRootName_rootName anchored).rootName_eq]
    by_cases h : rootName .posix anchored = [] <;> simp [h]
  rw [canonicalOfAnchored_eq, hkept]

end SourceLoader.Path
