import Mathlib.Data.List.TakeWhile
import SourceLoader.Path.Basic

/-!
The root name of a path as it is written, and as it is read with forward slashes for all separators.
A drive and the name of a host hold no separator, so the two agree unless the path begins with two
different separators. With forward slashes these become equal ones, and what follows them is taken
for a host.
-/

namespace SourceLoader

def Platform.forward : Platform → Char → Char
  | .posix, c => c
  | .windows, c => if c = '\\' then '/' else c

namespace Platform

variable {platform : Platform} {c : Char}

theorem generic_eq_map (platform : Platform) (path : Text) :
    platform.generic path = path.map platform.forward := by
  cases platform with
  | posix => exact (List.map_id' path).symm
  | windows => rfl

theorem isSeparator_slash (platform : Platform) : platform.isSeparator '/' = true := by
  cases platform <;> rfl

theorem forward_of_separator (h : platform.isSeparator c = true) : platform.forward c = '/' := by
  cases platform with
  | posix => simpa [forward, isSeparator] using h
  | windows => by_cases hc : c = '\\' <;> simp_all [forward, isSeparator]

theorem forward_of_not_separator (h : platform.isSeparator c = false) :
    platform.forward c = c := by
  cases platform with
  | posix => rfl
  | windows =>
      have hc : c ≠ '\\' := by
        rintro rfl
        cases h
      simp [forward, hc]

theorem forward_cases (platform : Platform) (c : Char) :
    platform.isSeparator c = true ∧ platform.forward c = '/' ∨
      platform.isSeparator c = false ∧ platform.forward c = c := by
  cases h : platform.isSeparator c with
  | true => exact .inl ⟨rfl, forward_of_separator h⟩
  | false => exact .inr ⟨rfl, forward_of_not_separator h⟩

theorem isSeparator_forward (platform : Platform) (c : Char) :
    platform.isSeparator (platform.forward c) = platform.isSeparator c := by
  rcases platform.forward_cases c with ⟨hsep, hc⟩ | ⟨-, hc⟩
  · rw [hc, hsep, isSeparator_slash]
  · rw [hc]

theorem takeWhile_generic (platform : Platform) (path : Text) :
    (platform.generic path).takeWhile (! platform.isSeparator ·) =
      platform.generic (path.takeWhile (! platform.isSeparator ·)) := by
  simp [generic_eq_map, List.takeWhile_map, Function.comp_def, isSeparator_forward]

end Platform

namespace Path

open Platform

variable {platform : Platform} {path : Text} {a b c : Char}

/-! ### Drives -/

theorem isSeparator_of_isDriveLetter (h : isDriveLetter c = true) :
    platform.isSeparator c = false := by
  have hc : c ≠ '/' ∧ c ≠ '\\' := by
    constructor <;> (rintro rfl; revert h; decide)
  cases platform <;> simp [Platform.isSeparator, hc]

theorem isDriveLetter_forward (platform : Platform) (c : Char) :
    isDriveLetter (platform.forward c) = isDriveLetter c := by
  rcases platform.forward_cases c with ⟨hsep, hc⟩ | ⟨-, hc⟩
  · rw [hc]
    cases hletter : isDriveLetter c with
    | true => simp [isSeparator_of_isDriveLetter hletter] at hsep
    | false => rfl
  · rw [hc]

theorem driveName_of_ne (h : b ≠ ':') (rest : Text) : driveName (a :: b :: rest) = [] := by
  unfold driveName
  split
  · simp_all
  · rfl

theorem driveName_generic (path : Text) :
    driveName (windows.generic path) = windows.generic (driveName path) := by
  match path with
  | [] | [_] => rfl
  | a :: b :: rest =>
    simp only [generic_eq_map, List.map_cons]
    by_cases hb : b = ':'
    · subst hb
      have hcolon : windows.forward ':' = ':' := rfl
      rw [hcolon]
      simp only [driveName, isDriveLetter_forward]
      split <;> simp [hcolon]
    · have hforward : windows.forward b ≠ ':' := by
        rcases windows.forward_cases b with ⟨-, h⟩ | ⟨-, h⟩ <;> simp [h, hb]
      rw [driveName_of_ne hb, driveName_of_ne hforward]
      rfl

/-! ### Hosts -/

/-- The root name of a path that leads to no other host. -/
def localRoot : Platform → Text → Text
  | .posix, _ => []
  | .windows, path => driveName path

theorem localRoot_generic (platform : Platform) (path : Text) :
    localRoot platform (platform.generic path) = platform.generic (localRoot platform path) := by
  cases platform with
  | posix => rfl
  | windows => exact driveName_generic path

/-- Whether a path begins with two separators and a character that is none. -/
def LeadsToHost (platform : Platform) (path : Text) : Prop :=
  ∃ a b c rest, path = a :: b :: c :: rest ∧ platform.isSeparator a = true ∧
    platform.isSeparator b = true ∧ platform.isSeparator c = false

/-- Whether a path leads to a host behind two separators that are not the same. -/
def LeadsMixed (platform : Platform) (path : Text) : Prop :=
  LeadsToHost platform path ∧ path[0]? ≠ path[1]?

theorem rootName_of_host (ha : platform.isSeparator a = true) (hc : platform.isSeparator c = false)
    (rest : Text) :
    rootName platform (a :: a :: c :: rest) =
      a :: a :: (c :: rest).takeWhile (! platform.isSeparator ·) :=
  if_pos ⟨ha, rfl, by simp [hc]⟩

theorem rootName_of_local (h : ¬ (LeadsToHost platform path ∧ path[0]? = path[1]?)) :
    rootName platform path = localRoot platform path := by
  match path with
  | [] | [_] | [_, _] => cases platform <;> rfl
  | a :: b :: c :: rest =>
    have hno : ¬ (platform.isSeparator a = true ∧ b = a ∧ ¬ platform.isSeparator c = true) := by
      rintro ⟨ha, rfl, hc⟩
      exact h ⟨⟨b, b, c, rest, rfl, ha, ha, by simpa using hc⟩, rfl⟩
    simp only [rootName, if_neg hno]
    cases platform <;> rfl

theorem isUnc_of_rootName {rest : Text} (h : rootName platform path = a :: a :: rest)
    (ha : platform.isSeparator a = true) : isUnc platform path = true := by
  cases platform with
  | posix =>
      obtain rfl : a = '/' := by simpa [isSeparator] using ha
      simp [isUnc, h]
  | windows =>
      have hlead : a = '/' ∨ a = '\\' := by simpa [isSeparator] using ha
      rcases hlead with rfl | rfl <;> simp [isUnc, h]

theorem isUnc_of_localRoot (h : rootName platform path = localRoot platform path) :
    isUnc platform path = false := by
  cases platform with
  | posix => simp [isUnc, h, localRoot]
  | windows =>
      simp only [isUnc, h, localRoot, driveName]
      split
      · split <;> simp [List.isPrefixOf]
      · rfl

theorem LeadsToHost.localRoot_eq (h : LeadsToHost platform path) :
    localRoot platform path = [] := by
  obtain ⟨a, b, c, rest, rfl, -, hb, -⟩ := h
  cases platform with
  | posix => rfl
  | windows => exact driveName_of_ne (by rintro rfl; cases hb) (c :: rest)

/-- With forward slashes, what stands behind two separators is a host whatever they are. -/
theorem LeadsToHost.rootName_split (h : LeadsToHost platform path) :
    (split platform path).rootName = '/' :: '/' :: platform.generic ((path.drop 2).takeWhile
      (! platform.isSeparator ·)) := by
  obtain ⟨a, b, c, rest, rfl, ha, hb, hc⟩ := h
  have hroot : (split platform (a :: b :: c :: rest)).rootName =
      rootName platform ('/' :: '/' :: platform.forward c :: rest.map platform.forward) := by
    simp [split, generic_eq_map, forward_of_separator ha, forward_of_separator hb]
  rw [hroot, rootName_of_host platform.isSeparator_slash (by rwa [isSeparator_forward]),
    List.drop_succ_cons, List.drop_succ_cons, List.drop_zero, ← takeWhile_generic]
  simp [generic_eq_map]

theorem not_isPrefix_of_isUnc (h : isUnc platform path = false) :
    ¬ ['/', '/'] <+: rootName platform path := by
  rw [← List.isPrefixOf_iff_prefix]
  cases platform <;> simp_all [isUnc]

theorem LeadsToHost.of_generic (h : LeadsToHost platform (platform.generic path)) :
    LeadsToHost platform path := by
  obtain ⟨a, b, c, rest, hpath, ha, hb, hc⟩ := h
  rw [generic_eq_map] at hpath
  match path with
  | [] | [_] | [_, _] => simp at hpath
  | a' :: b' :: c' :: rest' =>
    obtain ⟨rfl, rfl, rfl, -⟩ := by simpa using hpath
    rw [isSeparator_forward] at ha hb hc
    exact ⟨a', b', c', rest', rfl, ha, hb, hc⟩

/-- The root name of a path is read alike with the separators that it is written with and with
forward slashes, and is that of a host in both readings or in none, unless the path leads to a host
behind different separators. -/
theorem isUnc_split (platform : Platform) (path : Text) :
    ((isUnc platform path = true ↔ ['/', '/'] <+: (split platform path).rootName) ↔
        ¬ LeadsMixed platform path) ∧
      (platform.generic (rootName platform path) = (split platform path).rootName ↔
        ¬ LeadsMixed platform path) ∧
      (['/', '/'] <+: (split platform path).rootName ↔ LeadsToHost platform path) := by
  -- A path that leads to a host is read alike unless its separators differ; any other has a local
  -- root.
  by_cases hhost : LeadsToHost platform path
  · have hsplit := hhost.rootName_split
    have hlead : ['/', '/'] <+: (split platform path).rootName := hsplit ▸ ⟨_, rfl⟩
    have hfound := iff_of_true hlead hhost
    by_cases hsame : path[0]? = path[1]?
    · have hmixed : ¬ LeadsMixed platform path := fun h => h.2 hsame
      obtain ⟨a, b, c, rest, rfl, ha, -, hc⟩ := hhost
      obtain rfl : a = b := by simpa using hsame
      have hname := rootName_of_host ha hc rest
      have hunc := isUnc_of_rootName hname ha
      have hread : platform.generic (rootName platform (a :: a :: c :: rest)) =
          (split platform (a :: a :: c :: rest)).rootName := by
        rw [hsplit, hname]
        simp [generic_eq_map, forward_of_separator ha]
      exact ⟨iff_of_true (iff_of_true hunc hlead) hmixed, iff_of_true hread hmixed, hfound⟩
    · have hmixed : LeadsMixed platform path := ⟨hhost, hsame⟩
      have hname : rootName platform path = localRoot platform path :=
        rootName_of_local fun h => hsame h.2
      have hunc := isUnc_of_localRoot hname
      rw [hhost.localRoot_eq] at hname
      have hread : platform.generic (rootName platform path) ≠ (split platform path).rootName := by
        rw [hsplit, hname, generic_nil]
        exact (List.cons_ne_nil _ _).symm
      refine ⟨iff_of_false (fun h => ?_) (not_not.2 hmixed), iff_of_false hread (not_not.2 hmixed),
        hfound⟩
      rw [hunc] at h
      exact Bool.false_ne_true (h.2 hlead)
  · have hmixed : ¬ LeadsMixed platform path := fun h => hhost h.1
    have hname : rootName platform path = localRoot platform path :=
      rootName_of_local fun h => hhost h.1
    have hsplit : (split platform path).rootName = localRoot platform (platform.generic path) :=
      rootName_of_local fun h => hhost h.1.of_generic
    have hlead := not_isPrefix_of_isUnc (isUnc_of_localRoot hsplit)
    refine ⟨iff_of_true (iff_of_false ?_ hlead) hmixed, iff_of_true ?_ hmixed,
      iff_of_false hlead hhost⟩
    · simp [isUnc_of_localRoot hname]
    · rw [hsplit, hname, localRoot_generic]

/-- A host behind a slash and a backslash is found with forward slashes only. -/
theorem isUnc_split_mixed :
    isUnc .windows "/\\h".toList = false ∧ rootName .windows "/\\h".toList = [] ∧
      (split .windows "/\\h".toList).rootName = "//h".toList := by
  decide

end Path

end SourceLoader
