import SourceLoader.Fault
import SourceLoader.Text.Basic

/-!
The two kinds of host. They differ in the characters that separate the segments of a path: only a
Windows host takes the backslash for one.

A path taken apart: its root name, whether a separator follows that name, its segments, and whether
its last component says that it names a directory.

The segments `.` and `..`. A list of segments is collapsed from left to right: `.` is dropped and
`..` takes away the segment before it. At the front of the list there is nothing to take away, so a
run of `..` can stay there; below the root that run is dropped as well.

Which canonical paths lie below which. Only rooted paths without `.` and `..` can be compared. A
slash at the end makes no difference, and no path lies below itself.
-/

namespace SourceLoader

inductive Platform
  | posix
  | windows
  deriving DecidableEq

def Platform.isSeparator : Platform → Char → Bool
  | .posix, c => c = '/'
  | .windows, c => c = '/' || c = '\\'

def Platform.generic : Platform → Text → Text
  | .posix, path => path
  | .windows, path => path.map fun c => if c = '\\' then '/' else c

@[simp] theorem Platform.generic_posix (path : Text) : Platform.posix.generic path = path := rfl

@[simp] theorem Platform.generic_nil (p : Platform) : p.generic [] = [] := by
  cases p <;> rfl

@[simp] theorem Platform.generic_cons_windows (c : Char) (path : Text) :
    Platform.windows.generic (c :: path) =
      (if c = '\\' then '/' else c) :: Platform.windows.generic path := rfl

end SourceLoader

/-! ## Parts -/

namespace SourceLoader.Path

def isDriveLetter (c : Char) : Bool :=
  ('A' ≤ c && c ≤ 'Z') || ('a' ≤ c && c ≤ 'z')

/-- The drive that a path begins with, such as `C:`, or nothing. -/
def driveName : Text → Text
  | c :: ':' :: _ => if isDriveLetter c then [c, ':'] else []
  | _ => []

/-- The root name of a path: two equal separators and the host's name after them, or on Windows a
drive. A third separator directly after the two leaves the path without a host. -/
def rootName (platform : Platform) (path : Text) : Text :=
  let drive := match platform with
    | .posix => []
    | .windows => driveName path
  match path with
  | a :: b :: c :: rest =>
    if platform.isSeparator a ∧ b = a ∧ ¬ platform.isSeparator c then
      a :: b :: (c :: rest).takeWhile (! platform.isSeparator ·)
    else drive
  | _ => drive

def isUnc (platform : Platform) (path : Text) : Bool :=
  let name := rootName platform path
  match platform with
  | .posix => ['/', '/'].isPrefixOf name
  | .windows => ['/', '/'].isPrefixOf name || ['\\', '\\'].isPrefixOf name

def dot : Text := ['.']

def dotDot : Text := ['.', '.']

/-- A last component that stands for a directory whatever the host holds. -/
def namesDirectory (component : Text) : Bool :=
  component = [] || component = dot || component = dotDot

structure Parts where
  rootName : Text
  rooted : Bool
  segments : List Text
  isDirectory : Bool
  deriving DecidableEq

/-- Takes a path apart. Runs of separators count as one. -/
def split (platform : Platform) (path : Text) : Parts :=
  let generic := platform.generic path
  let name := Path.rootName platform generic
  let rest := generic.drop name.length
  let components := rest.splitOn '/'
  { rootName := name
    rooted := rest.head? = some '/'
    segments := components.filter (· ≠ [])
    isDirectory := generic ≠ [] && namesDirectory (components.getLastD []) }

theorem ne_nil_of_mem_segments {platform : Platform} {path segment : Text}
    (h : segment ∈ (split platform path).segments) : segment ≠ [] := by
  simpa using (List.mem_filter.1 h).2

/-! ## Dots -/

/-- Adds one segment to those collected so far, the last of which comes first. -/
def pushSegment (collected : List Text) (segment : Text) : List Text :=
  if segment = dot then collected
  else
    match collected with
    | [] => [segment]
    | last :: before =>
      if segment = dotDot ∧ last ≠ dotDot then before else segment :: collected

/-- The segments without `.`, and without the pairs that a `..` makes with the segment before it. -/
def collapseDots (segments : List Text) : List Text :=
  (segments.foldl pushSegment []).reverse

def dropLeadingDotDots (segments : List Text) : List Text :=
  segments.dropWhile (· = dotDot)

/-- One step of a walk through directories, from the location `at`: `.` stays, `..` goes to the
parent and stays at the root, any other segment descends. -/
def walkStep (location : List Text) (segment : Text) : List Text :=
  if segment = dot then location
  else if segment = dotDot then location.dropLast
  else location ++ [segment]

def walkFromRoot (segments : List Text) : List Text := segments.foldl walkStep []

/-! ## Comparison -/

def comparableParts (platform : Platform) (path : Text) : Except Fault Parts :=
  if path = [] then .error (.violation .emptyPath)
  else
    let parts := split platform path
    if ¬ parts.rooted then .error (.violation (.pathNotRooted path))
    else if dot ∈ parts.segments ∨ dotDot ∈ parts.segments then
      .error (.violation (.pathNotCanonical path))
    else .ok parts

def segmentsAfter? : (lead : List Text) → List Text → Option (List Text)
  | [], segments => some segments
  | _ :: _, [] => none
  | a :: lead, s :: segments => if a = s then segmentsAfter? lead segments else none

/-- The segments of `path` below `lead`, or none if it has another root or other segments. -/
def relativeSegments (platform : Platform) (lead path : Text) :
    Except Fault (Option (List Text)) := do
  let above ← comparableParts platform lead
  let below ← comparableParts platform path
  if above.rootName ≠ below.rootName then return none
  return segmentsAfter? above.segments below.segments

/-- Whether `path` lies strictly below the directory `lead`. -/
def isBelow (platform : Platform) (lead path : Text) : Except Fault Bool := do
  match ← relativeSegments platform lead path with
  | some (_ :: _) => return true
  | _ => return false

/-- The path relative to `lead` if it lies strictly below it, and the path itself otherwise. -/
def relativeTo (platform : Platform) (lead path : Text) : Except Fault Text := do
  match ← relativeSegments platform lead path with
  | some (s :: segments) =>
    let slash := if path.getLast? = some '/' then ['/'] else []
    return Text.join ['/'] (s :: segments) ++ slash
  | _ => return path

theorem segmentsAfter?_eq_some_iff {lead segments rest : List Text} :
    segmentsAfter? lead segments = some rest ↔ segments = lead ++ rest := by
  fun_induction segmentsAfter? lead segments with
  | case1 => simp [eq_comm]
  | case2 => simp
  | case3 => simp_all
  | case4 a lead s segments h => simp [Ne.symm h]

theorem isBelow_of_parts {platform : Platform} {lead path : Text} {above below : Parts}
    (hlead : comparableParts platform lead = .ok above)
    (hpath : comparableParts platform path = .ok below) :
    isBelow platform lead path =
      .ok (decide (above.rootName = below.rootName ∧ above.segments <+: below.segments ∧
        above.segments ≠ below.segments)) := by
  simp only [isBelow, relativeSegments, hlead, hpath, bind, Except.bind, pure, Except.pure]
  by_cases hroot : above.rootName = below.rootName
  · cases hafter : segmentsAfter? above.segments below.segments with
    | none =>
        have hprefix : ¬ above.segments <+: below.segments := by
          rintro ⟨rest, hrest⟩
          simp [segmentsAfter?_eq_some_iff.2 hrest.symm] at hafter
        simp [hroot, hprefix]
    | some rest =>
        have hsplit := segmentsAfter?_eq_some_iff.1 hafter
        cases rest <;> simp [hroot, hsplit]
  · simp [hroot]

theorem relativeTo_of_not_below {platform : Platform} {lead path : Text}
    (h : isBelow platform lead path = .ok false) : relativeTo platform lead path = .ok path := by
  unfold isBelow at h
  unfold relativeTo
  cases hsegments : relativeSegments platform lead path with
  | error fault =>
      rw [hsegments] at h
      cases h
  | ok segments =>
      rw [hsegments] at h
      match segments with
      | none | some [] => rfl
      | some (_ :: _) => cases h

end SourceLoader.Path
