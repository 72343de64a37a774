import SourceLoader.Fault
import SourceLoader.Path.Lexical
import SourceLoader.Text.Unicode

/-!
The file system of a host. A place in it is named by the segments that lead there from the root, and
the tree says what stands at a place: a file, a directory, a link or a pipe. The root is always a
directory.

A host as the loader sees it: its kind, its file system, and the answer to the question for the
working directory.
-/

namespace SourceLoader

/-- The segments from the root to a place, outermost first. -/
abbrev Location := List Text

inductive Entry
  | file (bytes : Text.Utf8.Bytes) (denied : Bool)
  | directory (denied : Bool)
  | link (target : Text)
  /-- A pipe, which keeps what is written to it. -/
  | pipe (bytes : Text.Utf8.Bytes)
  deriving DecidableEq

def Entry.isDirectory : Entry → Bool
  | .directory _ => true
  | _ => false

/-- Places and what stands there; of several entries for one place the first counts. -/
structure Tree where
  entries : List (Location × Entry)

namespace Tree

def empty : Tree := ⟨[]⟩

/-- What stands at a place. Only a directory can stand at the root. -/
def get? (t : Tree) (location : Location) : Option Entry :=
  match t.entries.lookup location with
  | some entry =>
    if location = [] ∧ ¬ entry.isDirectory then some (.directory false) else some entry
  | none => if location = [] then some (.directory false) else none

def isDirectoryAt (t : Tree) (location : Location) : Bool :=
  match t.get? location with
  | some entry => entry.isDirectory
  | none => false

def bytesAt (t : Tree) (location : Location) : Text.Utf8.Bytes :=
  match t.get? location with
  | some (.file bytes _) | some (.pipe bytes) => bytes
  | _ => []

def linkCount (t : Tree) : Nat :=
  t.entries.countP fun e => match e.2 with
    | .link _ => true
    | _ => false

def remove (t : Tree) (location : Location) : Tree :=
  ⟨t.entries.filter fun e => ¬ location.isPrefixOf e.1⟩

/-- Puts an entry at a place. A directory that is put where one stands keeps what it holds; every
other entry replaces what was there with all below it. -/
def set (t : Tree) (location : Location) (entry : Entry) : Tree :=
  if entry.isDirectory ∧ t.isDirectoryAt location then ⟨(location, entry) :: t.entries⟩
  else ⟨(location, entry) :: (t.remove location).entries⟩

def makeDirectories (t : Tree) (above : Location) : List Text → Tree
  | [] => t
  | segment :: rest =>
    let here := above ++ [segment]
    let t' := if t.isDirectoryAt here then t else t.set here (.directory false)
    makeDirectories t' here rest

def put (t : Tree) (location : Location) (entry : Entry) : Tree :=
  (t.makeDirectories [] location.dropLast).set location entry

def append (t : Tree) (location : Location) (bytes : Text.Utf8.Bytes) : Tree :=
  match t.get? location with
  | some (.file old denied) => ⟨(location, .file (old ++ bytes) denied) :: t.entries⟩
  | some (.pipe old) => ⟨(location, .pipe (old ++ bytes)) :: t.entries⟩
  | _ => t

theorem get?_of_ne_nil (t : Tree) {location : Location} (h : location ≠ []) :
    t.get? location = t.entries.lookup location := by
  unfold get?
  cases t.entries.lookup location <;> simp [h]

theorem lookup_filter {keep : Location × Entry → Bool} {location : Location}
    (h : ∀ entry, keep (location, entry) = true) (entries : List (Location × Entry)) :
    (entries.filter keep).lookup location = entries.lookup location := by
  induction entries with
  | nil => rfl
  | cons e entries ih =>
    obtain ⟨key, entry⟩ := e
    by_cases hk : location = key
    · subst hk
      rw [List.filter_cons_of_pos (h entry)]
      simp
    · have hne : (location == key) = false := beq_false_of_ne hk
      cases hkeep : keep (key, entry)
      · rw [List.filter_cons_of_neg (by simp [hkeep])]
        simp [List.lookup_cons, hne, ih]
      · rw [List.filter_cons_of_pos hkeep]
        simp [List.lookup_cons, hne, ih]

theorem get?_set_self (t : Tree) {location : Location} (h : location ≠ []) (entry : Entry) :
    (t.set location entry).get? location = some entry := by
  rw [get?_of_ne_nil _ h]
  unfold set
  split <;> simp

theorem get?_set_of_not_prefix (t : Tree) {location other : Location} (entry : Entry)
    (ho : other ≠ []) (h : location.isPrefixOf other = false) :
    (t.set location entry).get? other = t.get? other := by
  have hne : (other == location) = false := by
    refine beq_false_of_ne fun he => ?_
    have hself : location.isPrefixOf location = true := by simp
    rw [he, hself] at h
    exact absurd h (by simp)
  rw [get?_of_ne_nil _ ho, get?_of_ne_nil _ ho]
  unfold set
  split
  · simp [List.lookup_cons, hne]
  · have kept := @lookup_filter (fun e => ¬ location.isPrefixOf e.1) other
      (fun _ => by simp [h]) t.entries
    simpa [List.lookup_cons, hne, remove] using kept

theorem get?_root (t : Tree) : ∃ denied, t.get? [] = some (.directory denied) := by
  unfold get?
  split
  · next entry _ =>
    cases entry <;> simp [Entry.isDirectory]
  · exact ⟨false, by simp⟩

end Tree

/-! ## Hosts -/

structure Host where
  platform : Platform
  tree : Tree
  /-- The working directory as the host spells it; none when the host cannot tell. -/
  workDir : Option Text

namespace Host

def askWorkDir (host : Host) : Except Fault Text :=
  match host.workDir with
  | some path => .ok path
  | none => .error (.os ⟨.notFound, none⟩)

/-- The place where a look-up of `path` begins when it is met in the directory `here`. -/
def origin (path : Text) (here : Location) : Location :=
  if Path.isAbsolute path then [] else here

end Host

end SourceLoader
