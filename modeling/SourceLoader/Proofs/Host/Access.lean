import SourceLoader.Host.Lookup
import SourceLoader.Proofs.Host.Canonicalize
import SourceLoader.Proofs.Host.Route

/-!
What the answers of a host say about its tree: a path that is said to name a file was looked up to
one, and the text that is read from it is what its bytes say. The canonical path of a directory to
which the way is clear leads to that directory.
-/

namespace SourceLoader

open SourceLoader.Path

namespace Host

variable {host : Host} {path : Text}

theorem request_eq_ok {α : Type} {answer : Except Errno α} {a : α}
    (h : request path answer = .ok a) : answer = .ok a := by
  unfold request at h
  split at h
  · cases h
  · cases answer with
    | error errno => cases h
    | ok b => exact congrArg Except.ok (Except.ok.inj h)

theorem entryAt_eq_ok {place : Except Errno Place} {entry : Entry}
    (h : host.entryAt place = .ok entry) :
    ∃ location, place = .ok (.existing location) ∧ host.tree.get? location = some entry := by
  unfold entryAt at h
  split at h
  · cases h
  · cases h
  · next location =>
    split at h
    · next entry' hentry => exact ⟨location, rfl, Except.ok.inj h ▸ hentry⟩
    · cases h

theorem entry_of_ask {question : Entry → Bool} (h : host.ask path question = .ok true) :
    ∃ location entry, host.lookup true path = .ok (.existing location) ∧
      host.tree.get? location = some entry ∧ question entry = true := by
  unfold ask at h
  split at h
  · next entry hstat =>
    obtain ⟨location, hplace, hentry⟩ := entryAt_eq_ok (request_eq_ok hstat)
    exact ⟨location, entry, hplace, hentry, Except.ok.inj h⟩
  · cases h
  · split at h
    · cases h
    · cases h
  · cases h

theorem nul_not_mem_of_ask {question : Entry → Bool} (h : host.ask path question = .ok true) :
    '\x00' ∉ path := by
  intro hnul
  simp [ask, stat, request, hnul] at h

theorem pathExists_of_ask {question : Entry → Bool} (h : host.ask path question = .ok true) :
    host.pathExists path = .ok true := by
  unfold ask at h
  unfold pathExists ask
  split at h
  · rfl
  · cases h
  · split at h <;> cases h
  · cases h

theorem file_of_isFile (h : host.isFile path = .ok true) :
    ∃ location bytes denied, host.lookup true path = .ok (.existing location) ∧
      host.tree.get? location = some (.file bytes denied) := by
  obtain ⟨location, entry, hlookup, hentry, hfile⟩ := entry_of_ask h
  cases entry with
  | file bytes denied => exact ⟨location, bytes, denied, hlookup, hentry⟩
  | directory | link | pipe => cases hfile

theorem getLast?_ne_slash_of_isFile (habs : isAbsolute path = true)
    (h : host.isFile path = .ok true) : path.getLast? ≠ some '/' := by
  obtain ⟨location, bytes, denied, hlookup, hfile⟩ := file_of_isFile h
  intro hslash
  obtain ⟨front, rfl⟩ := List.getLast?_eq_some_iff.1 hslash
  rw [lookup_of_isAbsolute host true habs, lookupFrom] at hlookup
  split at hlookup
  · cases hlookup
  · have hcomponents : ∀ c ∈ (front ++ ['/']).splitOn '/', '/' ∉ c :=
      fun _ => Text.not_mem_of_mem_splitOn
    obtain ⟨n, hroute⟩ := Tree.exists_route_of_walk hcomponents hlookup
    rw [splitOn_concat_slash] at hroute
    obtain ⟨there, k, m, -, hlast⟩ := hroute.split
    -- The empty component at the end asks for a directory.
    cases hlast with
    | step first onward =>
        cases onward
        cases first with
        | slash hdir =>
            rw [hdir] at hfile
            cases hfile
        | enter _ named => exact named.ne_nil rfl
    | follow _ named => exact named.ne_nil rfl

/-- A text that is read from a file is what the bytes of the file say, and no read of the file is
denied. -/
theorem file_of_readText {location : Location} {bytes : Text.Utf8.Bytes} {denied : Bool}
    {text : Text} (hlookup : host.lookup true path = .ok (.existing location))
    (hfile : host.tree.get? location = some (.file bytes denied))
    (h : host.readText path = .ok text) :
    denied = false ∧ Text.Utf8.decode bytes = .ok text := by
  unfold readText at h
  split at h
  · cases h
  · next bytes' hbytes =>
    have hread := request_eq_ok hbytes
    simp only [hlookup, entryAt, hfile, bind, Except.bind, readEntry] at hread
    cases denied with
    | true => cases hread
    | false =>
        obtain rfl : bytes = bytes' := by simpa using hread
        split at h
        · next text' htext => exact ⟨rfl, Except.ok.inj h ▸ htext⟩
        · cases h

theorem ask_of_lookup_eq {other : Text} {question : Entry → Bool} {answer : Bool}
    (hlookup : host.lookup true other = host.lookup true path) (hother : '\x00' ∉ other)
    (hpath : '\x00' ∉ path) (h : host.ask path question = .ok answer) :
    host.ask other question = .ok answer := by
  simp only [ask, stat, request, if_neg hother, if_neg hpath, hlookup] at h ⊢
  cases hentry : host.entryAt (host.lookup true path) with
  | ok entry => simpa [hentry] using h
  | error errno => cases habsent : errno.meansAbsent <;> simp_all

theorem readText_of_lookup_eq {other text : Text}
    (hlookup : host.lookup true other = host.lookup true path) (hother : '\x00' ∉ other)
    (hpath : '\x00' ∉ path) (h : host.readText path = .ok text) :
    host.readText other = .ok text := by
  simp only [readText, readBytes, request, if_neg hother, if_neg hpath, hlookup] at h ⊢
  cases hread : host.entryAt (host.lookup true path) >>= readEntry with
  | ok bytes => simpa [hread] using h
  | error errno => simp [hread] at h

/-- Whether the look-up of a path fails because something on the way does not exist or is no
directory. -/
def Absent (host : Host) (path : Text) : Prop :=
  ∃ e, host.stat path = .error (.os e) ∧ (e.errno = .notFound ∨ e.errno = .notDirectory)

theorem Absent.pathExists (h : host.Absent path) : host.pathExists path = .ok false := by
  obtain ⟨e, hstat, herrno⟩ := h
  have habsent : e.errno.meansAbsent = true := by
    rcases herrno with herrno | herrno <;> rw [herrno] <;> rfl
  simp [Host.pathExists, ask, hstat, habsent]

theorem Absent.nul_not_mem (h : host.Absent path) : '\x00' ∉ path := by
  obtain ⟨e, hstat, -⟩ := h
  intro hnul
  simp [stat, request, hnul] at hstat

theorem Absent.checkLength_eq (h : host.Absent path) (hne : path ≠ []) :
    checkLength path = .ok () := by
  have hnul := h.nul_not_mem
  obtain ⟨e, hstat, herrno⟩ := h
  rw [checkLength_eq_ok_iff]
  refine ⟨hne, Nat.lt_of_not_le fun hlong => ?_⟩
  have hcheck : checkLength path = .error .nameTooLong := by
    rw [checkLength, if_neg hne, if_pos hlong]
  have hlookup : host.lookup true path = .error .nameTooLong := by
    unfold lookup
    rw [hcheck]
  simp only [stat, request, if_neg hnul, hlookup, entryAt] at hstat
  obtain rfl := Fault.os.inj (Except.error.inj hstat)
  simp at herrno

theorem lookup_marked (host : Host) {followLast denied : Bool} {location : Location}
    (h : host.tree.Clear location) (hdir : host.tree.get? location = some (.directory denied))
    (isDirectory : Bool)
    (hshort : (Location.path location ++ mark location isDirectory).utf8Length < pathLimit) :
    host.lookup followLast (Location.path location ++ mark location isDirectory) =
      .ok (.existing location) := by
  have hcheck : checkLength (Location.path location ++ mark location isDirectory) = .ok () :=
    checkLength_eq_ok_iff.2 ⟨by simp [Location.path], hshort⟩
  obtain ⟨deniedRoot, hroot⟩ := host.tree.get?_root
  rw [lookup_of_isAbsolute host followLast rfl, lookupFrom, hcheck]
  -- The root has no name of its own, so that it is its slash that is looked up.
  rcases List.eq_nil_or_concat location with rfl | ⟨front, last, rfl⟩
  · simp only [mark, ne_eq, not_true_eq_false, false_and, if_false, List.append_nil,
      Location.splitOn_path_nil, walk_slash hroot]
    rw [walk]
  · rw [List.concat_eq_append] at h hdir ⊢
    have hsplit := Location.splitOn_path h.named (by simp)
    cases isDirectory with
    | false =>
        simp only [mark, Bool.false_eq_true, and_false, if_false, List.append_nil, hsplit,
          walk_slash hroot]
        have hwalk : walk host.tree followLast maxLinks [] (front ++ [last] ++ []) =
            walk host.tree followLast maxLinks (front ++ [last]) [] := walk_of_clear h hdir
        rw [List.append_nil] at hwalk
        rw [hwalk, walk]
    | true =>
        have hmark : mark (front ++ [last]) true = ['/'] := by simp [mark]
        simp only [hmark, splitOn_concat_slash, hsplit, List.cons_append, walk_slash hroot]
        rw [walk_of_clear h hdir, walk_slash hdir, walk]

end Host

theorem Location.utf8Length_marked_le {front location : Location} (h : front <+: location)
    (hne : front ≠ location) (isDirectory : Bool) :
    (path front ++ mark front isDirectory).utf8Length ≤ (path location).utf8Length := by
  obtain ⟨back, rfl⟩ := h
  cases back with
  | nil => simp at hne
  | cons name back =>
      have hprefix : front ++ [name] <+: front ++ name :: back := ⟨back, by simp⟩
      refine Nat.le_trans ?_ (utf8Length_path_le hprefix)
      by_cases hfront : front = []
      · subst hfront
        simp [mark, path_singleton]
      · rw [path_concat hfront]
        unfold mark
        split <;> simp

end SourceLoader
