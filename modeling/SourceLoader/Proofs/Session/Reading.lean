import Mathlib
import SourceLoader.Proofs.Host.Leading
import SourceLoader.Proofs.Host.Retraction
import SourceLoader.Proofs.Registry
import SourceLoader.Proofs.Session.Invariant
import SourceLoader.Proofs.Session.Search
import SourceLoader.Proofs.Session.SearchPath
import SourceLoader.Proofs.Text.Utf8

/-!
What a read leaves behind. A read that succeeds has taken the bytes of a file as they are, and the
text is stored under the name that was asked for, in the place that the name has if it has one. Any
other read leaves the session as it was. Of a file that may be read and opened, the bytes alone
decide which of the two happens.

Names that end like a directory: in a slash, in `.` or in `..`. The candidate for such a name ends
in a slash, so as it is written it names no file. But the host is asked for it without that slash,
and where a file stands there, the file is read.
-/

namespace SourceLoader

namespace Session

variable {host : Host} {s : Session} {kind name text : Text}

/-- A read either succeeds, having stored what was in a file, or leaves the session as it was. -/
theorem read_stores_or_keeps (host : Host) (s : Session) (kind name : Text) :
    (∃ path text, kind = sourceKind ∧ find host s.sandbox name = .ok (.loaded path text) ∧
        (s.read host kind name).1 = .ok ⟨true, text⟩ ∧
        (s.read host kind name).2.1 = { s with registry := s.registry.set name text }) ∨
      (∀ text, (s.read host kind name).1 ≠ .ok ⟨true, text⟩) ∧ (s.read host kind name).2.1 = s := by
  by_cases hkind : kind = sourceKind
  · simp only [read, if_pos hkind, load]
    cases hfind : find host s.sandbox name with
    | error fault => exact .inr (by cases fault <;> simp [conclude])
    | ok finding =>
        cases finding with
        | loaded path text => exact .inl ⟨path, text, hkind, rfl, rfl, rfl⟩
        | outside path | notFound path | notRegular path => exact .inr (by simp [conclude])
  · exact .inr (by simp [read, hkind])

theorem nodup_perform (h : s.registry.names.Nodup) (operation : Operation) :
    (s.perform host operation).2.registry.names.Nodup := by
  cases operation with
  | change change =>
      simp only [perform]
      split <;> exact h
  | isAllowed | unitName => exact h
  | setSource path text =>
      simp only [perform, setSource]
      cases s.sandbox.unitName host path with
      | error => exact h
      | ok name => exact Registry.nodup_set h name text
  | setStdin text => exact Registry.nodup_set h stdinName text
  | setSources sources => exact Registry.nodup_ofList sources
  | read kind name =>
      simp only [perform]
      rcases read_stores_or_keeps host s kind name with ⟨path, text, -, -, -, hafter⟩ | ⟨-, hafter⟩
      · rw [hafter]
        exact Registry.nodup_set h name text
      · rwa [hafter]

theorem Reachable.nodup_names (h : Reachable s) : s.registry.names.Nodup := by
  induction h with
  | start _ _ sources => exact Registry.nodup_ofList sources
  | step _ _ operation ih => exact nodup_perform ih operation

theorem content_of_find {path : Text} (h : find host s.sandbox name = .ok (.loaded path text)) :
    findCandidate host (withoutScheme name) [] s.sandbox.searchPrefixes = .ok path ∧
      ∃ location, host.lookup true (hostPath path) = .ok (.existing location) ∧
        host.tree.get? location = some (.file (Text.Utf8.encode text) false) := by
  rw [find_eq] at h
  obtain ⟨found, hcandidate, hinspect⟩ := bind_eq_ok.1 h
  obtain ⟨rfl, -, hisFile, hread⟩ := inspect_eq_loaded hinspect
  obtain ⟨location, bytes, denied, hlookup, hfile⟩ := Host.file_of_isFile hisFile
  obtain ⟨rfl, hdecode⟩ := Host.file_of_readText hlookup hfile hread
  rw [Text.Utf8.decode_eq_ok_iff] at hdecode
  exact ⟨hcandidate, location, hlookup, hdecode ▸ hfile⟩

/-- A read of a file that may be read and opened ends with what its bytes say. -/
theorem read_of_readBytes {path : Text} {bytes : Text.Utf8.Bytes}
    (hcandidate :
      findCandidate host (withoutScheme name) [] s.sandbox.searchPrefixes = .ok path)
    (hallowed : s.sandbox.isAllowed host path = .ok true)
    (hisFile : host.isFile (hostPath path) = .ok true)
    (hbytes : host.readBytes (hostPath path) = .ok bytes) (text : Text) :
    (s.read host sourceKind name).1 = .ok ⟨true, text⟩ ↔ Text.Utf8.decode bytes = .ok text := by
  cases hdecode : Text.Utf8.decode bytes with
  | ok text' =>
      have htext : host.readText (hostPath path) = .ok text' := by
        simp only [Host.readText, hbytes, hdecode]
      have hfind : find host s.sandbox name = .ok (.loaded path text') := by
        rw [find_eq, hcandidate]
        exact inspect_of_readable hallowed hisFile htext
      simp [read_of_find_loaded hfind]
  | error e =>
      have htext : host.readText (hostPath path) = .error (.malformed e) := by
        simp only [Host.readText, hbytes, hdecode]
      have hinspect : inspect host s.sandbox path = .error (.malformed e) := by
        simp only [inspect, hallowed, Host.pathExists_of_ask hisFile, hisFile, htext]
        rfl
      have hfind : find host s.sandbox name = .error (.malformed e) := by
        rw [find_eq, hcandidate]
        exact hinspect
      simp [(read_of_find_error hfind).2 text]

/-- What a read changes, and when it succeeds. Whatever is asked of whichever host, the directories
stay as they are, and so does what is registered unless the read succeeds. A text that is given was
in the file that was opened, byte for byte, and is then registered under the name as it was asked
for: in the place that the name had, or at the end. Of a file that may be read and opened, the
bytes alone decide whether the read succeeds. -/
theorem read_exact (h : Reachable s) (host : Host) (kind name : Text) :
    (Work.read host kind name).runOn s = ((s.read host kind name).1, (s.read host kind name).2.1) ∧
      (s.read host kind name).2.1.sandbox = s.sandbox ∧
      (∀ text, (s.read host kind name).1 = .ok ⟨true, text⟩ →
        (∃ path location,
          findCandidate host (withoutScheme name) [] s.sandbox.searchPrefixes = .ok path ∧
          host.lookup true (hostPath path) = .ok (.existing location) ∧
          host.tree.get? location = some (.file (Text.Utf8.encode text) false)) ∧
        (s.read host kind name).2.1.registry.entries =
          if name ∈ s.registry.names then
            s.registry.entries.map fun e => if e.1 = name then (name, text) else e
          else s.registry.entries ++ [(name, text)]) ∧
      ((∀ text, (s.read host kind name).1 ≠ .ok ⟨true, text⟩) →
        (s.read host kind name).2.1.registry = s.registry) ∧
      ∀ path bytes,
        findCandidate host (withoutScheme name) [] s.sandbox.searchPrefixes = .ok path →
        s.sandbox.isAllowed host path = .ok true →
        host.isFile (hostPath path) = .ok true → host.readBytes (hostPath path) = .ok bytes →
          ((∃ text, (s.read host sourceKind name).1 = .ok ⟨true, text⟩) ↔
            Text.Utf8.WellFormed bytes) := by
  refine ⟨Work.runOn_read host s kind name, ?_, ?_, ?_, ?_⟩
  · rcases read_stores_or_keeps host s kind name with ⟨path, text, -, -, -, hafter⟩ | ⟨-, hafter⟩
    · rw [hafter]
    · rw [hafter]
  · intro text hread
    rcases read_stores_or_keeps host s kind name with
      ⟨path, text', -, hfind, hread', hafter⟩ | ⟨hfails, -⟩
    · obtain rfl : text = text' := by simpa using hread.symm.trans hread'
      obtain ⟨hcandidate, location, hlookup, hfile⟩ := content_of_find hfind
      refine ⟨⟨path, location, hcandidate, hlookup, hfile⟩, ?_⟩
      rw [hafter]
      exact Registry.entries_set h.nodup_names name text
    · exact absurd hread (hfails text)
  · intro hfails
    rcases read_stores_or_keeps host s kind name with ⟨path, text, -, -, hread, -⟩ | ⟨-, hafter⟩
    · exact absurd hread (hfails text)
    · rw [hafter]
  · intro path bytes hcandidate hallowed hisFile hbytes
    simp only [read_of_readBytes hcandidate hallowed hisFile hbytes]
    exact Text.Utf8.exists_decode_iff

/-- A host with a file in which a mark of the byte order, both characters of a line ending, a NUL
and a character of four bytes stand, and one that spells a slash with two bytes. -/
def archive : Host where
  platform := .posix
  tree := ⟨[(["w".toList], .directory false),
    (["w".toList, "f".toList],
      .file [0xef, 0xbb, 0xbf, 0x0d, 0x0a, 0x00, 0xf0, 0x9f, 0x98, 0x80] false),
    (["w".toList, "g".toList], .file [0xc0, 0xaf] false)]⟩
  workDir := some ['/']

def archived : Session where
  sandbox := ⟨"/w".toList, [], []⟩
  registry := .ofList [("file://f".toList, "old".toList), ("other".toList, [])]

/-- The first file is read as it is and takes the place of what its name stood for; the second is
not read. -/
theorem read_exact_archived :
    Reachable archived ∧
      (archived.read archive sourceKind "file://f".toList).1 =
        .ok ⟨true, [Char.ofNat 0xfeff, '\r', '\n', '\x00', Char.ofNat 0x1f600]⟩ ∧
      (archived.read archive sourceKind "file://f".toList).2.1.registry.entries =
        [("file://f".toList, [Char.ofNat 0xfeff, '\r', '\n', '\x00', Char.ofNat 0x1f600]),
          ("other".toList, [])] ∧
      ¬ Text.Utf8.WellFormed [0xc0, 0xaf] ∧
      (archived.read archive sourceKind "g".toList).2.1.registry = archived.registry := by
  have hbuilt : (Sandbox.build archive "/w".toList [] []).1 = .ok archived.sandbox := by cbv
  have hreach : Reachable archived := .start rfl hbuilt _
  have hread : (archived.read archive sourceKind "file://f".toList).1 =
      .ok ⟨true, [Char.ofNat 0xfeff, '\r', '\n', '\x00', Char.ofNat 0x1f600]⟩ := by cbv
  obtain ⟨-, -, hsucceeds, -, -⟩ := read_exact hreach archive sourceKind "file://f".toList
  obtain ⟨-, hentries⟩ := hsucceeds _ hread
  have hplace : "file://f".toList ∈ archived.registry.names := by decide
  rw [if_pos hplace] at hentries
  obtain ⟨-, -, -, hkeeps, hdecides⟩ := read_exact hreach archive sourceKind "g".toList
  have hmalformed : ¬ Text.Utf8.WellFormed [0xc0, 0xaf] := by
    rw [← Text.Utf8.exists_decode_iff]
    rintro ⟨text, htext⟩
    have herror : Text.Utf8.decode [0xc0, 0xaf] = .error ⟨0xc0, 0, 1, .start⟩ := by cbv
    cases herror.symm.trans htext
  have hfails : ∀ text, (archived.read archive sourceKind "g".toList).1 ≠ .ok ⟨true, text⟩ :=
    fun text htext => hmalformed
      ((hdecides "/w/g".toList [0xc0, 0xaf] (by cbv) (by cbv) (by cbv) (by cbv)).1 ⟨text, htext⟩)
  exact ⟨hreach, hread, hentries.trans rfl, hmalformed, hkeeps hfails⟩

end Session

/-! ## Names that end like a directory -/

open SourceLoader.Path Location

namespace Host

variable {host : Host} {canonical : Text}

theorem isFile_workDir_ne (hposix : host.platform = .posix) (htrace : host.Traceable) {cwd : Text}
    (hcwd : host.workDir = some cwd) (habs : isAbsolute cwd = true)
    (hdir : host.isDirectory cwd = .ok true) (h : host.canonicalize [] true = .ok canonical) :
    host.isFile (Session.hostPath canonical) ≠ .ok true := by
  obtain ⟨work, entry, hlookup, hentry, hdirectory⟩ := entry_of_ask hdir
  obtain ⟨denied, rfl⟩ : ∃ denied, entry = .directory denied := by
    cases entry <;> simp_all [Entry.isDirectory]
  have hstands := stands_of_lookup habs hlookup
  have hnamed := hstands.clear.named
  have hwork := canonicalWorkDir_of_lookup hposix htrace hcwd habs hlookup
  obtain ⟨links, hroute⟩ := leadsTo_render hentry hnamed hstands.route false
  have hself : render [] work false = Location.path work := by simp [render_eq, mark]
  have hresolved : host.resolved [] = .ok (Location.path work) := by
    have hname : rootName .posix (Location.path work) = [] := (hasOneSlash_path hnamed).rootName_eq
    have hreal := realPath_of_route hposix htrace (hself ▸ rfl) hroute
    rw [hself] at hreal
    simpa [resolved_of_workDir hposix hwork, anchor_nil, isUnc_posix, hname] using hreal
  obtain rfl := Except.ok.inj (h.symm.trans (canonicalize_of_resolved hposix hnamed hresolved))
  intro hfile
  obtain ⟨location, bytes, denied', hplace, hbytes⟩ := file_of_isFile hfile
  rw [Session.hostPath, toText_ofText_render hnamed] at hplace
  obtain ⟨links', hroute'⟩ := exists_route_of_lookup rfl hplace
  obtain ⟨-, rfl⟩ := hroute.unique (hself ▸ hroute')
  rw [hentry] at hbytes
  cases hbytes

end Host

namespace Session

variable {host : Host} {s : Session} {root name text : Text} {rootName : Text}
  {segments : List Text}

theorem isDirectory_joinSearchPath (hroot : root = [] → name ≠ [])
    (hmarked : namesDirectory ((name.splitOn '/').getLastD []) = true) :
    (split .posix (joinSearchPath root name)).isDirectory = true := by
  unfold joinSearchPath
  split
  · next hnil =>
    rw [Host.isDirectory_iff]
    exact Host.endsInDirectory_of_namesDirectory (hroot hnil) hmarked
  · rw [isDirectory_below root (head?_dropWhile_slash name), getLastD_splitOn_dropWhile_slash,
      hmarked]

theorem hostPath_marked (hname : IsRootName rootName) (h : Named segments) (hne : segments ≠ []) :
    hostPath (render rootName segments true) = hostPath (render rootName segments false) := by
  rcases hname with rfl | ⟨network, hnetwork, hslash, rfl⟩
  · rw [hostPath, hostPath, toText_ofText_render h, toText_ofText_render h]
  · have hlead : ∀ isDirectory,
        leadingSlashes (render ('/' :: '/' :: network) segments isDirectory) = ['/', '/'] := by
      intro isDirectory
      rw [render_eq]
      exact leadingSlashes_network hnetwork hslash
    have hcomponents := splitOn_concat_slash (render ('/' :: '/' :: network) segments false)
    rw [← render_marked _ hne] at hcomponents
    simp [hostPath, Plain.ofText, hlead, hcomponents]

theorem segments_ne_nil_of_isAllowed (hposix : host.platform = .posix)
    (hname : IsRootName rootName) (h : Named segments) {isDirectory : Bool}
    (hallowed : s.sandbox.isAllowed host (render rootName segments isDirectory) = .ok true) :
    segments ≠ [] := by
  obtain ⟨directory, -, top, htop, hbelow⟩ := Sandbox.exists_of_liesBelowAny hallowed
  obtain ⟨name, above, isDirectory', hname', habove, rfl⟩ :=
    Host.isCanonical_of_canonicalize hposix htop
  rw [hposix, isBelow_render hname' hname habove h] at hbelow
  rintro rfl
  simp at hbelow

/-- The candidate for a name that ends like a directory is marked as one. Only where no base path is
set, the empty name stands for the working directory itself. -/
theorem exists_marked_of_findCandidate (hposix : host.platform = .posix)
    (hs : s.sandbox.WellFormed) (hne : name ≠ [] ∨ s.sandbox.basePath ≠ [])
    (hmarked : namesDirectory ((name.splitOn '/').getLastD []) = true) {path : Text}
    (h : findCandidate host name [] s.sandbox.searchPrefixes = .ok path) :
    ∃ rootName segments, IsRootName rootName ∧ Named segments ∧
      path = render rootName segments true := by
  obtain ⟨root, hchosen⟩ := exists_chosen_of_findCandidate (by simp [Sandbox.searchPrefixes]) h
  have hmem := hchosen.mem
  obtain ⟨-, -, -, -, hcanonical, -⟩ := hchosen
  have hroot : root = [] → name ≠ [] := by
    rintro rfl rfl
    exact (hs.isCanonical_of_mem_searchPrefixes (hne.resolve_left (by simp)) hmem).ne_nil rfl
  rw [← isDirectory_joinSearchPath hroot hmarked]
  exact Host.exists_render_of_canonicalize hposix hcanonical

theorem exists_readable_of_read (h : (s.read host sourceKind name).1 = .ok ⟨true, text⟩) :
    ∃ path, findCandidate host (withoutScheme name) [] s.sandbox.searchPrefixes = .ok path ∧
      s.sandbox.isAllowed host path = .ok true ∧ host.isFile (hostPath path) = .ok true ∧
      host.readText (hostPath path) = .ok text := by
  obtain ⟨path, hfind⟩ := find_eq_loaded_of_read h
  rw [find_eq] at hfind
  obtain ⟨found, hcandidate, hinspect⟩ := bind_eq_ok.1 hfind
  obtain ⟨rfl, hallowed, hisFile, hread⟩ := inspect_eq_loaded hinspect
  exact ⟨path, hcandidate, hallowed, hisFile, hread⟩

theorem exists_unmarked_of_isAllowed (hposix : host.platform = .posix)
    (hs : s.sandbox.WellFormed) (hne : name ≠ [] ∨ s.sandbox.basePath ≠ [])
    (hmarked : namesDirectory ((name.splitOn '/').getLastD []) = true) {path : Text}
    (h : findCandidate host name [] s.sandbox.searchPrefixes = .ok path)
    (hallowed : s.sandbox.isAllowed host path = .ok true) :
    ∃ file, path = file ++ ['/'] ∧ hostPath path = hostPath file := by
  obtain ⟨rootName, segments, hname, hnamed, rfl⟩ :=
    exists_marked_of_findCandidate hposix hs hne hmarked h
  have hsegments := segments_ne_nil_of_isAllowed hposix hname hnamed hallowed
  exact ⟨_, render_marked rootName hsegments, hostPath_marked hname hnamed hsegments⟩

theorem not_isFile_of_marked (hposix : host.platform = .posix) (hs : s.sandbox.WellFormed)
    (hne : name ≠ [] ∨ s.sandbox.basePath ≠ [])
    (hmarked : namesDirectory ((name.splitOn '/').getLastD []) = true) {path : Text}
    (h : findCandidate host name [] s.sandbox.searchPrefixes = .ok path) :
    path.getLast? = some '/' ∧ host.isFile path ≠ .ok true := by
  obtain ⟨rootName, segments, hname, hnamed, rfl⟩ :=
    exists_marked_of_findCandidate hposix hs hne hmarked h
  have hslash := (getLast?_render rootName hnamed true).2 (.inr rfl)
  have habs := IsCanonical.isAbsolute ⟨rootName, segments, true, hname, hnamed, rfl⟩
  exact ⟨hslash, fun hfile => Host.getLast?_ne_slash_of_isFile habs hfile hslash⟩

/-- Where a name ends like a directory, a file is read that stands under the candidate without its
last slash. -/
theorem read_eq_ok_iff_of_marked (hposix : host.platform = .posix) (hs : s.sandbox.WellFormed)
    (hne : withoutScheme name ≠ [] ∨ s.sandbox.basePath ≠ [])
    (hmarked : namesDirectory (((withoutScheme name).splitOn '/').getLastD []) = true)
    (text : Text) :
    (s.read host sourceKind name).1 = .ok ⟨true, text⟩ ↔
      ∃ file, findCandidate host (withoutScheme name) [] s.sandbox.searchPrefixes =
          .ok (file ++ ['/']) ∧
        s.sandbox.isAllowed host (file ++ ['/']) = .ok true ∧
        host.isFile (hostPath file) = .ok true ∧ host.readText (hostPath file) = .ok text := by
  constructor
  · intro hread
    obtain ⟨path, hcandidate, hallowed, hisFile, htext⟩ := exists_readable_of_read hread
    obtain ⟨file, rfl, hhost⟩ :=
      exists_unmarked_of_isAllowed hposix hs hne hmarked hcandidate hallowed
    rw [hhost] at hisFile htext
    exact ⟨file, hcandidate, hallowed, hisFile, htext⟩
  · rintro ⟨file, hcandidate, hallowed, hisFile, htext⟩
    obtain ⟨file', hfile, hhost⟩ :=
      exists_unmarked_of_isAllowed hposix hs hne hmarked hcandidate hallowed
    obtain rfl := List.append_cancel_right hfile
    have hfind : find host s.sandbox name = .ok (.loaded (file ++ ['/']) text) := by
      rw [find_eq, hcandidate]
      exact inspect_of_readable hallowed (hhost ▸ hisFile) (hhost ▸ htext)
    rw [read_of_find_loaded hfind]

theorem read_ne_ok_of_nil (hposix : host.platform = .posix) (hs : s.sandbox.WellFormed)
    (hnil : withoutScheme name = []) (hbase : s.sandbox.basePath = []) (htrace : host.Traceable)
    {cwd : Text} (hcwd : host.workDir = some cwd) (habs : isAbsolute cwd = true)
    (hdir : host.isDirectory cwd = .ok true) (text : Text) :
    (s.read host sourceKind name).1 ≠ .ok ⟨true, text⟩ := by
  intro hread
  obtain ⟨path, hcandidate, -, hisFile, -⟩ := exists_readable_of_read hread
  have hincludes : s.sandbox.includePaths = [] := by
    by_contra hincludes
    exact hs.base_ne_nil hincludes hbase
  obtain ⟨root, hchosen⟩ :=
    exists_chosen_of_findCandidate (by simp [Sandbox.searchPrefixes]) hcandidate
  obtain rfl : root = [] := by
    simpa [Sandbox.searchPrefixes, hbase, hincludes] using hchosen.mem
  obtain ⟨-, -, -, -, hcanonical, -⟩ := hchosen
  rw [hnil] at hcanonical
  exact Host.isFile_workDir_ne hposix htrace hcwd habs hdir hcanonical hisFile

/-- What a read of a name is that ends like a directory. The candidate ends in a slash, so it is not
a file as it is written; but the read succeeds where the candidate may be read and a file stands
under it without that slash. The empty name under no base path is the working directory, which is
none. In every other case the session stays as it was. -/
theorem read_marked (hposix : host.platform = .posix) (h : Reachable s)
    (hmarked : namesDirectory (((withoutScheme name).splitOn '/').getLastD []) = true) :
    (withoutScheme name ≠ [] ∨ s.sandbox.basePath ≠ [] →
        (∀ path, findCandidate host (withoutScheme name) [] s.sandbox.searchPrefixes = .ok path →
          path.getLast? = some '/' ∧ host.isFile path ≠ .ok true) ∧
        ∀ text, (s.read host sourceKind name).1 = .ok ⟨true, text⟩ ↔
          ∃ file, findCandidate host (withoutScheme name) [] s.sandbox.searchPrefixes =
              .ok (file ++ ['/']) ∧
            s.sandbox.isAllowed host (file ++ ['/']) = .ok true ∧
            host.isFile (hostPath file) = .ok true ∧ host.readText (hostPath file) = .ok text) ∧
      (withoutScheme name = [] → s.sandbox.basePath = [] → host.Traceable →
        ∀ cwd, host.workDir = some cwd → isAbsolute cwd = true → host.isDirectory cwd = .ok true →
          ∀ text, (s.read host sourceKind name).1 ≠ .ok ⟨true, text⟩) ∧
      ((∀ text, (s.read host sourceKind name).1 ≠ .ok ⟨true, text⟩) →
        (s.read host sourceKind name).2.1 = s) := by
  refine ⟨fun hne => ⟨fun path => ?_, ?_⟩, ?_, fun hfails => ?_⟩
  · exact not_isFile_of_marked hposix h.wellFormed hne hmarked
  · exact read_eq_ok_iff_of_marked hposix h.wellFormed hne hmarked
  · exact fun hnil hbase htrace _ hcwd habs hdir =>
      read_ne_ok_of_nil hposix h.wellFormed hnil hbase htrace hcwd habs hdir
  · rcases read_stores_or_keeps host s sourceKind name with
      ⟨path, text, -, -, hread, -⟩ | ⟨-, hafter⟩
    · exact absurd hread (hfails text)
    · exact hafter

def shelf : Host where
  platform := .posix
  tree := ⟨[(["a".toList], .directory false), (["a".toList, "f".toList], .file [70] false),
    (["a".toList, "d".toList], .directory false)]⟩
  workDir := some ['/']

def browsing : Session where
  sandbox := ⟨"/a".toList, [], []⟩
  registry := .empty

theorem reachable_browsing : Reachable browsing := by
  have hbuilt : (Sandbox.build shelf "/a".toList [] []).1 = .ok browsing.sandbox := by cbv
  exact .start rfl hbuilt []

/-- The name of the file with a dot behind it is read as the file, and the name of the directory is
not. -/
theorem read_marked_browsing :
    Reachable browsing ∧ (browsing.read shelf sourceKind "f/.".toList).1 = .ok ⟨true, ['F']⟩ ∧
      (∀ text, (browsing.read shelf sourceKind "d/".toList).1 ≠ .ok ⟨true, text⟩) ∧
      (browsing.read shelf sourceKind "d/".toList).2.1 = browsing := by
  have hreach := reachable_browsing
  have hbase : browsing.sandbox.basePath ≠ [] := by decide
  obtain ⟨hfile, -, -⟩ := @read_marked shelf browsing "f/.".toList rfl hreach (by decide)
  obtain ⟨hdirectory, -, hkeeps⟩ := @read_marked shelf browsing "d/".toList rfl hreach (by decide)
  have hread : (browsing.read shelf sourceKind "f/.".toList).1 = .ok ⟨true, ['F']⟩ :=
    ((hfile (.inr hbase)).2 ['F']).2 ⟨"/a/f".toList, by cbv, by cbv, by cbv, by cbv⟩
  have hfails : ∀ text, (browsing.read shelf sourceKind "d/".toList).1 ≠ .ok ⟨true, text⟩ := by
    intro text htext
    obtain ⟨file, hcandidate, -, hisFile, -⟩ := ((hdirectory (.inr hbase)).2 text).1 htext
    have hother : findCandidate shelf (withoutScheme "d/".toList) []
        browsing.sandbox.searchPrefixes = .ok ("/a/d".toList ++ ['/']) := by cbv
    obtain rfl := List.append_cancel_right (Except.ok.inj (hcandidate.symm.trans hother))
    have hno : shelf.isFile (hostPath "/a/d".toList) = .ok false := by cbv
    cases hno.symm.trans hisFile
  exact ⟨hreach, hread, hfails, hkeeps hfails⟩

/-- A name that ends in a slash can be read, and is then registered with that slash, although the
host says that no file has such a path. -/
theorem read_marked_succeeds :
    Reachable browsing ∧ namesDirectory (((withoutScheme "f/".toList).splitOn '/').getLastD []) ∧
      shelf.isFile "/a/f/".toList = .ok false ∧
      (browsing.read shelf sourceKind "f/".toList).1 = .ok ⟨true, ['F']⟩ ∧
      (browsing.read shelf sourceKind "f/".toList).2.1.registry.entries =
        [("f/".toList, ['F'])] :=
  ⟨reachable_browsing, by decide, by cbv, by cbv, by cbv⟩

end Session

end SourceLoader
