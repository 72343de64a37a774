import Mathlib
import SourceLoader.Proofs.Json.Sorted
import SourceLoader.Proofs.Log.Report
import SourceLoader.Proofs.Session.Denial
import SourceLoader.Proofs.Session.Reading

/-!
The record that a read leaves in the log. Of the records that are taken during a read exactly one is
about its end, and it says the same as the answer. For a read that succeeds it names the import and
the path that the search decided for, and gives the number of characters that were read, which is
that of the bytes only for ASCII text.
-/

namespace SourceLoader

namespace Log

theorem lookup_filter_ne {name other : Text} (h : name ≠ other) (fields : List (Text × Json)) :
    (fields.filter (·.1 ≠ other)).lookup name = fields.lookup name := by
  induction fields with
  | nil => rfl
  | cons field fields ih =>
      obtain ⟨own, value⟩ := field
      by_cases hown : own = other
      · rw [List.filter_cons_of_neg (by simp [hown]), ih, Text.lookup_cons_eq_ite,
          if_neg (hown ▸ h)]
      · rw [List.filter_cons_of_pos (by simpa using hown), Text.lookup_cons_eq_ite,
          Text.lookup_cons_eq_ite, ih]

theorem lookup_ofNotice (seconds : Int) (notice : Notice) {name : Text}
    (h : name ≠ "component".toList) :
    (ofNotice seconds notice).fields.lookup name = notice.fields.lookup name := by
  rw [ofNotice, withComponent, Text.lookup_cons_eq_ite, if_neg h, lookup_filter_ne h]

def Record.event? (r : Record) : Option Text := r.fields.lookup "event".toList >>= Json.text?

theorem event?_ofNotice (seconds : Int) (notice : Notice) :
    (ofNotice seconds notice).event? = notice.event? := by
  rw [Record.event?, lookup_ofNotice seconds notice (by decide)]
  cases notice <;> rfl

end Log

namespace Session

open SourceLoader.Path Location

variable {host : Host} {s : Session} {kind name : Text} {answer : Answer} {j : Log.Journal}

def endEvents : List Text :=
  ["read_complete".toList, "read_outside_sandbox".toList, "read_not_found".toList,
    "read_not_regular_file".toList, "read_failed".toList]

def endsRead (r : Log.Record) : Bool := r.event?.any (· ∈ endEvents)

def endEvent (answer : Answer) : Text :=
  if answer.success then "read_complete".toList
  else if answer.content = outsideMessage then "read_outside_sandbox".toList
  else if answer.content = notFoundMessage then "read_not_found".toList
  else if answer.content = notRegularMessage then "read_not_regular_file".toList
  else "read_failed".toList

theorem endEvent_faultMessage (fault : Fault) :
    endEvent ⟨false, faultMessage fault⟩ = "read_failed".toList := by
  have hne : ∀ message : Text, message.head? ≠ some 'E' → faultMessage fault ≠ message := by
    rintro message hhead rfl
    exact hhead rfl
  rw [endEvent, if_neg (by simp), if_neg (hne _ (by decide)), if_neg (hne _ (by decide)),
    if_neg (hne _ (by decide))]

/-- What the record of a read says beside the event. For one that succeeded it names the import and
the path that the search decided for, which is the one that was opened unless it ends in a slash or
begins with the network root of a dot, and it gives the number of characters in the file. For one
that failed with a fault it names the kind of the fault. -/
structure Tells (host : Host) (s : Session) (name : Text) (answer : Answer) (r : Log.Record) :
    Prop where
  complete : answer.success = true → ∃ path location,
    findCandidate host (withoutScheme name) [] s.sandbox.searchPrefixes = .ok path ∧
      (hostPath path = path ∨ path.getLast? = some '/' ∨ "//./".toList <+: path) ∧
      host.lookup true (hostPath path) = .ok (.existing location) ∧
      host.tree.get? location = some (.file (Text.Utf8.encode answer.content) false) ∧
      r.fields.lookup "source_unit_name".toList = some (.str name) ∧
      r.fields.lookup "path".toList = some (.str path) ∧
      r.fields.lookup "bytes_in".toList = some (.int answer.content.length)
  failed : endEvent answer = "read_failed".toList → ∃ fault, answer.content = faultMessage fault ∧
    r.fields.lookup "error_type".toList = some (.str fault.kind)

theorem info_le_level {notice : Notice} {event : Text} (hevent : notice.event? = some event)
    (hend : event ∈ endEvents) : Log.info ≤ notice.level := by
  cases notice with
  | sourceSet | readStarted =>
      obtain rfl := Option.some.inj hevent
      exact absurd hend (by decide)
  | _ =>
      simp only [Notice.level]
      decide

/-- Where the loader's log is at a level for it, the one record that is about the end of a read is
that of the notice behind the first. -/
theorem filter_taken (hlevel : j.threshold = Log.debug ∨ j.threshold = Log.info) (seconds : Int)
    {notice : Notice} {event : Text} (hevent : notice.event? = some event)
    (hend : event ∈ endEvents) :
    (j.taken seconds [.readStarted (some name), notice]).filter endsRead =
      [Log.ofNotice seconds notice] := by
  have hpos : 0 < j.threshold ∧ j.threshold ≤ Log.info := by
    rcases hlevel with h | h <;> rw [h] <;> decide
  have hstarted : endsRead (Log.ofNotice seconds (.readStarted (some name))) = false := by
    rw [endsRead, Log.event?_ofNotice]
    rfl
  have hended : endsRead (Log.ofNotice seconds notice) = true := by
    rw [endsRead, Log.event?_ofNotice, hevent]
    simpa using hend
  have htaken : j.isEnabled notice.logger notice.level = true :=
    (Log.Journal.isEnabled_iff (j.isOwn_notice notice) hpos.1).2
      (hpos.2.trans (info_le_level hevent hend))
  have hfilter : [Log.ofNotice seconds notice].filter
      (fun r => endsRead r && j.isEnabled r.logger r.level) = [Log.ofNotice seconds notice] :=
    List.filter_cons_of_pos (by rw [hended]; exact htaken)
  rw [Log.Journal.taken, List.filter_filter, List.map_cons,
    List.filter_cons_of_neg (by simp [hstarted]), List.map_singleton, hfilter]

/-- A path that may be read is opened as it is recorded, unless it ends in a slash, which is left
out, or begins with the network root of a dot. -/
theorem hostPath_of_isAllowed (hposix : host.platform = .posix) {path : Text}
    (hcandidate : findCandidate host (withoutScheme name) [] s.sandbox.searchPrefixes = .ok path)
    (hallowed : s.sandbox.isAllowed host path = .ok true) :
    hostPath path = path ∨ path.getLast? = some '/' ∨ "//./".toList <+: path := by
  obtain ⟨root, hchosen⟩ :=
    exists_chosen_of_findCandidate (by simp [Sandbox.searchPrefixes]) hcandidate
  obtain ⟨-, -, -, -, hcanonical, -⟩ := hchosen
  obtain ⟨rootName, segments, isDirectory, hname, hnamed, rfl⟩ :=
    Host.isCanonical_of_canonicalize hposix hcanonical
  have hne := segments_ne_nil_of_isAllowed hposix hname hnamed hallowed
  cases isDirectory with
  | true => exact .inr (.inl ((getLast?_render rootName hnamed true).2 (.inr rfl)))
  | false =>
      rcases hostPath_render hname hnamed hne with hsame | ⟨rfl, -⟩
      · exact .inl hsame
      · obtain ⟨first, rest, rfl⟩ := List.exists_cons_of_ne_nil hne
        exact .inr (.inr ⟨Text.join ['/'] (first :: rest), by rw [render_dot]; rfl⟩)

theorem tells_of_find_loaded (hposix : host.platform = .posix) {path text : Text}
    (hfind : find host s.sandbox name = .ok (.loaded path text)) (seconds : Int) :
    Tells host s name ⟨true, text⟩
      (Log.ofNotice seconds (.readComplete name path text.length)) := by
  obtain ⟨hcandidate, location, hlookup, hfile⟩ := content_of_find hfind
  have hinspect := hfind
  rw [find_eq, hcandidate] at hinspect
  obtain ⟨-, hallowed, -, -⟩ := inspect_eq_loaded hinspect
  have hopened := hostPath_of_isAllowed hposix hcandidate hallowed
  refine ⟨fun _ => ⟨path, location, hcandidate, hopened, hlookup, hfile, ?_, ?_, ?_⟩, ?_⟩
  · rw [Log.lookup_ofNotice seconds _ (by decide)]
    rfl
  · rw [Log.lookup_ofNotice seconds _ (by decide)]
    rfl
  · rw [Log.lookup_ofNotice seconds _ (by decide)]
    rfl
  · exact fun h => absurd h (by simp only [endEvent, if_true]; decide)

theorem tells_of_faultNotice (fault : Fault) (seconds : Int) :
    Tells host s name ⟨false, faultMessage fault⟩
      (Log.ofNotice seconds (faultNotice name fault)) := by
  refine ⟨fun h => absurd h (by simp), fun _ => ⟨fault, rfl, ?_⟩⟩
  rw [Log.lookup_ofNotice seconds _ (by decide)]
  cases fault <;> rfl

/-- The record of a read. Let the loader's log be at level INFO or DEBUG, and let a read give an
answer. Of the records that the log takes during the read exactly one has an event of the end of a
read. It is the event that goes with the answer, and the record tells what was read or what failed.
The number of characters that it gives is the number of bytes for ASCII text, and is less for any
other. What the read adds to the log is these records, each written once and in their order. -/
theorem read_audited (hposix : host.platform = .posix)
    (hlevel : j.threshold = Log.debug ∨ j.threshold = Log.info)
    (hread : (s.read host kind name).1 = .ok answer) (seconds : Int) :
    (∀ run, j.report run seconds (s.read host kind name).2.2 =
        (j.taken seconds (s.read host kind name).2.2).foldl (fun k r => k.deliver run r) j) ∧
      (∃ r, (j.taken seconds (s.read host kind name).2.2).filter endsRead = [r] ∧
        r.event? = some (endEvent answer) ∧ Tells host s name answer r) ∧
      answer.content.length ≤ (Text.Utf8.encode answer.content).length ∧
      ((Text.Utf8.encode answer.content).length = answer.content.length ↔
        ∀ c ∈ answer.content, c.toNat < 0x80) := by
  refine ⟨fun run => j.report_eq_foldl_taken run seconds _, ?_,
    Text.Utf8.length_le_length_encode _, Text.Utf8.length_encode_eq_length_iff _⟩
  obtain rfl : kind = sourceKind := by
    by_contra hkind
    rw [read, if_neg hkind] at hread
    cases hread
  -- The answers that are no fault and no text say in one message what their event says.
  have hplain : ∀ message, endEvent ⟨false, message⟩ ≠ "read_failed".toList → ∀ r,
      Tells host s name ⟨false, message⟩ r :=
    fun message hne r => ⟨fun h => absurd h (by simp), fun h => absurd h hne⟩
  simp only [read, if_true, load] at hread ⊢
  cases hfind : find host s.sandbox name with
  | ok finding =>
      rw [hfind] at hread
      cases finding with
      | outside path =>
          obtain rfl := Except.ok.inj hread
          exact ⟨_, filter_taken hlevel seconds rfl (by decide),
            Log.event?_ofNotice _ _, hplain _ (by decide) _⟩
      | notFound path =>
          obtain rfl := Except.ok.inj hread
          exact ⟨_, filter_taken hlevel seconds rfl (by decide),
            Log.event?_ofNotice _ _, hplain _ (by decide) _⟩
      | notRegular path =>
          obtain rfl := Except.ok.inj hread
          exact ⟨_, filter_taken hlevel seconds rfl (by decide),
            Log.event?_ofNotice _ _, hplain _ (by decide) _⟩
      | loaded path text =>
          obtain rfl := Except.ok.inj hread
          exact ⟨_, filter_taken hlevel seconds rfl (by decide),
            Log.event?_ofNotice _ _, tells_of_find_loaded hposix hfind seconds⟩
  | error fault =>
      rw [hfind] at hread
      have hanswer : answer = ⟨false, faultMessage fault⟩ ∧
          (s.conclude name (.error fault)).2.2 = [faultNotice name fault] := by
        cases fault <;> first | (cases hread; done) | (cases hread; exact ⟨rfl, rfl⟩)
      obtain ⟨rfl, hnotice⟩ := hanswer
      have hevent : (faultNotice name fault).event? = some "read_failed".toList := by
        cases fault <;> rfl
      simp only [hnotice]
      refine ⟨_, filter_taken hlevel seconds hevent (by decide), ?_,
        tells_of_faultNotice fault seconds⟩
      rw [Log.event?_ofNotice, hevent, endEvent_faultMessage]

def accented : Host where
  platform := .posix
  tree := ⟨[(["a".toList], .directory false),
    (["a".toList, "f".toList], .file [0xc3, 0xa9] false)]⟩
  workDir := some ['/']

def watching : Log.Journal := { Log.Journal.initial accented with threshold := Log.info }

/-- The log has one record of the end of a read of that file, and it tells of the read. -/
theorem read_audited_accented :
    (browsing.read accented sourceKind "f".toList).1 = .ok ⟨true, ['é']⟩ ∧
      ∃ r, (watching.taken 0 (browsing.read accented sourceKind "f".toList).2.2).filter endsRead =
          [r] ∧
        r.event? = some "read_complete".toList ∧
        Tells accented browsing "f".toList ⟨true, ['é']⟩ r := by
  have hread : (browsing.read accented sourceKind "f".toList).1 = .ok ⟨true, ['é']⟩ := by cbv
  exact ⟨hread, (read_audited rfl (.inr rfl) hread 0).2.1⟩

/-- That record gives one byte for the two that were read. -/
theorem read_audited_short :
    (browsing.read accented sourceKind "f".toList).1 = .ok ⟨true, ['é']⟩ ∧
      ((watching.taken 0 (browsing.read accented sourceKind "f".toList).2.2).filter endsRead).map
          (·.fields.lookup "bytes_in".toList) = [some (.int 1)] ∧
      accented.readBytes "/a/f".toList = .ok [0xc3, 0xa9] := by
  have hfind : find accented browsing.sandbox "f".toList =
      .ok (.loaded "/a/f".toList ['é']) := by cbv
  refine ⟨by cbv, ?_, by cbv⟩
  rw [read_of_find_loaded hfind, filter_taken (.inr rfl) 0 rfl (by decide), List.map_singleton,
    Log.lookup_ofNotice 0 _ (by decide)]
  rfl

end Session

end SourceLoader
