import Mathlib
import SourceLoader.Log.Record
import SourceLoader.Proofs.Json.RoundTrip

/-!
What the JSON log says. A record whose fields leave alone what it shows of its own is written as one
line of printable ASCII, and that line is read back as an object with exactly the members that the
record shows, in increasing order of their names. So a log gives back its records, one for each of
its lines, and nothing that a message or a field holds can pass for a further line.
-/

namespace SourceLoader.Log

/-! ### The times that can be written -/

/-- The year of a day, bounded by how often the calendar has repeated. -/
theorem year_ofMarchDays (days : Int) :
    days.fdiv daysPerEra * 400 ≤ (Date.ofMarchDays days).year ∧
      (Date.ofMarchDays days).year ≤ days.fdiv daysPerEra * 400 + 401 := by
  have hnonneg := Int.fmod_nonneg_of_pos days (b := daysPerEra) (by decide)
  have hlt := Int.fmod_lt_of_pos days (b := daysPerEra) (by decide)
  let day := (days.fmod daysPerEra).toNat
  -- January and February belong to the year that began in March, and are dated in the next.
  have hyear : ∃ begun : Int, (begun = 1 ∨ begun = 0) ∧ (Date.ofMarchDays days).year =
      ((day - day / 1460 + day / 36524 - day / 146096) / 365 : Nat) +
        days.fdiv daysPerEra * 400 + begun := ⟨_, ite_eq_or_eq _ _ _, rfl⟩
  obtain ⟨begun, hbegun, hyear⟩ := hyear
  simp only [day, daysPerEra] at hnonneg hlt hyear ⊢
  omega

/-- For a billion years around 1970, the clock reaches to a point in time. -/
theorem instantOf_of_natAbs_le {seconds : Int} (h : seconds.natAbs ≤ 2 ^ 55) :
    instantOf seconds = .ok (.ofSeconds seconds) ∧
      (Instant.ofSeconds seconds).date.year < yearLimit := by
  obtain ⟨hlow, hhigh⟩ := year_ofMarchDays (seconds.fdiv secondsPerDay + daysBefore1970)
  have hyear : (Instant.ofSeconds seconds).date.year =
      (Date.ofMarchDays (seconds.fdiv secondsPerDay + daysBefore1970)).year := rfl
  simp only [daysPerEra, secondsPerDay, daysBefore1970,
    Int.fdiv_eq_ediv_of_nonneg _ (by decide : (0 : Int) ≤ 146097),
    Int.fdiv_eq_ediv_of_nonneg _ (by decide : (0 : Int) ≤ 86400)] at hlow hhigh hyear
  simp only [instantOf, secondsLimit, yearLimit, hyear]
  refine ⟨?_, by omega⟩
  rw [if_neg (by omega), if_neg (by omega)]

theorem writeInstant_eq_ok {template : Text} {t : Instant} (hyear : t.date.year < yearLimit)
    (hnul : '\x00' ∉ template) : writeInstant template t = .ok (t.fill template) := by
  rw [writeInstant, if_neg (not_le.2 hyear), if_neg hnul]

theorem exists_timestamp {template : Option Text} {seconds : Int} (milliseconds : Int)
    (h : seconds.natAbs ≤ 2 ^ 55) (hnul : '\x00' ∉ template.getD []) :
    ∃ time, timestamp template seconds (.ok (.int milliseconds)) = .ok time := by
  obtain ⟨hinstant, hyear⟩ := instantOf_of_natAbs_le h
  have husual := writeInstant_eq_ok hyear (by decide : '\x00' ∉ dateTemplate)
  match template with
  | none | some [] => simp [timestamp, hinstant, husual, bind, Except.bind, pure, Except.pure,
      writeMilliseconds, Json.number?]
  | some (c :: rest) =>
      have hown := @writeInstant_eq_ok (c :: rest) _ hyear hnul
      simp [timestamp, hinstant, hown, bind, Except.bind]

namespace Record

/-! ### Records whose fields take the place of nothing -/

/-- The names under which a record looks for what it shows of its own. -/
def ownNames : List Text :=
  ["created".toList, "msecs".toList, "getMessage".toList, "msg".toList, "args".toList,
    "levelname".toList, "exc_info".toList]

/-- A record that has everything of its own, where no field takes the place of any of it, and no
object in a field has two members of one name. -/
structure Ordinary (r : Record) : Prop where
  whole : r.bare = false
  own : ∀ field ∈ r.fields, field.1 ∉ ownNames
  distinct : ∀ field ∈ r.fields, field.2.Distinct

def clockTime (template : Option Text) (r : Record) : Except Obstacle Text :=
  timestamp template r.seconds (.ok (.int r.milliseconds))

/-- What a record shows under a name, when it was written at `time`. -/
def shownValue (r : Record) (time : Text) (name : Text) : Option Json :=
  if name = "message".toList then some (.str r.message)
  else if name = "timestamp".toList then some (.str time)
  else if name = "level".toList then some (.str (levelName r.level))
  else if name = "run_id".toList then some (r.fieldOr "run_id".toList noRun)
  else if name = "component".toList then
    some (r.fieldOr "component".toList "unknown".toList)
  else if name = "exception".toList then r.exception.map .str
  else if name ∈ shownFields then r.fields.lookup name
  else none

/-- Whether a line is what the JSON log has for a record: it is printable and is read as an object
with members in increasing order, nested ones too, and just those that the record shows. -/
def ShownBy (template : Option Text) (r : Record) (line : Text) : Prop :=
  (∀ c ∈ line, Json.IsPrintable c) ∧
    ∃ time members, r.clockTime template = .ok time ∧ Json.read? line = some (.obj members) ∧
      (Json.obj members).Ordered ∧
      ∀ name, members.lookup name = (r.shownValue time name).map Json.sorted

variable {template : Option Text} {r : Record}

theorem Ordinary.lookup_eq_none (h : r.Ordinary) {name : Text} (hname : name ∈ ownNames) :
    r.fields.lookup name = none := by
  rw [List.lookup_eq_none_iff]
  intro field hfield
  rw [bne_iff_ne]
  rintro rfl
  exact h.own field hfield hname

theorem Ordinary.value_eq (h : r.Ordinary) {name : Text} (hname : name ∈ ownNames) (own : α)
    (ofField : Json → Except Obstacle α) : r.value name own ofField = .ok own := by
  simp [value, h.lookup_eq_none hname, h.whole]

theorem Ordinary.time_eq (h : r.Ordinary) : r.time template = r.clockTime template := by
  rw [time, h.value_eq (by decide), h.value_eq (by decide)]
  rfl

theorem Ordinary.messageText_eq (h : r.Ordinary) :
    r.messageText = .ok (CodePoints.ofText r.message) := by
  rw [messageText, h.lookup_eq_none (by decide), h.value_eq (by decide), h.value_eq (by decide)]
  rfl

theorem Ordinary.levelValue_eq (h : r.Ordinary) :
    r.levelValue = .ok (.str (levelName r.level)) := h.value_eq (by decide) _ _

theorem Ordinary.exceptionText_eq (h : r.Ordinary) : r.exceptionText = .ok r.exception :=
  h.value_eq (by decide) _ _

/-! ### The members of the object -/

theorem lookup_filterMap (fields : List (Text × Json)) (names : List Text) (name : Text) :
    (names.filterMap fun n => (fields.lookup n).map (n, ·)).lookup name =
      if name ∈ names then fields.lookup name else none := by
  induction names with
  | nil => rfl
  | cons first names ih =>
      cases hfirst : fields.lookup first with
      | none =>
          rw [List.filterMap_cons, hfirst, Option.map_none, ih]
          by_cases h : name = first
          · simp [h, hfirst]
          · simp [h]
      | some value =>
          rw [List.filterMap_cons, hfirst, Option.map_some]
          by_cases h : name = first
          · simp [h, hfirst]
          · simp [Text.lookup_cons_eq_ite, ih, h]

theorem sublist_map_filterMap (fields : List (Text × Json)) (names : List Text) :
    ((names.filterMap fun n => (fields.lookup n).map (n, ·)).map Prod.fst).Sublist names := by
  induction names with
  | nil => exact .slnil
  | cons first names ih =>
      cases hfirst : fields.lookup first with
      | none => simpa [hfirst] using ih.cons first
      | some value => simpa [hfirst] using ih.cons_cons first

def members (r : Record) (time : Text) : List (Text × Json) :=
  ("message".toList, .str r.message) ::
    r.details time (.str (levelName r.level)) r.exception

theorem nodup_members (r : Record) (time : Text) : ((r.members time).map Prod.fst).Nodup := by
  let head := ["message".toList, "timestamp".toList, "level".toList, "run_id".toList,
    "component".toList]
  have hall : (head ++ shownFields ++ ["exception".toList]).Nodup := by decide
  have hchosen := sublist_map_filterMap r.fields shownFields
  refine List.Sublist.nodup ?_ hall
  cases hexception : r.exception with
  | none =>
      simpa [members, details, head, hexception] using hchosen.trans (List.sublist_append_left _ _)
  | some exception =>
      simpa [members, details, head, hexception] using hchosen

theorem lookup_members (r : Record) (time name : Text) :
    (r.members time).lookup name = r.shownValue time name := by
  have hhidden : "exception".toList ∉ shownFields := by decide
  simp only [members, details, shownValue, List.cons_append, List.nil_append,
    Text.lookup_cons_eq_ite, List.lookup_append, lookup_filterMap]
  cases r.exception with
  | none =>
      simp only [List.lookup_nil, Option.or_none, Option.map_none]
      by_cases h : name = "exception".toList
      · simp only [h, if_neg hhidden, if_pos]
      · simp only [if_neg h]
  | some exception =>
      simp only [Text.lookup_cons_eq_ite, List.lookup_nil, Option.map_some]
      by_cases h : name = "exception".toList
      · simp only [h, if_neg hhidden, Option.none_or, if_pos]
      · simp only [if_neg h, Option.or_none]

theorem Ordinary.distinct_of_lookup (h : r.Ordinary) {name : Text} {value : Json}
    (hvalue : r.fields.lookup name = some value) : value.Distinct := by
  obtain ⟨front, back, hfields, -⟩ := List.lookup_eq_some_iff.1 hvalue
  exact h.distinct (name, value) (by simp [hfields])

theorem Ordinary.distinct_fieldOr (h : r.Ordinary) (name default : Text) :
    (r.fieldOr name default).Distinct := by
  unfold fieldOr
  cases hvalue : r.fields.lookup name with
  | none => exact .str default
  | some value => exact h.distinct_of_lookup hvalue

theorem Ordinary.distinct_members (h : r.Ordinary) (time : Text) :
    (Json.obj (r.members time)).Distinct := by
  refine .obj (nodup_members r time) fun m hm => ?_
  have hvalue : (r.members time).lookup m.1 = some m.2 :=
    (Text.lookup_eq_some_iff_mem (nodup_members r time)).2 hm
  rw [lookup_members] at hvalue
  unfold shownValue at hvalue
  split_ifs at hvalue
  · exact Option.some_inj.1 hvalue ▸ .str _
  · exact Option.some_inj.1 hvalue ▸ .str _
  · exact Option.some_inj.1 hvalue ▸ .str _
  · exact Option.some_inj.1 hvalue ▸ h.distinct_fieldOr _ _
  · exact Option.some_inj.1 hvalue ▸ h.distinct_fieldOr _ _
  · obtain ⟨exception, -, hexception⟩ := Option.map_eq_some_iff.1 hvalue
    exact hexception ▸ .str _
  · exact h.distinct_of_lookup hvalue

theorem Ordinary.jsonLine_eq (h : r.Ordinary) {time : Text} (ht : r.clockTime template = .ok time) :
    r.jsonLine template = .ok (Json.obj (r.members time)).render :=
  jsonLine_of_messageText (h.time_eq.trans ht) h.levelValue_eq h.messageText_eq h.exceptionText_eq

theorem Ordinary.jsonLine_eq_error (h : r.Ordinary) {obstacle : Obstacle}
    (ht : r.clockTime template = .error obstacle) : r.jsonLine template = .error obstacle := by
  simp [jsonLine, h.time_eq, ht, bind, Except.bind]

theorem Ordinary.exists_shownBy (h : r.Ordinary) {time : Text}
    (ht : r.clockTime template = .ok time) :
    ∃ line, r.jsonLine template = .ok line ∧ r.ShownBy template line := by
  refine ⟨_, h.jsonLine_eq ht, Json.isPrintable_of_mem_render, time, _, ht,
    Json.read?_render _, (h.distinct_members time).ordered_sorted, fun name => ?_⟩
  rw [← lookup_members]
  exact Json.member?_sorted (nodup_members r time) name

end Record

/-! ### The lines of a log -/

/-- The lines that a text was joined from. An empty text has none. -/
def linesOf (log : Text) : List Text := if log = [] then [] else log.splitOn '\n'

theorem linesOf_join {lines : List Text} (hbreak : ∀ line ∈ lines, '\n' ∉ line)
    (hempty : [] ∉ lines) : linesOf (Text.join ['\n'] lines) = lines := by
  cases lines with
  | nil => rfl
  | cons first rest =>
      have hsplit : (Text.join ['\n'] (first :: rest)).splitOn '\n' = first :: rest :=
        List.splitOn_intercalate '\n' hbreak (List.cons_ne_nil first rest)
      have hne : Text.join ['\n'] (first :: rest) ≠ [] := by
        intro hnil
        rw [hnil] at hsplit
        simp only [List.splitOn_nil, List.cons.injEq] at hsplit
        exact hempty (hsplit.1 ▸ List.mem_cons_self)
      rw [linesOf, if_neg hne, hsplit]

theorem exists_mapM_eq_ok {f : α → Except ε β} {R : α → β → Prop} {xs : List α}
    (h : ∀ x ∈ xs, ∃ y, f x = .ok y ∧ R x y) :
    ∃ ys, xs.mapM f = .ok ys ∧ List.Forall₂ R xs ys := by
  induction xs with
  | nil => exact ⟨[], rfl, .nil⟩
  | cons x xs ih =>
      obtain ⟨hx, hxs⟩ := List.forall_mem_cons.1 h
      obtain ⟨y, hy, hrel⟩ := hx
      obtain ⟨ys, hys, hrels⟩ := ih hxs
      exact ⟨y :: ys, by simp [List.mapM_cons, hy, hys, bind, Except.bind, pure, Except.pure],
        .cons hrel hrels⟩

namespace Record

variable {template : Option Text}

theorem ShownBy.newline_not_mem {r : Record} {line : Text} (h : r.ShownBy template line) :
    '\n' ∉ line := fun hmem => absurd (h.1 '\n' hmem) (by decide)

theorem ShownBy.ne_nil {r : Record} {line : Text} (h : r.ShownBy template line) : line ≠ [] := by
  rintro rfl
  obtain ⟨-, time, members, -, hread, -⟩ := h
  cases hread

theorem linesOf_join_of_shownBy {records : List Record} {lines : List Text}
    (h : List.Forall₂ (ShownBy template) records lines) :
    linesOf (Text.join ['\n'] lines) = lines := by
  have hline : ∀ line ∈ lines, '\n' ∉ line ∧ line ≠ [] := by
    induction h with
    | nil => simp
    | cons hshown _ ih =>
        exact List.forall_mem_cons.2 ⟨⟨hshown.newline_not_mem, hshown.ne_nil⟩, ih⟩
  exact linesOf_join (fun line hmem => (hline line hmem).1) fun hmem => (hline [] hmem).2 rfl

/-- The JSON log is a faithful encoding. Of records whose fields leave alone what they show of their
own it has one line each, and each line shows its record, so the log gives them all back. Only a
time more than a billion years away, or a template with NUL in it, can keep one from being
written. -/
theorem linesOf_jsonLog (template : Option Text) {records : List Record}
    (h : ∀ r ∈ records, r.Ordinary) :
    (∀ r ∈ records, r.seconds.natAbs ≤ 2 ^ 55 → '\x00' ∉ template.getD [] →
      ∃ time, r.clockTime template = .ok time) ∧
    (∀ r ∈ records, ∀ obstacle, r.clockTime template = .error obstacle →
      r.jsonLine template = .error obstacle) ∧
    ((∀ r ∈ records, ∃ time, r.clockTime template = .ok time) →
      ∃ lines, records.mapM (jsonLine template) = .ok lines ∧
        linesOf (Text.join ['\n'] lines) = lines ∧
        List.Forall₂ (ShownBy template) records lines) := by
  refine ⟨fun r _ hseconds hnul => exists_timestamp _ hseconds hnul,
    fun r hr _ => (h r hr).jsonLine_eq_error, fun htime => ?_⟩
  have hshown : ∀ r ∈ records, ∃ line,
      r.jsonLine template = .ok line ∧ r.ShownBy template line := by
    intro r hr
    obtain ⟨time, ht⟩ := htime r hr
    exact (h r hr).exists_shownBy ht
  obtain ⟨lines, hlines, hrel⟩ := exists_mapM_eq_ok hshown
  exact ⟨lines, hlines, linesOf_join_of_shownBy hrel, hrel⟩

def forgery : Record where
  logger := "sourcevfs.reader".toList
  level := warning
  message := "read\n\x7b\"level\": \"INFO\"\x7d\\\x7f\u2028😀".toList
  fields :=
    [("path".toList, .obj [("b".toList, .int (-7)), ("a".toList, .arr [.null, .bool true])]),
      ("hidden".toList, .str "x".toList)]
  exception := some "ValueError: broken\nagain".toList
  seconds := 1700000000
  milliseconds := 5
  bare := false

def early : Record where
  logger := "root".toList
  level := 20
  message := []
  fields := [("run_id".toList, .str "\r".toList), ("event".toList, .null)]
  exception := none
  seconds := -1
  milliseconds := 0
  bare := false

theorem ordinary_forgery : forgery.Ordinary where
  whole := rfl
  own := by decide
  distinct := by
    refine List.forall_mem_cons.2 ⟨.obj (by decide) ?_, List.forall_mem_singleton.2 (.str _)⟩
    refine List.forall_mem_cons.2 ⟨.int _, List.forall_mem_singleton.2 (.arr ?_)⟩
    exact List.forall_mem_cons.2 ⟨.null, List.forall_mem_singleton.2 (.bool true)⟩

theorem ordinary_early : early.Ordinary where
  whole := rfl
  own := by decide
  distinct := List.forall_mem_cons.2 ⟨.str _, List.forall_mem_singleton.2 .null⟩

/-- What is made to look like a further line comes back as what it was. -/
theorem linesOf_jsonLog_forgery :
    (∀ r ∈ [forgery, early], r.Ordinary) ∧
    ∃ lines, [forgery, early].mapM (jsonLine none) = .ok lines ∧
      linesOf (Text.join ['\n'] lines) = lines ∧
      List.Forall₂ (ShownBy none) [forgery, early] lines := by
  have hordinary : ∀ r ∈ [forgery, early], r.Ordinary :=
    List.forall_mem_cons.2 ⟨ordinary_forgery, List.forall_mem_singleton.2 ordinary_early⟩
  obtain ⟨htime, -, hlog⟩ := linesOf_jsonLog none hordinary
  have hseconds : ∀ r ∈ [forgery, early], r.seconds.natAbs ≤ 2 ^ 55 :=
    List.forall_mem_cons.2 ⟨by decide, List.forall_mem_singleton.2 (by decide)⟩
  exact ⟨hordinary, hlog fun r hr => htime r hr (hseconds r hr) List.not_mem_nil⟩

example : early.jsonLine none = .ok ("\x7b\"component\": \"unknown\", \"event\": null, " ++
    "\"level\": \"INFO\", \"message\": \"\", \"run_id\": \"\\r\", " ++
    "\"timestamp\": \"1969-12-31 23:59:59,000\"\x7d").toList := by
  cbv

end Record

end SourceLoader.Log
