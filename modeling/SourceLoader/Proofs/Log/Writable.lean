import Mathlib
import SourceLoader.Log.Journal
import SourceLoader.Proofs.Log.Line

/-!
Which records can be written. A record has all that its two written forms ask for where no field
stands in the place of something of its own and the clock reaches to its time. The records of
notices are such, and those of log calls unless a field takes the place of the message itself. Both
forms say more than the bare message does, and so are longer.
-/

namespace SourceLoader.Json

variable {members : List (Text × Text)}

theorem sum_length_le_length_join (pieces : List Text) :
    (pieces.map List.length).sum ≤ (Text.join separator pieces).length := by
  induction pieces with
  | nil => simp
  | cons piece pieces ih =>
      cases pieces with
      | nil => simp [join_singleton]
      | cons next rest =>
          rw [join_cons_cons, List.map_cons, List.sum_cons]
          simp only [List.length_append, List.length_cons]
          omega

theorem length_le_length_renderMember (name value : Text) :
    value.length + 4 ≤ (renderMember (name, value)).length := by
  simp only [renderMember, renderText, List.length_append, List.length_cons, List.length_nil]
  omega

theorem length_le_length_renderText (t : Text) : t.length + 2 ≤ (renderText t).length := by
  have := length_le_flatMap_escapeChar t
  simp only [renderText, List.length_append, List.length_cons, List.length_nil]
  omega

theorem sum_length_le_length_renderObject {some : List (Text × Text)} (h : some.Sublist members) :
    (some.map fun m => (renderMember m).length).sum ≤ (renderObject members).length := by
  have hpieces := sum_length_le_length_join ((sortMembers members).map renderMember)
  rw [List.map_map, (((sortMembers_perm members).map _).sum_eq)] at hpieces
  have hsome : (some.map fun m => (renderMember m).length).sum ≤
      (members.map (List.length ∘ renderMember)).sum := (h.map _).sum_le_sum (by simp)
  simp only [renderObject, List.length_append, List.length_cons]
  omega

end SourceLoader.Json

namespace SourceLoader.Log

namespace Record

/-- The names that no field of a record may have for it to be written as it is. -/
def takenNames : List Text := "getMessage".toList :: reservedNames

/-- A record that has everything of its own and whose time the clock reaches to. -/
structure Writable (r : Record) : Prop where
  whole : r.bare = false
  own : ∀ field ∈ r.fields, field.1 ∉ takenNames
  reached : r.seconds.natAbs ≤ 2 ^ 55

def bareLength (r : Record) : Nat := r.message.length + 1 + r.exception.elim 0 (·.length + 1)

variable {r : Record}

theorem Writable.lookup_eq_none (h : r.Writable) {name : Text} (hname : name ∈ takenNames) :
    r.fields.lookup name = none := by
  rw [List.lookup_eq_none_iff]
  intro field hfield
  rw [bne_iff_ne]
  rintro rfl
  exact h.own field hfield hname

theorem Writable.value_eq (h : r.Writable) {name : Text} (hname : name ∈ takenNames) (own : α)
    (ofField : Json → Except Obstacle α) : r.value name own ofField = .ok own := by
  simp [value, h.lookup_eq_none hname, h.whole]

theorem Writable.shown_eq (h : r.Writable) {name : Text} (hname : name ∈ takenNames)
    (own : Text) : r.shown name (some own) = .ok own := by
  simp [shown, h.lookup_eq_none hname, h.whole]

theorem Writable.exists_time (h : r.Writable) : ∃ time, r.time (some dateTemplate) = .ok time := by
  rw [time, h.value_eq (by decide), h.value_eq (by decide)]
  have hnul : '\x00' ∉ (some dateTemplate).getD [] := by decide
  exact exists_timestamp r.milliseconds h.reached hnul

theorem Writable.messageText_eq (h : r.Writable) :
    r.messageText = .ok (CodePoints.ofText r.message) := by
  rw [messageText, h.lookup_eq_none (by decide), h.value_eq (by decide), h.value_eq (by decide)]
  rfl

theorem Writable.exceptionPart_eq (h : r.Writable) :
    r.exceptionPart = .ok (.ofOption r.exception) := by
  rw [exceptionPart, h.value_eq (by decide), h.value_eq (by decide), exceptionText,
    h.value_eq (by decide)]
  rfl

theorem exists_addPart (line : Text) (part : Option Text) :
    ∃ text, addPart (CodePoints.ofText line) (.ofOption part) = .ok (CodePoints.ofText text) ∧
      line.length + part.elim 0 List.length ≤ text.length := by
  match part with
  | none | some [] => exact ⟨line, rfl, by simp⟩
  | some (c :: rest) =>
      have hpart : (Json.str (c :: rest)).isNone = false := rfl
      simp only [Json.ofOption, addPart, hpart]
      by_cases hfeed : (CodePoints.ofText line).getLast? = some '\n'.toNat
      · exact ⟨line ++ c :: rest, by simp [hfeed], by simp⟩
      · refine ⟨line ++ '\n' :: c :: rest, ?_, by simp⟩
        rw [if_neg hfeed]
        simp

theorem Writable.exists_plainLine (h : r.Writable) {run : Json}
    (hrun : r.fields.lookup "run_id".toList = some run) :
    ∃ text, r.plainLine (some dateTemplate) = .ok (CodePoints.ofText text) ∧
      r.bareLength ≤ text.length := by
  obtain ⟨time, htime⟩ := h.exists_time
  have hshown : r.shown "run_id".toList none = .ok run.display := by
    simp only [shown, hrun]
  let head := time ++ ' ' :: levelName r.level ++ ' ' :: '[' :: run.display ++
    ']' :: ' ' :: r.logger ++ " :: ".toList
  have hhead : 2 ≤ head.length := by
    simp only [head, List.length_append, List.length_cons]
    omega
  obtain ⟨line, hline, hlength⟩ := exists_addPart (head ++ r.message) r.exception
  refine ⟨line, ?_, ?_⟩
  · rw [plainLine, h.messageText_eq, htime, h.shown_eq (by decide), hshown,
      h.shown_eq (by decide), h.exceptionPart_eq, h.value_eq (by decide)]
    rw [CodePoints.ofText_append] at hline
    change (addPart (CodePoints.ofText head ++ CodePoints.ofText r.message)
      (.ofOption r.exception) >>= fun line => addPart line .null) = _
    rw [hline]
    rfl
  · rw [List.length_append] at hlength
    cases hexception : r.exception <;>
      simp only [bareLength, hexception, Option.elim_none, Option.elim_some] at hlength ⊢ <;> omega

theorem Writable.exists_jsonLine (h : r.Writable) :
    ∃ text, r.jsonLine (some dateTemplate) = .ok text ∧ r.bareLength ≤ text.length := by
  obtain ⟨time, htime⟩ := h.exists_time
  have hlevel : r.levelValue = .ok (.str (levelName r.level)) := h.value_eq (by decide) _ _
  have hexception : r.exceptionText = .ok r.exception := h.value_eq (by decide) _ _
  refine ⟨_, jsonLine_of_messageText htime hlevel h.messageText_eq hexception, ?_⟩
  -- The message is a member of the object, and so is what was thrown.
  let thrown := r.exception.toList.map fun e => ("exception".toList, Json.str e)
  have hthrown : (("message".toList, Json.str r.message) :: thrown).Sublist
      (("message".toList, .str r.message) ::
        r.details time (.str (levelName r.level)) r.exception) := by
    refine .cons_cons _ ?_
    cases hexception : r.exception with
    | none => simp [thrown, hexception]
    | some e =>
        simp only [thrown, hexception]
        exact List.sublist_append_right _ _
  have hobject := Json.sum_length_le_length_renderObject (hthrown.map (Prod.map id Json.render))
  rw [← Json.renderMembers_eq, ← Json.renderMembers_eq] at hobject
  refine le_trans ?_ hobject
  have hmessage := Json.length_le_length_renderMember "message".toList (Json.renderText r.message)
  have htext := Json.length_le_length_renderText r.message
  cases hexception : r.exception with
  | none =>
      simp only [thrown, hexception, bareLength, Option.toList_none, Option.elim_none,
        List.map_nil, Json.renderMembers, List.map_cons, List.sum_cons, List.sum_nil, Json.render]
      omega
  | some e =>
      have hmember := Json.length_le_length_renderMember "exception".toList (Json.renderText e)
      have hthrown := Json.length_le_length_renderText e
      simp only [thrown, hexception, bareLength, Option.toList_some, Option.elim_some,
        List.map_nil, Json.renderMembers, List.map_cons, List.sum_cons, List.sum_nil, Json.render]
      omega

theorem lookup_stamp (run : Text) (record : Record) (name : Text) :
    (record.stamp run).fields.lookup name =
      if name = "run_id".toList then some ((record.fields.lookup name).getD (.str run))
      else record.fields.lookup name := by
  unfold stamp
  split
  · next value hvalue =>
    by_cases hname : name = "run_id".toList
    · rw [if_pos hname, hname, hvalue, Option.getD_some]
    · rw [if_neg hname]
  · next hnone =>
    rw [List.lookup_append, Text.lookup_cons_eq_ite, List.lookup_nil]
    by_cases hname : name = "run_id".toList
    · rw [if_pos hname, if_pos hname, hname, hnone, Option.none_or, Option.getD_none]
    · rw [if_neg hname, if_neg hname, Option.or_none]

theorem Writable.stamp (h : r.Writable) (run : Text) : (r.stamp run).Writable := by
  unfold Record.stamp
  split
  · exact h
  · refine ⟨h.whole, fun field hfield => ?_, h.reached⟩
    rcases List.mem_append.1 hfield with hfield | hfield
    · exact h.own field hfield
    · obtain rfl := List.mem_singleton.1 hfield
      exact (by decide : "run_id".toList ∉ takenNames)

theorem bareLength_stamp (run : Text) (record : Record) :
    (record.stamp run).bareLength = record.bareLength := by
  unfold stamp
  split <;> rfl

end Record

/-- A handler writes every record of this kind, and more of it than its bare message. -/
theorem Handler.exists_line (h : Handler) {r : Record} (hr : r.Writable) (run : Text) :
    ∃ text, h.line? (r.stamp run) = some text ∧ r.bareLength < text.length := by
  have hstamped := hr.stamp run
  rw [← r.bareLength_stamp run]
  unfold line?
  split
  · obtain ⟨text, htext, hlength⟩ := hstamped.exists_jsonLine
    rw [htext]
    exact ⟨_, rfl, by rw [List.length_append]; exact Nat.lt_succ_of_le hlength⟩
  · have hrun := (r.lookup_stamp run "run_id".toList).trans (if_pos rfl)
    obtain ⟨text, htext, hlength⟩ := hstamped.exists_plainLine hrun
    have htext' : textOf? ((r.stamp run).plainLine (some dateTemplate)) = some text := by
      rw [htext]
      exact CodePoints.toText?_ofText text
    rw [htext']
    exact ⟨_, rfl, by rw [List.length_append]; exact Nat.lt_succ_of_le hlength⟩

theorem exists_bareLine {r : Record} (hr : r.Writable) :
    ∃ text, Journal.bareLine? r = some text ∧ text.length = r.bareLength := by
  have htext : textOf? r.messageText = some r.message := by
    rw [hr.messageText_eq]
    exact CodePoints.toText?_ofText r.message
  rw [Journal.bareLine?, htext]
  refine ⟨_, rfl, ?_⟩
  cases hexception : r.exception with
  | none => simp [Record.bareLength, hexception]
  | some e =>
      simp only [Record.bareLength, hexception, Option.elim_some, List.length_append,
        List.length_cons, List.length_nil]
      omega

theorem own_withComponent {logger : Text} {fields : List (Text × Json)}
    (h : ∀ field ∈ fields, field.1 ∉ Record.takenNames) :
    ∀ field ∈ withComponent logger fields, field.1 ∉ Record.takenNames :=
  List.forall_mem_cons.2 ⟨(by decide : "component".toList ∉ Record.takenNames),
    fun field hfield => h field (List.mem_of_mem_filter hfield)⟩

theorem own_notice (notice : Notice) : ∀ field ∈ notice.fields, field.1 ∉ Record.takenNames := by
  have hnames : ∀ name ∈ notice.fields.map Prod.fst, name ∉ Record.takenNames := by
    cases notice <;> dsimp only [Notice.fields, Notice.event?, Notice.details, List.map] <;> decide
  exact fun field hfield => hnames field.1 (List.mem_map_of_mem hfield)

theorem writable_ofNotice (notice : Notice) {seconds : Int} (h : seconds.natAbs ≤ 2 ^ 55) :
    (ofNotice seconds notice).Writable :=
  ⟨rfl, own_withComponent (own_notice notice), h⟩

/-- The record of a log call that does not raise can be written, unless a field hides its
message. -/
theorem writable_ofCall {logger message : Text} {level seconds : Int}
    {fields : List (Text × Json)} {r : Record}
    (hr : ofCall logger level message fields seconds = .ok r) (h : seconds.natAbs ≤ 2 ^ 55)
    (hfields : ∀ field ∈ fields, field.1 ≠ "getMessage".toList) : r.Writable := by
  unfold ofCall at hr
  split at hr
  · cases hr
  · next hnone =>
    obtain rfl := Except.ok.inj hr
    refine ⟨rfl, own_withComponent fun field hfield => ?_, h⟩
    have hfree := List.find?_eq_none.1 hnone field hfield
    exact List.not_mem_cons_of_ne_of_not_mem (hfields field hfield) (by simpa using hfree)

end SourceLoader.Log
