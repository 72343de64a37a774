import Mathlib
import SourceLoader.Log.Journal

/-!
Which records the log takes. The loggers of the loader stand below one, whatever other loggers are
known, so they all go by one level. Writing a record changes neither that level nor what is known,
so what is taken of some notices is settled before the first of them is written.

A log on standard error. Reporting adds to standard error and changes nothing else: the host, what
has been printed and the settings of the log stay as they are.
-/

namespace SourceLoader.Log

namespace Hierarchy

/-- The name that parts lead to from `top`, the last part first. -/
def dotted (top : Text) : List Text → Text
  | [] => top
  | part :: parts => dotted top parts ++ '.' :: part

variable {top part : Text} {parts : List Text}

theorem dotted_ne_nil (htop : top ≠ []) (parts : List Text) : dotted top parts ≠ [] := by
  cases parts <;> simp [dotted, htop]

theorem leads_dotted (htop : top ≠ []) (hpart : '.' ∉ part)
    (hparts : ∀ p ∈ parts, p ≠ [] ∧ '.' ∉ p) :
    leads (dotted top (part :: parts)) = parts.tails.map (dotted top) ++ leads top.dropLast := by
  induction parts generalizing part with
  | nil => simpa [dotted] using leads_append htop hpart
  | cons q parts ih =>
      obtain ⟨⟨hne, hq⟩, hparts⟩ := List.forall_mem_cons.1 hparts
      -- The next cut passes over the last character of `q`, and finds the dot in front of `q`.
      have hdrop : (dotted top (q :: parts)).dropLast = dotted top (q.dropLast :: parts) := by
        rw [dotted, dotted, List.dropLast_append_of_ne_nil (by simp),
          List.dropLast_cons_of_ne_nil hne]
      rw [dotted, leads_append (dotted_ne_nil htop _) hpart, hdrop,
        ih (fun h => hq ((List.dropLast_sublist q).mem h)) hparts]
      simp

/-- A name in parts stands below `top`, whatever loggers are known. -/
theorem isBelow_dotted (htop : top ≠ []) (known : List Text)
    (hparts : ∀ p ∈ parts, p ≠ [] ∧ '.' ∉ p) : isBelow top known (dotted top parts) = true := by
  induction hlength : parts.length using Nat.strong_induction_on generalizing parts with
  | h length ih =>
    cases parts with
    | nil => exact isBelow_self top known
    | cons part parts =>
        obtain ⟨⟨-, hpart⟩, hrest⟩ := List.forall_mem_cons.1 hparts
        have hsome : (parts.tails.find? fun suffix =>
            decide (dotted top suffix ∈ top :: known)).isSome :=
          List.find?_isSome.2 ⟨[], by simp, by simp [dotted]⟩
        obtain ⟨suffix, hsuffix⟩ := Option.isSome_iff_exists.1 hsome
        have hnearest : (leads (dotted top (part :: parts))).find? (· ∈ top :: known) =
            some (dotted top suffix) := by
          rw [leads_dotted htop hpart hrest, List.find?_append, List.find?_map]
          simp only [Function.comp_def, hsuffix]
          rfl
        have hmem : suffix <:+ parts := (List.mem_tails _ _).1 (List.mem_of_find?_eq_some hsuffix)
        have hbelow := ih suffix.length (by have := hmem.length_le; simp at hlength; omega)
          (fun p hp => hrest p (hmem.subset hp)) rfl
        rw [isBelow]
        split
        · rfl
        · split
          · next hnone =>
            rw [hnearest] at hnone
            cases hnone
          · next lead hlead =>
            rw [hnearest] at hlead
            obtain rfl := Option.some.inj hlead
            exact hbelow

end Hierarchy

namespace Journal

variable {j : Journal} {logger : Text} {level : Int}

theorem isOwn_notice (j : Journal) (notice : Notice) : j.isOwn notice.logger = true := by
  have hroot : Notice.rootLogger ≠ [] := by decide
  have hparts : ∃ parts, (∀ p ∈ parts, p ≠ [] ∧ '.' ∉ p) ∧
      notice.logger = Hierarchy.dotted Notice.rootLogger parts := by
    cases notice with
    | baseConfigured | includeAdded | directoryAllowed =>
        exact ⟨["sandbox".toList], by decide, rfl⟩
    | logConfigured => exact ⟨[], by decide, rfl⟩
    | starting | invalidConfiguration | inputFailed =>
        exact ⟨["driver".toList], by decide, rfl⟩
    | _ => exact ⟨["reader".toList, "handlers".toList], by decide, rfl⟩
  obtain ⟨parts, hparts, hlogger⟩ := hparts
  rw [isOwn, hlogger]
  exact Hierarchy.isBelow_dotted hroot j.loggers hparts

/-- A logger of the loader goes by the level that has been chosen, where zero leaves it to the
default. -/
theorem isEnabled_own_iff (hown : j.isOwn logger = true) :
    j.isEnabled logger level = true ↔
      0 < level ∧ (if j.threshold = 0 then warning else j.threshold) ≤ level := by
  simp only [isEnabled, effectiveThreshold, hown, true_and, Bool.and_eq_true, decide_eq_true_eq,
    ne_eq, ite_not]

theorem isEnabled_iff (hown : j.isOwn logger = true) (hpos : 0 < j.threshold) :
    j.isEnabled logger level = true ↔ j.threshold ≤ level := by
  rw [isEnabled_own_iff hown, if_neg (by omega)]
  omega

def taken (j : Journal) (seconds : Int) (notices : List Notice) : List Record :=
  (notices.map (ofNotice seconds)).filter fun r => j.isEnabled r.logger r.level

theorem isEnabled_congr {k : Journal} (hthreshold : k.threshold = j.threshold)
    (hloggers : k.loggers = j.loggers) (logger : Text) (level : Int) :
    k.isEnabled logger level = j.isEnabled logger level := by
  rw [isEnabled, isEnabled, effectiveThreshold, effectiveThreshold, isOwn, isOwn, hthreshold,
    hloggers]

theorem write_settings (j : Journal) (sink : Sink) (text : Text) :
    (j.write sink text).threshold = j.threshold ∧ (j.write sink text).handler = j.handler ∧
      (j.write sink text).loggers = j.loggers ∧ (j.write sink text).opened = j.opened := by
  cases sink <;> exact ⟨rfl, rfl, rfl, rfl⟩

theorem writeLine_settings (j : Journal) (sink : Sink) (line : Option Text) :
    (j.writeLine sink line).threshold = j.threshold ∧
      (j.writeLine sink line).handler = j.handler ∧
      (j.writeLine sink line).loggers = j.loggers ∧
      (j.writeLine sink line).opened = j.opened := by
  cases line with
  | none => exact ⟨rfl, rfl, rfl, rfl⟩
  | some text => exact j.write_settings sink text

theorem deliver_settings (j : Journal) (run : Text) (r : Record) :
    (j.deliver run r).threshold = j.threshold ∧ (j.deliver run r).handler = j.handler ∧
      (j.deliver run r).loggers = j.loggers ∧ (j.deliver run r).opened = j.opened := by
  unfold deliver
  split
  · exact ⟨rfl, rfl, rfl, rfl⟩
  · split <;> split
    · exact j.writeLine_settings _ _
    · exact ⟨rfl, rfl, rfl, rfl⟩
    · exact j.writeLine_settings _ _
    · exact ⟨rfl, rfl, rfl, rfl⟩

theorem emit_settings (j : Journal) (run : Text) (r : Record) :
    (j.emit run r).threshold = j.threshold ∧ (j.emit run r).handler = j.handler ∧
      (j.emit run r).loggers = j.loggers ∧ (j.emit run r).opened = j.opened := by
  unfold emit
  split
  · exact j.deliver_settings run r
  · exact ⟨rfl, rfl, rfl, rfl⟩

/-- What is written of notices is what is taken of them, each record once and in order. -/
theorem report_eq_foldl_taken (j : Journal) (run : Text) (seconds : Int) (notices : List Notice) :
    j.report run seconds notices =
      (j.taken seconds notices).foldl (fun j r => j.deliver run r) j := by
  have hfold : ∀ k : Journal, k.threshold = j.threshold → k.loggers = j.loggers →
      k.report run seconds notices =
        (j.taken seconds notices).foldl (fun j r => j.deliver run r) k := by
    induction notices with
    | nil => exact fun _ _ _ => rfl
    | cons notice notices ih =>
        intro k hthreshold hloggers
        have henabled := isEnabled_congr hthreshold hloggers (ofNotice seconds notice).logger
          (ofNotice seconds notice).level
        rw [report, List.foldl_cons, emit, henabled, taken, List.map_cons]
        cases h : j.isEnabled (ofNotice seconds notice).logger (ofNotice seconds notice).level with
        | false =>
            rw [List.filter_cons_of_neg (by simp [h])]
            exact ih k hthreshold hloggers
        | true =>
            obtain ⟨hthreshold', -, hloggers', -⟩ :=
              deliver_settings k run (ofNotice seconds notice)
            rw [List.filter_cons_of_pos (by simpa using h), List.foldl_cons]
            exact ih _ (hthreshold'.trans hthreshold) (hloggers'.trans hloggers)
  exact hfold j rfl rfl

end Journal

end SourceLoader.Log

/-! ## Standard error -/

namespace SourceLoader.Log.Journal

/-- Whether records go to standard error. While no place has been chosen, they do. -/
def OnStderr (j : Journal) : Prop := ∀ h, j.handler = some h → h.sink = .stderr

variable {j : Journal}

theorem writeLine_stderr (j : Journal) (line : Option Text) :
    ∃ added, j.writeLine .stderr line = { j with stderr := j.stderr ++ added } := by
  cases line with
  | none => exact ⟨[], by simp [writeLine]⟩
  | some line => exact ⟨line, rfl⟩

theorem OnStderr.deliver (h : j.OnStderr) (run : Text) (r : Record) :
    ∃ added, j.deliver run r = { j with stderr := j.stderr ++ added } := by
  have hquiet : ∃ added, j = { j with stderr := j.stderr ++ added } := ⟨[], by simp⟩
  unfold Journal.deliver
  split
  · exact hquiet
  · split
    · next handler hhandler =>
      rw [h handler hhandler]
      split
      · exact writeLine_stderr j _
      · exact hquiet
    · split
      · exact writeLine_stderr j _
      · exact hquiet

theorem OnStderr.emit (h : j.OnStderr) (run : Text) (r : Record) :
    ∃ added, j.emit run r = { j with stderr := j.stderr ++ added } := by
  unfold Journal.emit
  split
  · exact h.deliver run r
  · exact ⟨[], by simp⟩

/-- Reporting adds to standard error, and to nothing else. -/
theorem OnStderr.report (h : j.OnStderr) (run : Text) (seconds : Int) (notices : List Notice) :
    ∃ added, j.report run seconds notices = { j with stderr := j.stderr ++ added } := by
  induction notices generalizing j with
  | nil => exact ⟨[], by simp [Journal.report]⟩
  | cons notice notices ih =>
      obtain ⟨first, hfirst⟩ := h.emit run (ofNotice seconds notice)
      have hkept : ({ j with stderr := j.stderr ++ first } : Journal).OnStderr := h
      obtain ⟨later, hlater⟩ := ih hkept
      refine ⟨first ++ later, ?_⟩
      rw [Journal.report, List.foldl_cons, hfirst]
      simpa [Journal.report] using hlater

theorem configure_stderr (j : Journal) (run : Text) (seconds : Int) (level : Text)
    {destination : Option Text} (h : (destinationName destination).lower = "stderr".toList)
    (json : Bool) :
    ∃ added, j.configure run seconds level destination json =
      (.ok (), { j with
        threshold := levelOfName level
        handler := some ⟨.stderr, levelOfName level, json⟩
        stderr := j.stderr ++ added }) := by
  have hplaced : ({ j with
      threshold := levelOfName level
      handler := some ⟨.stderr, levelOfName level, json⟩ } : Journal).OnStderr := by
    rintro handler ⟨rfl⟩
    rfl
  obtain ⟨added, hadded⟩ := hplaced.report run seconds
    [.logConfigured (destinationName destination) (levelOfName level) json]
  refine ⟨added, ?_⟩
  simp only [configure, openSink, if_pos h]
  rw [hadded]

end SourceLoader.Log.Journal
