import Mathlib
import SourceLoader.Json.Reader
import SourceLoader.Log.Record
import SourceLoader.Proofs.Log.Writable

/-!
How runs nest. Here the open run is what a variable holds: entering a run keeps what was in the
variable, and leaving the run puts that back, whether its work has come to an end or has thrown
something. In whatever order runs are entered and left, the variable then holds the id of the
innermost run that is open, and with this id a record is stamped. What a run throws leaves it, and
ids that have been made up are never made up again.
-/

namespace SourceLoader

/-- The variable for the open run, and what is put back into it later. -/
structure Scope where
  active : Option Text
  /-- For each open run, the innermost first, what the variable held before it was entered. -/
  kept : List (Option Text)
  issued : Nat

namespace Scope

variable {ε : Type}

/-! ### Steps -/

inductive Step (ε : Type)
  | enter (id? : Option Text)
  | leave (ending : Except ε Unit)
  | newId
  | log (record : Log.Record)

inductive Outcome (ε : Type)
  | entered (id : Text)
  | left (ending : Except ε Unit)
  | issued (id : Text)
  | logged (record : Log.Record)

def Outcome.id? : Outcome ε → Option Text
  | entered id | issued id => some id
  | left _ | logged _ => none

def outside : Scope := ⟨none, [], 0⟩

def current (s : Scope) : Text := s.active.getD Log.noRun

/-- Makes up an id, the next one of a supply. -/
def issue (supply : Nat → Text) : StateM Scope Text := do
  let s ← get
  set { s with issued := s.issued + 1 }
  return supply s.issued

def enter (supply : Nat → Text) (id? : Option Text) : StateM Scope Text := do
  let id ← match id? with
    | some (c :: id) => pure (c :: id)
    | _ => issue supply
  modify fun s => { s with active := some id, kept := s.active :: s.kept }
  return (← get).current

def putBack : StateM Scope Unit :=
  modify fun s =>
    match s.kept with
    | [] => s
    | active :: kept => { s with active := active, kept := kept }

/-- Leaves the innermost run with the ending that its work has come to. -/
def leave (ending : Except ε Unit) : ExceptT ε (StateM Scope) Unit :=
  try liftM ending finally putBack

def Step.perform (supply : Nat → Text) : Step ε → StateM Scope (Outcome ε)
  | .enter id? => .entered <$> Scope.enter supply id?
  | .leave ending => .left <$> (Scope.leave ending).run
  | .newId => .issued <$> Scope.issue supply
  | .log record => do return .logged (record.stamp (← get).current)

def told (supply : Nat → Text) (s : Scope) (step : Step ε) : Outcome ε :=
  ((step.perform supply).run s).1

def next (supply : Nat → Text) (s : Scope) (step : Step ε) : Scope :=
  ((step.perform supply).run s).2

def after (supply : Nat → Text) (s : Scope) (steps : List (Step ε)) : Scope :=
  steps.foldl (next supply) s

def Step.isAnonymous : Step ε → Bool
  | .enter (some (_ :: _)) | .leave _ | .log _ => false
  | .enter _ | .newId => true

/-- The ids that are made up along the way. -/
def madeUp (supply : Nat → Text) (s : Scope) : List (Step ε) → List Text
  | [] => []
  | step :: rest =>
    (if step.isAnonymous then (told supply s step).id?.toList else []) ++
      madeUp supply (next supply s step) rest

/-- The id of a run that is entered after these steps: its own, or the next one of the supply. -/
def idAfter (supply : Nat → Text) (before : List (Step ε)) : Option Text → Text
  | some (c :: id) => c :: id
  | _ => supply (before.countP Step.isAnonymous)

/-- The number of runs that are open after steps that begin with `n` open ones; none if a run is
left where none is open. -/
def depth : Nat → List (Step ε) → Option Nat
  | n, [] => some n
  | n, .enter _ :: rest => depth (n + 1) rest
  | 0, .leave _ :: _ => none
  | n + 1, .leave _ :: rest => depth n rest
  | n, .newId :: rest | n, .log _ :: rest => depth n rest

/-! ### The variable and what is kept are a stack -/

/-- What the variable holds and what is put back into it, in this order. -/
def values (s : Scope) : List (Option Text) := s.active :: s.kept

variable {supply : Nat → Text} {s : Scope}

theorem next_enter (supply : Nat → Text) (s : Scope) (id? : Option Text) :
    ∃ id, told supply s (.enter id? : Step ε) = .entered id ∧
      (next supply s (.enter id? : Step ε)).values = some id :: s.values ∧
      id = match id? with
        | some (c :: id) => c :: id
        | _ => supply s.issued := by
  rcases id? with _ | _ | ⟨c, id⟩ <;> exact ⟨_, rfl, rfl, rfl⟩

theorem leave_run (ending : Except ε Unit) (s : Scope) :
    (leave ending).run.run s = (ending, (putBack.run s).2) := by
  cases ending <;> rfl

theorem told_leave (supply : Nat → Text) (s : Scope) (ending : Except ε Unit) :
    told supply s (.leave ending) = .left ending := by
  have hrun := leave_run ending s
  simp only [told, Step.perform, StateT.run_map, hrun]
  rfl

theorem next_leave (supply : Nat → Text) (s : Scope) (ending : Except ε Unit) :
    next supply s (.leave ending) = (putBack.run s).2 := by
  have hrun := leave_run ending s
  simp only [next, Step.perform, StateT.run_map, hrun]
  rfl

theorem values_leave (supply : Nat → Text) (ending : Except ε Unit) {kept : List (Option Text)}
    {value : Option Text} (hne : kept ≠ []) (h : s.values = value :: kept) :
    (next supply s (.leave ending)).values = kept := by
  obtain ⟨active, kept', issued⟩ := s
  obtain ⟨rfl, rfl⟩ := List.cons.inj h
  rw [next_leave]
  cases kept' with
  | nil => exact absurd rfl hne
  | cons first rest => rfl

theorem issued_next (supply : Nat → Text) (s : Scope) (step : Step ε) :
    (next supply s step).issued = s.issued + if step.isAnonymous then 1 else 0 := by
  cases step with
  | enter id? => rcases id? with _ | _ | ⟨c, id⟩ <;> rfl
  | leave ending =>
      rw [next_leave]
      obtain ⟨active, kept, issued⟩ := s
      cases kept <;> rfl
  | newId => rfl
  | log record => rfl

/-- Steps that leave no more runs than they enter, beyond `n` open ones, change nothing below what
is kept for these. -/
theorem values_after (supply : Nat → Text) {steps : List (Step ε)} {n m : Nat}
    (h : depth n steps = some m) {base : List (Option Text)} (hne : base ≠ []) :
    ∀ (s : Scope) (above : List (Option Text)), s.values = above ++ base → above.length = n →
      ∃ above', (after supply s steps).values = above' ++ base ∧ above'.length = m := by
  -- The steps only touch the values above `base`, of which there are as many as open runs.
  induction steps generalizing n with
  | nil =>
      intro s above hs hlength
      exact ⟨above, hs, hlength.trans (by simpa [depth] using h)⟩
  | cons step rest ih =>
      intro s above hs hlength
      cases step with
      | enter id? =>
          obtain ⟨id, -, hnext, -⟩ := @next_enter ε supply s id?
          refine ih (n := n + 1) h _ (some id :: above) ?_ (by simp [hlength])
          rw [hnext, hs, List.cons_append]
      | leave ending =>
          cases above with
          | nil =>
              subst hlength
              cases h
          | cons value above =>
              subst hlength
              refine ih h _ above ?_ rfl
              exact values_leave supply ending (by simp [hne]) hs
      | newId => exact ih (by simpa [depth] using h) _ above hs hlength
      | log record => exact ih (by simpa [depth] using h) _ above hs hlength

/-- A run and all that is entered and left again inside it leave the variable with its id. -/
theorem after_balanced (supply : Nat → Text) {inside : List (Step ε)}
    (h : depth 0 inside = some 0) (s : Scope) :
    (after supply s inside).values = s.values := by
  obtain ⟨above, habove, hlength⟩ :=
    values_after supply h (List.cons_ne_nil s.active s.kept) s [] rfl rfl
  rw [habove, List.length_eq_zero_iff.1 hlength]
  rfl

theorem issued_after (supply : Nat → Text) (s : Scope) (steps : List (Step ε)) :
    (after supply s steps).issued = s.issued + steps.countP Step.isAnonymous := by
  induction steps generalizing s with
  | nil => rfl
  | cons step rest ih =>
      rw [after, List.foldl_cons, ← after, ih, issued_next, List.countP_cons]
      omega

theorem after_append (supply : Nat → Text) (s : Scope) (before rest : List (Step ε)) :
    after supply s (before ++ rest) = after supply (after supply s before) rest :=
  List.foldl_append

/-- After steps there is an innermost open run, unless all runs have been left that these steps have
entered. -/
theorem exists_innermost {steps : List (Step ε)} {n m : Nat} (h : depth n steps = some m) :
    (∃ before id? inside, steps = before ++ .enter id? :: inside ∧ depth 0 inside = some 0) ∨
      m ≤ n ∧ depth (n - m) steps = some 0 := by
  -- From the front, with the number of runs that are open when the rest of the steps begins.
  induction steps generalizing n with
  | nil =>
      obtain rfl : n = m := by simpa [depth] using h
      exact .inr ⟨le_rfl, by simp [depth]⟩
  | cons step rest ih =>
      have hlater : ∀ {k}, depth k rest = some m →
          (∃ before id? inside, step :: rest = before ++ .enter id? :: inside ∧
            depth 0 inside = some 0) ∨ m ≤ k ∧ depth (k - m) rest = some 0 := by
        intro k hk
        rcases ih hk with ⟨before, id?, inside, rfl, hinside⟩ | hleft
        · exact .inl ⟨step :: before, id?, inside, rfl, hinside⟩
        · exact .inr hleft
      cases step with
      | enter id? =>
          rcases hlater (k := n + 1) h with hopen | ⟨hle, hrest⟩
          · exact .inl hopen
          · by_cases hm : m = n + 1
            · -- this run is the one: what follows leaves all the others
              subst hm
              exact .inl ⟨[], id?, rest, rfl, by simpa using hrest⟩
            · refine .inr ⟨by omega, ?_⟩
              rw [depth, ← Nat.sub_add_comm (by omega : m ≤ n)]
              exact hrest
      | leave ending =>
          cases n with
          | zero => cases h
          | succ n =>
              rcases hlater (k := n) h with hopen | ⟨hle, hrest⟩
              · exact .inl hopen
              · refine .inr ⟨by omega, ?_⟩
                rw [Nat.sub_add_comm hle]
                exact hrest
      | newId =>
          exact (hlater (by simpa [depth] using h)).imp_right fun h => by simpa [depth] using h
      | log record =>
          exact (hlater (by simpa [depth] using h)).imp_right fun h => by simpa [depth] using h

/-! ### Ids -/

theorem madeUp_eq (supply : Nat → Text) (s : Scope) (steps : List (Step ε)) :
    madeUp supply s steps =
      (List.range' s.issued (steps.countP Step.isAnonymous)).map supply := by
  induction steps generalizing s with
  | nil => rfl
  | cons step rest ih =>
      have hgiven : step.isAnonymous = true →
          (told supply s step).id? = some (supply s.issued) := by
        intro hanonymous
        match step with
        | .enter none | .enter (some []) | .newId => rfl
      rw [madeUp, ih, issued_next]
      cases hanonymous : step.isAnonymous with
      | false => simp [hanonymous]
      | true => simp [hanonymous, hgiven hanonymous, List.range'_succ]

theorem current_of_innermost (supply : Nat → Text) (before : List (Step ε)) (id? : Option Text)
    {inside : List (Step ε)} (h : depth 0 inside = some 0) :
    (after supply outside (before ++ .enter id? :: inside)).current =
      idAfter supply before id? := by
  obtain ⟨id, -, hnext, hid⟩ := @next_enter ε supply (after supply outside before) id?
  have hvalues := after_balanced supply h
    (next supply (after supply outside before) (.enter id? : Step ε))
  rw [hnext] at hvalues
  have hactive := (List.cons.inj hvalues).1
  have hissued := issued_after supply outside before
  rw [after_append, after, List.foldl_cons, ← after, current, hactive, Option.getD_some, hid,
    hissued]
  rcases id? with _ | _ | ⟨c, id⟩ <;> simp [idAfter, outside]

/-! ### Stamped records -/

theorem stamp_with_fields (run : Text) (record : Log.Record) :
    { record.stamp run with fields := record.fields } = record := by
  unfold Log.Record.stamp
  split <;> rfl

end Scope

namespace Runs

open Scope

variable {ε : Type}

/-- What a step leaves behind of the runs that are open. -/
def follow (r : Runs) : Step ε → Runs
  | .enter id? => r.enter id?
  | .leave _ => r.leave
  | .newId => r.newId.2
  | .log _ => r

def supply (n : Nat) : Text := idOf (n + 1)

/-- Whether the variable and what is kept stand for the runs that are open. -/
structure Shows (r : Runs) (s : Scope) : Prop where
  values : s.values = r.stack.map some ++ [Option.none]
  issued : s.issued = r.issued

theorem Shows.current {r : Runs} {s : Scope} (h : r.Shows s) : s.current = r.current := by
  have hvalues := h.values
  unfold Runs.current Scope.current
  cases hstack : r.stack with
  | nil =>
      rw [hstack] at hvalues
      rw [(List.cons.inj hvalues).1]
      rfl
  | cons id rest =>
      rw [hstack] at hvalues
      rw [(List.cons.inj hvalues).1]
      rfl

theorem Shows.follow {r : Runs} {s : Scope} (h : r.Shows s) (step : Step ε) :
    (r.follow step).Shows (next supply s step) := by
  obtain ⟨hvalues, hissued⟩ := h
  refine ⟨?_, ?_⟩
  · cases step with
    | enter id? =>
        obtain ⟨id, -, hnext, hid⟩ := @next_enter ε supply s id?
        rw [hnext, hvalues, hid, hissued]
        rcases id? with _ | _ | ⟨c, id⟩ <;> rfl
    | leave ending =>
        cases hstack : r.stack with
        | nil =>
            rw [hstack] at hvalues
            obtain ⟨active, kept, issued⟩ := s
            obtain ⟨rfl, rfl⟩ := List.cons.inj hvalues
            rw [next_leave]
            simp only [Runs.follow, leave, hstack]
            rfl
        | cons id rest =>
            rw [hstack] at hvalues
            rw [values_leave supply ending (by simp) hvalues]
            simp only [Runs.follow, leave, hstack, List.tail_cons]
            rfl
    | newId => exact hvalues
    | log record => exact hvalues
  · rw [issued_next, hissued]
    cases step with
    | enter id? => rcases id? with _ | _ | ⟨c, id⟩ <;> rfl
    | leave | newId | log => rfl

theorem shows_after (steps : List (Step ε)) :
    (steps.foldl follow Runs.none).Shows (after supply outside steps) := by
  have hfold : ∀ {r : Runs} {s : Scope}, r.Shows s →
      (steps.foldl follow r).Shows (after supply s steps) := by
    induction steps with
    | nil => exact id
    | cons step rest ih => exact fun h => ih (h.follow step)
  exact hfold ⟨rfl, rfl⟩

/-! ### The ids that runs take -/

def numberOf (digits : Text) : Nat :=
  digits.foldl (fun n c => n * 16 + (Json.hexValue? c).getD 0) 0

theorem numberOf_toDigits (n : Nat) : numberOf (Nat.toDigits 16 n) = n := by
  induction n using Nat.strongRecOn with
  | ind n ih =>
      have hdigit : ∀ d < 16, Json.hexValue? (Nat.digitChar d) = some d := by decide
      by_cases hsmall : n < 16
      · rw [Nat.toDigits_of_lt_base hsmall]
        simp [numberOf, hdigit n hsmall]
      · have hlead := ih (n / 16) (by omega)
        rw [numberOf] at hlead
        rw [Nat.toDigits_of_base_le (by decide) (by omega), numberOf, List.foldl_append, hlead]
        simp only [List.foldl_cons, List.foldl_nil, hdigit (n % 16) (Nat.mod_lt n (by decide)),
          Option.getD_some]
        omega

theorem numberOf_idOf (n : Nat) : numberOf (idOf n) = n := by
  have hzeros : ∀ k, numberOf (List.replicate k '0') = 0 := by
    intro k
    induction k with
    | zero => rfl
    | succ k ih =>
        rw [List.replicate_succ', numberOf, List.foldl_append, ← numberOf, ih]
        rfl
  have hzero := hzeros (32 - (Nat.toDigits 16 n).length)
  rw [numberOf] at hzero
  rw [idOf, Text.padded, numberOf, List.foldl_append, hzero]
  exact numberOf_toDigits n

theorem supply_injective : Function.Injective supply := by
  intro m n h
  have hnumber := congrArg numberOf h
  rw [supply, supply, numberOf_idOf, numberOf_idOf] at hnumber
  omega

end Runs

namespace Scope

variable {ε : Type}

/-- Whether the run that was entered after some steps is the innermost one that is open now: all that
has been entered inside it has been left. -/
def IsInnermost (steps before : List (Step ε)) (id? : Option Text) : Prop :=
  ∃ inside, steps = before ++ .enter id? :: inside ∧ depth 0 inside = some 0

/-- Runs nest, and records are stamped with them. Let runs be entered and left in any order that
leaves none where none is open, and each be left by an ending of its work or by what it throws. Then
the variable holds the id of the innermost run that is open, and the mark for no run where there is
none. What a run throws comes out of it; a record gets the id that is current when it is logged,
unless it has one, and is otherwise kept; and if the supply repeats nothing, no two ids that have
been made up are the same. With their own supply, runs kept as a list come to the same. -/
theorem after_nested {supply : Nat → Text} (hsupply : Function.Injective supply)
    {steps : List (Step ε)} (hnested : depth 0 steps ≠ none) :
    let s := after supply outside steps
    (depth 0 steps = some 0 → s.current = Log.noRun) ∧
      (∀ before id?, IsInnermost steps before id? → s.current = idAfter supply before id?) ∧
      (depth 0 steps = some 0 ∨ ∃ before id?, IsInnermost steps before id?) ∧
      (∀ id?, told supply s (.enter id? : Step ε) = .entered (idAfter supply steps id?)) ∧
      (∀ ending : Except ε Unit, told supply s (.leave ending) = .left ending) ∧
      (∀ record, ∃ stamped, told supply s (.log record : Step ε) = .logged stamped ∧
        { stamped with fields := record.fields } = record ∧
        ∀ name, stamped.fields.lookup name =
          if name = "run_id".toList then
            some ((record.fields.lookup name).getD (.str s.current))
          else record.fields.lookup name) ∧
      (madeUp supply outside steps).Nodup ∧
      (after Runs.supply outside steps).current =
        (steps.foldl Runs.follow Runs.none).current := by
  refine ⟨fun hclosed => ?_, ?_, ?_, fun id? => ?_, told_leave supply _, fun record => ?_, ?_, ?_⟩
  · have hvalues := after_balanced supply hclosed outside
    rw [current, (List.cons.inj hvalues).1]
    rfl
  · rintro before id? ⟨inside, rfl, hinside⟩
    exact current_of_innermost supply before id? hinside
  · obtain ⟨count, hcount⟩ := Option.ne_none_iff_exists'.1 hnested
    rcases exists_innermost hcount with ⟨before, id?, inside, hsteps, hinside⟩ | ⟨hle, hclosed⟩
    · exact .inr ⟨before, id?, inside, hsteps, hinside⟩
    · obtain rfl : count = 0 := by omega
      exact .inl hcount
  · obtain ⟨id, htold, -, rfl⟩ := @next_enter ε supply (after supply outside steps) id?
    rw [htold, issued_after]
    rcases id? with _ | _ | ⟨c, id⟩ <;> simp [idAfter, outside]
  · exact ⟨_, rfl, stamp_with_fields _ record, Log.Record.lookup_stamp _ record⟩
  · rw [madeUp_eq]
    exact List.Nodup.map hsupply List.nodup_range'
  · exact (Runs.shows_after steps).current

def foreign : Log.Record where
  logger := "sourcevfs.sandbox".toList
  level := Log.info
  message := "m".toList
  fields := [("run_id".toList, .str "own".toList)]
  exception := none
  seconds := 0
  milliseconds := 0
  bare := false

/-- Inside a run that made up its id, one of the same name as the outer one has been thrown out
of. -/
def wandering : List (Step Text) :=
  [.enter (some "r".toList), .enter none, .enter (some "r".toList), .newId,
    .leave (.error "stop".toList), .log foreign]

/-- What is thrown brings back the run with the id that was made up. -/
theorem after_nested_wandering :
    Function.Injective Runs.supply ∧ depth 0 wandering ≠ none ∧
      IsInnermost wandering [.enter (some "r".toList)] none ∧
      (after Runs.supply outside wandering).current =
        "00000000000000000000000000000001".toList ∧
      told Runs.supply (after Runs.supply outside wandering) (.leave (.error "up".toList)) =
        .left (.error "up".toList) ∧
      (madeUp Runs.supply outside wandering).Nodup := by
  have hnested : depth 0 wandering ≠ none := by decide
  have hinnermost : IsInnermost wandering [.enter (some "r".toList)] none :=
    ⟨[.enter (some "r".toList), .newId, .leave (.error "stop".toList), .log foreign], rfl, rfl⟩
  obtain ⟨-, hcurrent, -, -, hleave, -, hnodup, -⟩ := after_nested Runs.supply_injective hnested
  exact ⟨Runs.supply_injective, hnested, hinnermost, (hcurrent _ _ hinnermost).trans (by cbv),
    hleave _, hnodup⟩

end Scope

end SourceLoader
