import Mathlib.Data.List.Basic
import SourceLoader.Proofs.Host.Descent
import SourceLoader.Proofs.Path.Absolute

/-!
What rebuilding a path keeps. An absolute path stays absolute, and one that is rebuilt to its end
has become the path of a place on the way to which the host knows no link. The link-free form of a
path depends on the host only through the links that it tells of.
-/

namespace SourceLoader.Host

open SourceLoader.Path

def Seen.Known (seen : Seen) (P : Text → Prop) : Prop :=
  ∀ next known, seen.lookup next = some (some known) → P known

theorem Seen.known_nil (P : Text → Prop) : Seen.Known [] P := by
  intro next known h
  simp at h

theorem Seen.Known.cons {seen : Seen} {P : Text → Prop} (h : seen.Known P) (next : Text)
    {entry : Option Text} (hentry : ∀ known, entry = some known → P known) :
    Seen.Known ((next, entry) :: seen) P := by
  intro next' known hlookup
  rw [List.lookup_cons] at hlookup
  split at hlookup
  · exact hentry known (by simpa using hlookup)
  · exact h next' known hlookup

theorem slash_not_mem_beginRebuild (start path : Text) :
    ∀ c ∈ (beginRebuild start path).2, '/' ∉ c := by
  intro c hc
  unfold beginRebuild at hc
  split at hc
  · next second rest hsplit =>
    have hmem : c ∈ path.splitOn '/' := by
      rw [hsplit]
      exact List.mem_cons_of_mem _ hc
    exact Text.not_mem_of_mem_splitOn hmem
  · exact Text.not_mem_of_mem_splitOn hc

theorem of_beginRebuild {P : Text → Prop} (hroot : P ['/']) {start : Text} (hstart : P start)
    (path : Text) : P (beginRebuild start path).1 := by
  unfold beginRebuild
  split
  · exact hroot
  · exact hstart

theorem isName_of_component {name : Text} (hskip : ¬ (name = [] ∨ name = dot))
    (hup : ¬ name = dotDot) (hslash : '/' ∉ name) : IsName name :=
  ⟨fun h => hskip (.inl h), hslash, fun h => hskip (.inr h), hup⟩

/-- The rule for what rebuilding keeps. A property `P` that the root has, that going up keeps and
that is kept where a name is added under which no link stands, holds of every path that is rebuilt
to its end. Joining a name to such a path gives it the property `B`, which joining more to it keeps,
so a path that is not rebuilt to its end has that one. -/
theorem rebuild_invariant {host : Host} {P B : Text → Prop} (hroot : P ['/'])
    (habove : ∀ path, P path → P (above path))
    (hnext : ∀ path name, P path → IsName name →
      host.linkTarget? (append path name) = .ok none → P (append path name))
    (hopen : ∀ path name, P path → B (append path name))
    (hbroken : ∀ path rest, B path → B (append path rest))
    {depth : Nat} {path : Text} {components : List Text} {seen : Seen} {r : Rebuilt}
    (hpath : P path) (hcomponents : ∀ c ∈ components, '/' ∉ c) (hseen : seen.Known P)
    (h : host.rebuild depth path components seen = .ok r) :
    (r.complete = true → P r.path ∧ Seen.Known r.seen P) ∧ (r.complete = false → B r.path) := by
  -- What is remembered has to be carried along, since a link that is met again is replaced by it.
  fun_induction rebuild host depth path components seen generalizing r with
  | case1 depth path seen =>
      obtain rfl := Except.ok.inj h
      exact ⟨fun _ => ⟨hpath, hseen⟩, by simp⟩
  | case2 depth path seen name rest hskip ih =>
      exact ih hpath (List.forall_mem_of_forall_mem_cons hcomponents) hseen h
  | case3 depth path seen rest hskip ih =>
      exact ih (habove path hpath) (List.forall_mem_of_forall_mem_cons hcomponents) hseen h
  | case4 => cases h
  | case5 depth path seen name rest hskip hup next hlink =>
      rename_i ih
      have hname := isName_of_component hskip hup (hcomponents name (by simp))
      exact ih (hnext path name hpath hname hlink) (List.forall_mem_of_forall_mem_cons hcomponents)
        hseen h
  | case6 depth path seen name rest hskip hup next target hlink known hknown =>
      rename_i ih
      exact ih (hseen next known hknown) (List.forall_mem_of_forall_mem_cons hcomponents) hseen h
  -- A link that is still being rebuilt, or one with no depth left, is kept with all that follows.
  | case7 depth path seen name rest hskip hup next target hlink broken =>
      obtain rfl := Except.ok.inj h
      exact ⟨by simp [broken], fun _ => hbroken next _ (hopen path name hpath)⟩
  | case8 path seen name rest hskip hup next target hlink broken =>
      obtain rfl := Except.ok.inj h
      exact ⟨by simp [broken], fun _ => hbroken next _ (hopen path name hpath)⟩
  | case9 => cases h
  | case10 path seen name rest hskip hup next target hlink broken hknown depth inner path' seen'
      hinner =>
      rename_i ih
      have hstopped := (ih (of_beginRebuild hroot hpath target)
        (slash_not_mem_beginRebuild path target) (hseen.cons next (by simp)) hinner).2 rfl
      obtain rfl := Except.ok.inj h
      exact ⟨by simp [broken], fun _ => hbroken path' _ hstopped⟩
  | case11 path seen name rest hskip hup next target hlink hknown depth inner path' seen' hinner
      ihInner =>
      rename_i ihRest
      obtain ⟨hpath', hseen'⟩ := (ihInner (of_beginRebuild hroot hpath target)
        (slash_not_mem_beginRebuild path target) (hseen.cons next (by simp)) hinner).1 rfl
      have hknown' : ∀ known, some path' = some known → P known := by
        intro known he
        exact Option.some.inj he ▸ hpath'
      exact ihRest hpath' (List.forall_mem_of_forall_mem_cons hcomponents)
        (hseen'.cons next hknown') h

theorem beginRebuild_of_isAbsolute {path : Text} (h : isAbsolute path = true) (start : Text) :
    ∃ components, path.splitOn '/' = [] :: components ∧
      beginRebuild start path = (['/'], components) := by
  obtain ⟨rest, rfl⟩ := isAbsolute_iff.1 h
  have hsplit := Text.splitOn_slash rest
  obtain ⟨second, others, hrest⟩ := List.exists_cons_of_ne_nil (List.splitOn_ne_nil '/' rest)
  exact ⟨rest.splitOn '/', hsplit, by rw [beginRebuild, hsplit, hrest]⟩

theorem beginRebuild_of_not_isAbsolute {path : Text} (h : isAbsolute path = false)
    (start : Text) : beginRebuild start path = (start, path.splitOn '/') := by
  cases path with
  | nil => rfl
  | cons c path =>
      have hc : c ≠ '/' := by simpa [isAbsolute] using h
      have hsplit : ∃ first others, (c :: path).splitOn '/' = (c :: first) :: others := by
        rw [List.splitOn_cons_eq_if_modifyHead]
        cases hs : path.splitOn '/' with
        | nil => exact absurd hs (List.splitOn_ne_nil '/' path)
        | cons first others => exact ⟨first, others, by simp [hc]⟩
      obtain ⟨first, others, hsplit⟩ := hsplit
      rw [beginRebuild, hsplit]

section

variable {host : Host} {depth : Nat} {path name target : Text} {rest : List Text} {seen : Seen}

theorem rebuild_skip (h : name = [] ∨ name = dot) :
    host.rebuild depth path (name :: rest) seen = host.rebuild depth path rest seen := by
  rw [rebuild, if_pos h]

theorem rebuild_up :
    host.rebuild depth path (dotDot :: rest) seen =
      host.rebuild depth (above path) rest seen := by
  rw [rebuild, if_neg (by decide), if_pos rfl]

theorem rebuild_plain (hname : IsName name)
    (hlink : host.linkTarget? (append path name) = .ok none) :
    host.rebuild depth path (name :: rest) seen =
      host.rebuild depth (append path name) rest seen := by
  rw [rebuild, if_neg (by simp [hname.ne_nil, hname.ne_dot]), if_neg hname.ne_dotDot]
  simp [hlink]

theorem rebuild_known {known : Text} (hname : IsName name)
    (hlink : host.linkTarget? (append path name) = .ok (some target))
    (hknown : seen.lookup (append path name) = some (some known)) :
    host.rebuild depth path (name :: rest) seen = host.rebuild depth known rest seen := by
  rw [rebuild, if_neg (by simp [hname.ne_nil, hname.ne_dot]), if_neg hname.ne_dotDot]
  simp [hlink, hknown]

theorem rebuild_fresh {path' : Text} {seen' : Seen} (hname : IsName name)
    (hlink : host.linkTarget? (append path name) = .ok (some target))
    (hfresh : seen.lookup (append path name) = none)
    (hinner : host.rebuild depth (beginRebuild path target).1 (beginRebuild path target).2
      ((append path name, none) :: seen) = .ok ⟨path', true, seen'⟩) :
    host.rebuild (depth + 1) path (name :: rest) seen =
      host.rebuild (depth + 1) path' rest ((append path name, some path') :: seen') := by
  rw [rebuild, if_neg (by simp [hname.ne_nil, hname.ne_dot]), if_neg hname.ne_dotDot]
  simp [hlink, hfresh, hinner, -List.lookup_eq_none_iff]

end

theorem fault_of_linkTarget? {host : Host} {path : Text} {fault : Fault}
    (h : host.linkTarget? path = .error fault) : fault = .embeddedNul := by
  by_cases hnul : '\x00' ∈ path
  · simpa [linkTarget?, request, hnul] using h.symm
  · simp only [linkTarget?, request, hnul, if_false] at h
    cases hentry : host.entryAt (host.lookup false path) with
    | error errno => simp [hentry] at h
    | ok entry => cases entry <;> simp [hentry] at h

theorem fault_of_rebuild {host : Host} {depth : Nat} {path : Text} {components : List Text}
    {seen : Seen} {fault : Fault} (h : host.rebuild depth path components seen = .error fault) :
    fault = .embeddedNul := by
  fun_induction rebuild host depth path components seen with
  | case1 | case7 | case8 | case10 => cases h
  | case2 | case3 | case5 | case6 | case11 => simp_all
  | case4 _ _ _ _ _ _ _ next fault' hlink =>
      obtain rfl := Except.error.inj h
      exact fault_of_linkTarget? hlink
  | case9 => simp_all

/-- Two hosts rebuild a path alike if they tell of the same links under all paths that have a
property `P`, and rebuilding never leaves these paths. -/
theorem rebuild_congr {host other : Host} {P : Text → Prop} (hroot : P ['/'])
    (habove : ∀ path, P path → P (above path))
    (happend : ∀ path name, P path → IsName name → P (append path name))
    (hlinks : ∀ path, P path → other.linkTarget? path = host.linkTarget? path) {depth : Nat}
    {path : Text} {components : List Text} {seen : Seen} (hpath : P path)
    (hcomponents : ∀ c ∈ components, '/' ∉ c) (hseen : seen.Known P) :
    other.rebuild depth path components seen = host.rebuild depth path components seen := by
  fun_induction rebuild host depth path components seen with
  | case1 => rw [rebuild]
  | case2 depth path seen name rest hskip ih =>
      rw [rebuild_skip hskip]
      exact ih hpath (List.forall_mem_of_forall_mem_cons hcomponents) hseen
  | case3 depth path seen rest hskip ih =>
      rw [rebuild_up]
      exact ih (habove path hpath) (List.forall_mem_of_forall_mem_cons hcomponents) hseen
  | case4 depth path seen name rest hskip hup next fault hlink =>
      have hname := isName_of_component hskip hup (hcomponents name (by simp))
      rw [rebuild]
      simp [hskip, hup, hlinks _ (happend path name hpath hname), next, hlink]
  | case5 depth path seen name rest hskip hup next hlink =>
      rename_i ih
      have hname := isName_of_component hskip hup (hcomponents name (by simp))
      have hnext := happend path name hpath hname
      rw [rebuild_plain hname ((hlinks _ hnext).trans hlink)]
      exact ih hnext (List.forall_mem_of_forall_mem_cons hcomponents) hseen
  | case6 depth path seen name rest hskip hup next target hlink known hknown =>
      rename_i ih
      have hname := isName_of_component hskip hup (hcomponents name (by simp))
      rw [rebuild_known hname ((hlinks _ (happend path name hpath hname)).trans hlink) hknown]
      exact ih (hseen next known hknown) (List.forall_mem_of_forall_mem_cons hcomponents) hseen
  | case7 depth path seen name rest hskip hup next target hlink broken hbusy =>
      have hname := isName_of_component hskip hup (hcomponents name (by simp))
      have hlink' := (hlinks _ (happend path name hpath hname)).trans hlink
      rw [rebuild]
      simp [hskip, hup, hlink', next, hbusy, broken]
  | case8 path seen name rest hskip hup next target hlink broken hfresh =>
      have hname := isName_of_component hskip hup (hcomponents name (by simp))
      have hlink' := (hlinks _ (happend path name hpath hname)).trans hlink
      rw [rebuild]
      simp [hskip, hup, hlink', next, hfresh, broken, -List.lookup_eq_none_iff]
  -- A target is rebuilt from the root or from the path that the link is met on.
  | case9 path seen name rest hskip hup next target hlink hfresh depth inner fault hinner =>
      rename_i ih
      have hname := isName_of_component hskip hup (hcomponents name (by simp))
      have hlink' := (hlinks _ (happend path name hpath hname)).trans hlink
      have hinner' := ih (of_beginRebuild hroot hpath target)
        (slash_not_mem_beginRebuild path target) (hseen.cons next (by simp))
      rw [rebuild]
      simp [hskip, hup, hlink', next, hfresh, inner, hinner', hinner, -List.lookup_eq_none_iff]
  | case10 path seen name rest hskip hup next target hlink broken hfresh depth inner path' seen'
      hinner =>
      rename_i ih
      have hname := isName_of_component hskip hup (hcomponents name (by simp))
      have hlink' := (hlinks _ (happend path name hpath hname)).trans hlink
      have hinner' := ih (of_beginRebuild hroot hpath target)
        (slash_not_mem_beginRebuild path target) (hseen.cons next (by simp))
      rw [rebuild]
      simp [hskip, hup, hlink', next, hfresh, inner, hinner', hinner, broken,
        -List.lookup_eq_none_iff]
  | case11 path seen name rest hskip hup next target hlink hfresh depth inner path' seen' hinner
      ihInner =>
      rename_i ihRest
      have hname := isName_of_component hskip hup (hcomponents name (by simp))
      have hlink' := (hlinks _ (happend path name hpath hname)).trans hlink
      have hinner' := ihInner (of_beginRebuild hroot hpath target)
        (slash_not_mem_beginRebuild path target) (hseen.cons next (by simp))
      obtain ⟨hpath', hseen'⟩ := (rebuild_invariant (B := fun _ => True) hroot habove
        (fun path name hp hn _ => happend path name hp hn) (fun _ _ _ => trivial)
        (fun _ _ _ => trivial) (of_beginRebuild hroot hpath target)
        (slash_not_mem_beginRebuild path target) (hseen.cons next (by simp)) hinner).1 rfl
      have hknown : ∀ known, some path' = some known → P known := by
        intro known he
        exact Option.some.inj he ▸ hpath'
      rw [rebuild_fresh hname hlink' hfresh (hinner'.trans hinner)]
      exact ihRest hpath' (List.forall_mem_of_forall_mem_cons hcomponents)
        (hseen'.cons next hknown)

def rebuilt (host : Host) (path : Text) : Except Fault Rebuilt :=
  host.rebuild host.tree.linkCount (beginRebuild [] path).1 (beginRebuild [] path).2 []

theorem realPath_posix {host : Host} (h : host.platform = .posix) (path : Text) :
    host.realPath path =
      match host.rebuilt path with
      | .error fault => .error fault
      | .ok rebuilt =>
        if isAbsolute rebuilt.path then .ok (normalize rebuilt.path)
        else (absolute · rebuilt.path) <$> host.askWorkDir := by
  rw [realPath, h]
  rfl

theorem isAbsolute_rebuilt {host : Host} {path : Text} {r : Rebuilt}
    (h : isAbsolute path = true) (hr : host.rebuilt path = .ok r) : isAbsolute r.path = true := by
  have hstart : isAbsolute (beginRebuild [] path).1 = true := by
    obtain ⟨components, -, hbegin⟩ := beginRebuild_of_isAbsolute h []
    rw [hbegin]
    rfl
  have hrule := rebuild_invariant (P := (isAbsolute · = true)) (B := (isAbsolute · = true)) rfl
    (fun path hpath => by rw [isAbsolute_above, hpath])
    (fun path name hpath _ _ => isAbsolute_append_of_left hpath name)
    (fun path name hpath => isAbsolute_append_of_left hpath name)
    (fun path rest hpath => isAbsolute_append_of_left hpath rest)
    hstart (slash_not_mem_beginRebuild [] path) (Seen.known_nil _) hr
  cases hcomplete : r.complete with
  | true => exact (hrule.1 hcomplete).1
  | false => exact hrule.2 hcomplete

/-- Whether a path is that of a place on the way to which the host knows no link. -/
def Linkless (host : Host) (path : Text) : Prop :=
  ∃ location : Location, location.Named ∧ host.Unlinked location ∧ path = Location.path location

theorem linkless_root (host : Host) : host.Linkless ['/'] :=
  ⟨[], by simp, by simp [Unlinked], rfl⟩

theorem Linkless.above {host : Host} {path : Text} (h : host.Linkless path) :
    host.Linkless (above path) := by
  obtain ⟨location, hnamed, hunlinked, rfl⟩ := h
  exact ⟨location.dropLast, hnamed.dropLast,
    hunlinked.of_prefix (List.dropLast_prefix location), Location.above_path hnamed⟩

theorem Linkless.append {host : Host} {path name : Text} (h : host.Linkless path)
    (hname : IsName name) (hlink : host.linkTarget? (append path name) = .ok none) :
    host.Linkless (append path name) := by
  obtain ⟨location, hnamed, hunlinked, rfl⟩ := h
  rw [Location.append_path hnamed hname] at hlink ⊢
  exact ⟨location ++ [name], by simp [hnamed, hname],
    unlinked_concat_iff.2 ⟨hunlinked, hlink⟩, rfl⟩

theorem Linkless.beginRebuild {host : Host} {start : Text} (h : host.Linkless start)
    (target : Text) : host.Linkless (Host.beginRebuild start target).1 :=
  of_beginRebuild (linkless_root host) h target

theorem Linkless.nul_not_mem {host : Host} {path : Text} (h : host.Linkless path) :
    '\x00' ∉ path := by
  obtain ⟨location, -, hunlinked, rfl⟩ := h
  by_cases hl : location = []
  · subst hl
    decide
  · exact nul_not_mem_of_linkTarget? (hunlinked location (List.prefix_refl location) hl)

theorem linkless_of_rebuild {host : Host} {depth : Nat} {path : Text} {components : List Text}
    {seen : Seen} {r : Rebuilt} (hpath : host.Linkless path)
    (hcomponents : ∀ c ∈ components, '/' ∉ c) (hseen : seen.Known host.Linkless)
    (h : host.rebuild depth path components seen = .ok r) (hcomplete : r.complete = true) :
    host.Linkless r.path ∧ r.seen.Known host.Linkless :=
  (rebuild_invariant (B := fun _ => True) (linkless_root host) (fun _ hp => hp.above)
    (fun _ _ hp hname hlink => hp.append hname hlink) (fun _ _ _ => trivial)
    (fun _ _ _ => trivial) hpath hcomponents hseen h).1 hcomplete

/-- A path that is rebuilt to its end has no links left, wherever it has been led from. -/
theorem linkless_rebuilt {host : Host} {path : Text} {r : Rebuilt}
    (hr : host.rebuilt path = .ok r) (hcomplete : r.complete = true)
    (habs : isAbsolute r.path = true) : host.Linkless r.path := by
  -- A relative path has no place of its own, but a link can lead from it to the root. So what is
  -- kept says nothing of the paths that are relative.
  have habove : ∀ path, (isAbsolute path = true → host.Linkless path) →
      isAbsolute (above path) = true → host.Linkless (above path) := by
    intro path hpath h
    rw [isAbsolute_above] at h
    exact (hpath h).above
  have hnext : ∀ path name, (isAbsolute path = true → host.Linkless path) → IsName name →
      host.linkTarget? (append path name) = .ok none →
        isAbsolute (append path name) = true → host.Linkless (append path name) := by
    intro path name hpath hname hlink h
    rw [isAbsolute_append hname.isAbsolute_eq_false] at h
    exact (hpath h).append hname hlink
  have hstart : isAbsolute (beginRebuild [] path).1 = true →
      host.Linkless (beginRebuild [] path).1 :=
    of_beginRebuild (P := fun path => isAbsolute path = true → host.Linkless path)
      (fun _ => linkless_root host) (by simp [isAbsolute]) path
  have hrule := rebuild_invariant (P := fun path => isAbsolute path = true → host.Linkless path)
    (B := fun _ => True) (fun _ => linkless_root host) habove hnext (fun _ _ _ => trivial)
    (fun _ _ _ => trivial) hstart (slash_not_mem_beginRebuild [] path) (Seen.known_nil _) hr
  exact (hrule.1 hcomplete).1 habs

end SourceLoader.Host
