import Mathlib
import SourceLoader.Proofs.Session.Failure

/-!
The faults that a call of the program is prepared for: the errors of the host, which are reported,
and violations, which are passed on. Every step of a run fails with one of these only, except the
reading of an input, which can fail with a fault of its own: the path has a NUL in it, or the bytes
are not text.
-/

namespace SourceLoader

open SourceLoader.Path

/-- Whether a call is prepared for a fault. -/
def Fault.Handled : Fault → Prop
  | .os _ | .violation _ => True
  | _ => False

def Tame {α : Type} (x : Except Fault α) : Prop := ∀ fault, x = .error fault → fault.Handled

section

variable {α β : Type}

theorem tame_ok (a : α) : Tame (.ok a : Except Fault α) := failsOnly_ok a

theorem tame_violation (rule : Violation) : Tame (.error (.violation rule) : Except Fault α) :=
  failsOnly_error trivial

theorem tame_os (error : OsError) : Tame (.error (.os error) : Except Fault α) :=
  failsOnly_error trivial

theorem Tame.bind {x : Except Fault α} {f : α → Except Fault β} (hx : Tame x)
    (hf : ∀ a, Tame (f a)) : Tame (x >>= f) :=
  FailsOnly.bind hx hf

theorem Tame.map {x : Except Fault α} (hx : Tame x) (f : α → β) : Tame (f <$> x) :=
  FailsOnly.map hx f

theorem Tame.ite {x y : Except Fault α} {c : Prop} [Decidable c] (hx : Tame x) (hy : Tame y) :
    Tame (if c then x else y) :=
  FailsOnly.ite hx hy

end

variable {host : Host}

theorem tame_comparableParts (platform : Platform) (path : Text) :
    Tame (comparableParts platform path) :=
  .ite (tame_violation _) (.ite (tame_violation _) (.ite (tame_violation _) (tame_ok _)))

theorem tame_relativeSegments (platform : Platform) (lead path : Text) :
    Tame (relativeSegments platform lead path) :=
  (tame_comparableParts platform lead).bind fun _ =>
    (tame_comparableParts platform path).bind fun _ => .ite (tame_ok _) (tame_ok _)

theorem tame_isBelow (platform : Platform) (lead path : Text) :
    Tame (isBelow platform lead path) := by
  refine (tame_relativeSegments platform lead path).bind fun segments => ?_
  split <;> exact tame_ok _

theorem tame_relativeTo (platform : Platform) (lead path : Text) :
    Tame (relativeTo platform lead path) := by
  refine (tame_relativeSegments platform lead path).bind fun segments => ?_
  split <;> exact tame_ok _

theorem Sandbox.tame_relativeToFirst (platform : Platform) (path : Text) (directories : List Text) :
    Tame (relativeToFirst platform path directories) := by
  induction directories with
  | nil => exact tame_ok path
  | cons directory rest ih =>
      exact (tame_isBelow platform directory path).bind fun _ =>
        .ite (tame_relativeTo platform directory path) ih

theorem tame_canonicalOfAnchored (platform : Platform) (workDir anchored : Text)
    (isDirectory : Bool) : Tame (canonicalOfAnchored platform workDir anchored isDirectory) :=
  .ite (tame_violation _) (.ite (tame_violation _) (tame_ok _))

theorem tame_canonicalWorkDir (hnul : host.canonicalWorkDir ≠ .error .embeddedNul) :
    Tame host.canonicalWorkDir := by
  cases hplatform : host.platform with
  | posix =>
      intro fault h
      have hwork := h
      rw [Host.canonicalWorkDir_posix hplatform] at hwork
      split at hwork
      · cases hwork
        trivial
      · rcases Host.fault_of_realPath hplatform hwork with rfl | ⟨e, rfl⟩
        · exact absurd h hnul
        · trivial
  | windows =>
      have hask : Tame host.askWorkDir := by
        unfold Host.askWorkDir
        split
        · exact tame_ok _
        · exact tame_os _
      refine hask.bind fun path => Tame.map ?_ _
      unfold Host.realPath
      rw [hplatform]
      exact .ite (tame_ok _) (hask.map _)

theorem Sandbox.failsOnly_applyAll {P : Fault → Prop} {s : Sandbox} {changes : List Change}
    (h : ∀ change ∈ changes, ∀ s : Sandbox, FailsOnly P (s.apply host change)) :
    FailsOnly P (s.applyAll host changes).1 := by
  induction changes generalizing s with
  | nil => exact failsOnly_ok s
  | cons change rest ih =>
      obtain ⟨hchange, hrest⟩ := List.forall_mem_cons.1 h
      unfold applyAll
      cases happly : s.apply host change with
      | error fault => exact failsOnly_error (hchange s fault happly)
      | ok made => exact ih hrest

section

variable (hwork : Tame host.canonicalWorkDir)

include hwork

theorem tame_canonicalize (path : Text) : Tame (host.canonicalize path false) :=
  hwork.bind fun _ => (tame_ok _).bind fun _ => tame_canonicalOfAnchored _ _ _ _

namespace Sandbox

theorem tame_apply (s : Sandbox) (change : Change) : Tame (s.apply host change) := by
  cases change with
  | setBasePath path =>
      exact .ite (.ite (tame_violation _) (tame_ok _))
        ((tame_canonicalize hwork path).bind fun _ => tame_ok _)
  | addIncludePath path =>
      exact .ite (tame_violation _) (.ite (tame_violation _)
        ((tame_canonicalize hwork path).bind fun _ => tame_ok _))
  | allowDirectory path =>
      exact .ite (tame_violation _)
        ((tame_canonicalize hwork path).bind fun _ => .ite (tame_ok _) (tame_ok _))

theorem tame_applyAll (s : Sandbox) (changes : List Change) : Tame (s.applyAll host changes).1 :=
  failsOnly_applyAll fun change _ s => tame_apply hwork s change

theorem tame_unitName (s : Sandbox) (path : Text) : Tame (s.unitName host path) :=
  .ite ((tame_canonicalize hwork _).bind fun _ => (tame_canonicalize hwork path).bind fun _ =>
      tame_relativeToFirst _ _ _)
    ((tame_canonicalize hwork path).bind fun _ => tame_relativeToFirst _ _ _)

end Sandbox

end

namespace Session

theorem tame_read (host : Host) (s : Session) (kind name : Text) :
    Tame (s.read host kind name).1 := by
  unfold read load
  split
  · cases find host s.sandbox name with
    | ok finding => cases finding <;> exact tame_ok _
    | error fault => cases fault <;> first | exact tame_ok _ | exact tame_violation _
  · exact tame_violation _

end Session

namespace Host

variable {path : Text} {fault : Fault}

theorem tame_request {α : Type} {answer : Except Errno α} (h : '\x00' ∉ path) :
    Tame (request path answer) := by
  unfold request
  rw [if_neg h]
  cases answer with
  | ok a => exact tame_ok a
  | error errno => exact tame_os _

theorem readBytes_of_nul (h : '\x00' ∈ path) : host.readBytes path = .error .embeddedNul :=
  if_pos h

inductive Escapes (host : Host) (path : Text) : Fault → Prop
  | nul (h : '\x00' ∈ path) : Escapes host path .embeddedNul
  | malformed {bytes : Text.Utf8.Bytes} {e : Text.Utf8.Malformed}
      (hread : host.readBytes path = .ok bytes) (hdecode : Text.Utf8.decode bytes = .error e) :
      Escapes host path (.malformed e)

theorem Escapes.not_handled (h : host.Escapes path fault) : ¬ fault.Handled := by
  cases h <;> exact id

theorem Escapes.readText (h : host.Escapes path fault) : host.readText path = .error fault := by
  unfold Host.readText
  cases h with
  | nul hnul => rw [readBytes_of_nul hnul]
  | malformed hread hdecode => simp only [hread, hdecode]

theorem escapes_of_readText (h : host.readText path = .error fault) (hfault : ¬ fault.Handled) :
    host.Escapes path fault := by
  unfold Host.readText at h
  by_cases hnul : '\x00' ∈ path
  · rw [readBytes_of_nul hnul] at h
    cases h
    exact .nul hnul
  · split at h
    · next hbytes =>
      cases h
      exact absurd (tame_request hnul _ hbytes) hfault
    · next bytes hread =>
      split at h
      · cases h
      · next hdecode =>
        cases h
        exact .malformed hread hdecode

end Host

end SourceLoader
