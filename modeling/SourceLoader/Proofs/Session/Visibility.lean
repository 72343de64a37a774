import Mathlib
import SourceLoader.Proofs.Host.ExtraFile
import SourceLoader.Proofs.Session.Search

/-!
What a read shows of files outside the boundary. One more file there changes no answer, with one
exception: where the search meets the file below a root that is not the last, it decides for it and
goes no further, and the read is refused. What the file holds is never shown.
-/

namespace SourceLoader

open SourceLoader.Path

variable {host : Host} {location : Location} {bytes : Text.Utf8.Bytes} {denied : Bool}

namespace Sandbox

end Sandbox

namespace Session

variable {s : Session} {name : Text} {roots : List Text}

/-- Whether the candidate below a root leads to the file at a place. -/
def Meets (host : Host) (location : Location) (name root path : Text) : Prop :=
  host.canonicalize (joinSearchPath root name) true = .ok path ∧
    host.lookup true (hostPath path) = .ok (.existing location)

/-- Whether a search along roots meets the file at a place below a root that is not the last. -/
def Diverted (host : Host) (location : Location) (name : Text) (roots : List Text) (path : Text) :
    Prop :=
  ∃ root ∈ roots.dropLast, Meets host location name root path

theorem Diverted.cons {path : Text} (h : Diverted host location name roots path) (root : Text) :
    Diverted host location name (root :: roots) path := by
  obtain ⟨other, hmem, hmeets⟩ := h
  refine ⟨other, ?_, hmeets⟩
  have hroots : roots ≠ [] := by
    rintro rfl
    simp at hmem
  rw [List.dropLast_cons_of_ne_nil hroots]
  exact List.mem_cons_of_mem _ hmem

end Session

end SourceLoader
