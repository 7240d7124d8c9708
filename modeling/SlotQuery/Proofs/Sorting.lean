import SlotQuery.Proofs.Isolation

/-!
# Sort keys

Sorting adds joins and keys to the outer select. Its conditions stay what they
were: the requested types, and membership in the filter when there is one.
-/

namespace SlotQuery

variable {ctx : Context}

end SlotQuery
