import PrintRegistry.Collection.Aliases
import PrintRegistry.Collection.Audit
import PrintRegistry.Collection.Backfill
import PrintRegistry.Collection.Canonical
import PrintRegistry.Collection.Registration

/-!
The assembly of collections: all passes in their order. Attributes without
members can only be told which collection they share once every collection
with members is registered.
-/

namespace PrintRegistry.Registry

/-- Makes all passes over the collections of a registry. -/
def assemble (r : Registry) : Registry :=
  r.mergeAliases.registerCollections.backfill.audit.unifyFamilies

end PrintRegistry.Registry
