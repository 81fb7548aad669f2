import PrintRegistry.Proofs.Lookup

/-!
Chains of shared values. Entries that share the values of one another are followed from
name to name, whatever the conventions propose for names without an entry. A chain of
distinct names means what its last entry means, as long as it has no more than `depthLimit`
steps; a longer one means nothing, and neither does one that comes back to a name it has left.
-/

namespace PrintRegistry.Scope

variable {s : Scope} {fallbacks : String → List Fallback} {name next last : String}
  {left : List String} {e : Entity} {limit : Nat} {seen : List String}

end PrintRegistry.Scope
