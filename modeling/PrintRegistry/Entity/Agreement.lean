import PrintRegistry.Entity

/-!
When two entities are the same. `sameDeclaration` compares what an entity
declares and leaves out the documents cited, notes and marks; `agree` compares
everything. Both pay no heed to the order of values, documents and members.
-/

namespace PrintRegistry.Entity

mutual

/-- The two entities declare the same. -/
def sameDeclaration : Entity → Entity → Bool
  | a@{ members, .. }, b =>
    a.name == b.name && a.grammar == b.grammar && a.values.agree b.values &&
    a.reference == b.reference && a.unreadable == b.unreadable &&
    (members.length == b.members.length && declaredIn members b.members)

def declaredIn : List Entity → List Entity → Bool
  | [], _ => true
  | x :: xs, ys =>
    (match Named.find? ys x.name with
      | some y => sameDeclaration x y
      | none => false) && declaredIn xs ys

end

/-- The two entities have the same members, in any order. -/
def sameMembers (a b : Entity) : Bool :=
  a.members.length == b.members.length && declaredIn a.members b.members

mutual

/-- The two entities are the same in every respect but order. -/
def agree : Entity → Entity → Bool
  | a@{ members, .. }, b =>
    a.name == b.name && a.grammar == b.grammar &&
    Named.agree (fun _ _ => true) a.specs b.specs && a.values.agree b.values &&
    a.reference == b.reference && a.unreadable == b.unreadable &&
    a.hexadecimal == b.hexadecimal && a.isMember == b.isMember &&
    a.mayBeEmpty == b.mayBeEmpty && a.keywordType == b.keywordType && a.note == b.note &&
    a.emitted == b.emitted &&
    (members.length == b.members.length && presentIn members b.members)

def presentIn : List Entity → List Entity → Bool
  | [], _ => true
  | x :: xs, ys =>
    (match Named.find? ys x.name with
      | some y => agree x y
      | none => false) && presentIn xs ys

end

end PrintRegistry.Entity
