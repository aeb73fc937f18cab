import DependencyDiagram.Identity.NodeId

/-!
# Minting identifiers

A build mints numbers for groups that have no identity of their own. Numbers start at one
and ascend; every build starts afresh, so the same input gives the same identifiers. After
the last number of thirty-two bits the mint stands still.
-/

namespace DependencyDiagram

/-- The state of minting: the number to be handed out next. It is handed on explicitly, and
there is no other source of numbers. -/
structure Mint where
  next : Token
deriving DecidableEq

namespace Mint

/-- A mint that has handed out nothing. -/
def fresh : Mint := ⟨Token.one⟩

/-- How many numbers were handed out. -/
def issued (mint : Mint) : Nat := mint.next.value - 1

/-- Hand out an identifier of the given kind. -/
def issue (mint : Mint) (kind : ArtificialKind) : NodeId × Mint :=
  (.artificial kind mint.next, ⟨mint.next.next⟩)

/-- Hand out the identifier of a group. -/
def group (mint : Mint) : NodeId × Mint := mint.issue .group

end Mint

end DependencyDiagram
