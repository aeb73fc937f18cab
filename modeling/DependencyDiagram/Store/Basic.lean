import DependencyDiagram.Ordered.Table

/-!
# Stores of texts

A store keeps texts in tables under keys. What was put last under a table and a key is what
is found there; nothing is ever removed.
-/

namespace DependencyDiagram

/-- Texts by table and key. What the texts mean is known to those who put them there. There
are no changes but to put a text, which replaces the one that was there. -/
structure Store where
  cells : Table (String × String) String
deriving DecidableEq

namespace Store

/-- The store without any text. -/
def empty : Store := ⟨Table.empty⟩

instance : Inhabited Store := ⟨empty⟩

/-- The text under a key of a table. -/
def get? (store : Store) (table key : String) : Option String := store.cells.get? (table, key)

/-- Put a text under a key of a table. -/
def put (store : Store) (table key text : String) : Store := ⟨store.cells.put (table, key) text⟩

/-- A text is found where it was put, and every other place is as before. -/
theorem get?_put (store : Store) (table key text otherTable otherKey : String) :
    (store.put table key text).get? otherTable otherKey =
      if (table, key) = (otherTable, otherKey) then some text else store.get? otherTable otherKey :=
  Table.get?_put store.cells (table, key) (otherTable, otherKey) text

end Store

/-- The table of reflection documents. -/
def reflectedTable : String := "reflected"

/-- The table of shown leaves. -/
def leafVisibleTable : String := "leafVisible"

/-- The table of expanded groups. -/
def groupExpandedTable : String := "groupExpanded"

/-- The table of options. -/
def viewOptionsTable : String := "viewOptions"

end DependencyDiagram
