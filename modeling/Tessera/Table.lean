import Tessera.Error
/-!
# Nested lists

Colours may be handed in as nested lists. A table is rectangular when its lists have one length on each level.
-/

namespace Tessera

/-- A number or a list of tables. -/
inductive Table (α : Type) where
  | cell (x : α)
  | row (ts : List (Table α))
deriving Inhabited

namespace Table

variable {α : Type}

mutual

/-- The lengths on each level, from the outside in; none when the table is not rectangular. -/
def shape? : Table α → Option (List Nat)
  | cell _ => some []
  | row ts => (shapeOfAll? ts).map fun inner => ts.length :: inner

/-- The common shape of a list of tables; an empty list has the shape of a number. -/
def shapeOfAll? : List (Table α) → Option (List Nat)
  | [] => some []
  | t :: ts =>
    match shape? t, shapeOfAll? ts with
    | some s, some rest => if ts.isEmpty || s == rest then some s else none
    | _, _ => none

end

mutual

def flatten : Table α → List α
  | cell x => [x]
  | row ts => flattenAll ts

/-- The numbers of a list of tables in order. -/
def flattenAll : List (Table α) → List α
  | [] => []
  | t :: ts => flatten t ++ flattenAll ts

end

/-- The shape of a table; one that is not rectangular is refused. -/
def shape (t : Table α) : Result (List Nat) := t.shape?.elim (refuse .shape) pure

mutual

/-- The table of a value: its lists are rows, and anything else is a cell. -/
def ofValue : Value → Table Value
  | .list vs => row (ofValues vs)
  | v => cell v

def ofValues : List Value → List (Table Value)
  | [] => []
  | v :: vs => ofValue v :: ofValues vs

end

end Table

end Tessera
