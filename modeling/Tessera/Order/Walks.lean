import Tessera.Order.Generator
import Tessera.Order.Shuffler
/-!
# Walks side by side

Several shufflers are walked side by side, each asked in turn. They draw from generators of their own that start alike,
or all from one, in the order in which they are asked.
-/

namespace Tessera

/-- What a walk is asked for. -/
inductive WalkStep where
  | next
  | restart
  | draws (count : Value)
  | take (count : Value)

/-- What a walk answers. -/
inductive Drawn where
  | nothing
  | one (n : Nat)
  | many (ns : List Nat)
deriving DecidableEq, Repr

def Shuffler.step {γ : Type} [OrderSource γ] (s : Shuffler) (g : γ) : WalkStep → Result (Drawn × Shuffler × γ)
  | .next => do
    let (n, s, g) ← s.nextChecked g
    pure (.one n, s, g)
  | .restart =>
    let (s, g) := s.restart g
    pure (.nothing, s, g)
  | .draws count => do
    let (ns, s, g) ← s.drawsGiven g count
    pure (.many ns, s, g)
  | .take count => do
    let (ns, s, g) ← s.takeGiven g count
    pure (.many ns, s, g)

/-- Shufflers with their generators, and the common generator for those that share one. -/
structure Walks (γ : Type) where
  shared : Bool
  walks : List (Shuffler × γ)
  common : γ

namespace Walks

/-- Adds a shuffler of some size. The first is always made from the seed. -/
def add (seed : Value) (w : Walks Generator) (size : Value) : Result (Walks Generator) := do
  let source := if w.shared && !w.walks.isEmpty then pure w.common else Generator.ofValue seed
  let (s, g) ← Shuffler.ofValue size source
  pure { w with walks := w.walks ++ [(s, g)], common := g }

def start (shared : Bool) (seed : Value) (sizes : List Value) : Result (Walks Generator) :=
  sizes.foldlM (add seed) ⟨shared, [], default⟩

variable {γ : Type}

/-- The place of the shuffler that a value names. -/
def place (w : Walks γ) : Value → Result Nat
  | .int i => position w.walks.length i
  | .bool b => position w.walks.length (if b then 1 else 0)
  | _ => refuse .kind

/-- The shuffler at a place, with the generator that it draws from. -/
def at? (w : Walks γ) (i : Nat) : Option (Shuffler × γ) :=
  w.walks[i]?.map fun p => (p.1, if w.shared then w.common else p.2)

/-- Puts a shuffler and the generator that it draws from back. -/
def put (w : Walks γ) (i : Nat) (s : Shuffler) (g : γ) : Walks γ :=
  if w.shared then { w with walks := w.walks.modify i fun p => (s, p.2), common := g }
  else { w with walks := w.walks.set i (s, g) }

/-- Takes a step of the shuffler that a value names, and tells the answer and the shuffler after it. -/
def step [OrderSource γ] (w : Walks γ) (which : Value) (x : WalkStep) : Result (Drawn × Shuffler × Walks γ) := do
  let i ← w.place which
  match w.at? i with
  | none => refuse .position
  | some (s, g) =>
    let (v, s, g) ← s.step g x
    pure (v, s, w.put i s g)

end Walks

end Tessera
