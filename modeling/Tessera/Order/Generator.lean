import Tessera.Number
import Tessera.Order.Source
/-!
# A seeded generator

A generator is a linear congruential state of 128 bits whose 64-bit draws are permuted by a rotation. The seed is
spread over the state by hashing its 32-bit words. Draws of 32 bits come in pairs from one draw of 64 bits. An
order is drawn by swapping each place, from the last down, with a random place that is not behind it.
-/

namespace Tessera

/-- The state of a generator, with the half of a draw that is still to be used. -/
structure Generator where
  state : BitVec 128
  inc : BitVec 128
  kept : Option UInt32
deriving DecidableEq, Inhabited

namespace Generator

/-! ## Seeding -/

def wordSize : Nat := 0x100000000

/-- The words of a seed, the least significant first. -/
def words (n : Nat) : List UInt32 :=
  if _h : n < wordSize then [n.toUInt32] else (n % wordSize).toUInt32 :: words (n / wordSize)
termination_by n
decreasing_by
  unfold wordSize at *
  omega

/-- Folds the high half of a word into the low half. -/
def fold (v : UInt32) : UInt32 := v ^^^ (v >>> 16)

/-- A pool of words under a hash multiplier that changes with each use. -/
structure Pool where
  multiplier : UInt32
  words : List UInt32

/-- Hashes a word and moves the multiplier on. -/
def hash (step multiplier v : UInt32) : UInt32 × UInt32 :=
  let next := multiplier * step
  (fold ((v ^^^ multiplier) * next), next)

/-- The step of the multiplier while words go in. -/
def inStep : UInt32 := 0x931e8875

def mix (x y : UInt32) : UInt32 := fold (x * 0xca01f9dd - y * 0x4973f715)

def Pool.append (p : Pool) (v : UInt32) : Pool :=
  let (w, m) := hash inStep p.multiplier v
  ⟨m, p.words ++ [w]⟩

/-- Mixes the hash of a word into one place of the pool. -/
def Pool.stir (p : Pool) (v : UInt32) (d : Nat) : Pool :=
  let (w, m) := hash inStep p.multiplier v
  ⟨m, p.words.modify d fun x => mix x w⟩

def places : List Nat := [0, 1, 2, 3]

/-- The pool of the words of a seed: four words are hashed in, every place is stirred into every other, and
further words are stirred into all places. -/
def pool (seed : List UInt32) : Pool :=
  let p := places.foldl (fun p i => p.append (seed.getD i 0)) ⟨0x43b0d7e5, []⟩
  let p := (places.flatMap fun s => (places.filter (· != s)).map fun d => (s, d)).foldl
    (fun p (s, d) => p.stir (p.words.getD s 0) d) p
  (seed.drop 4).foldl (fun p w => places.foldl (fun p d => p.stir w d) p) p

/-- Words drawn from the pool, from a place on. -/
def output (p : List UInt32) : Nat → Nat → UInt32 → List UInt32
  | 0, _, _ => []
  | n + 1, i, m =>
    let (v, m) := hash 0x58f38ded m (p.getD (i % 4) 0)
    v :: output p n (i + 1) m

/-- The number whose 32-bit words are given, the two halves of each pair swapped: the second pair goes below the
first. -/
def joined : List UInt32 → BitVec 128
  | [a, b, c, d] =>
    BitVec.ofNat 128 (((b.toNat * wordSize + a.toNat) * (wordSize * wordSize)) + (d.toNat * wordSize + c.toNat))
  | _ => 0

def factor : BitVec 128 := 0x2360ed051fc65da44385df649fccf645

def step (g : Generator) : Generator := { g with state := g.state * factor + g.inc }

def ofWords (seed : List UInt32) : Generator :=
  let out := output (pool seed).words 8 0 0x8b51f9dd
  let start := joined (out.take 4)
  let inc := (joined (out.drop 4) <<< 1) ||| 1
  let g := step ⟨0, inc, none⟩
  step { g with state := g.state + start }

def ofSeed (seed : Nat) : Generator := ofWords (words seed)

/-! ## Seeds of other kinds -/

/-- The words of an integer, which must not be negative. -/
def wordsOfInt (n : Int) : Result (List UInt32) := if n < 0 then refuse .negative else pure (words n.toNat)

/-- The words of a text inside a seed: decimal digits, or hexadecimal ones after their mark. -/
def wordsOfText (s : String) : Result (List UInt32) := do
  let n? := match s.toList with
    | '0' :: 'x' :: _ => Decimal.readInt? 16 s.toList
    | cs => if (cs.head?.map Char.isDigit).getD false then Decimal.readInt? 10 cs else none
  n?.elim (refuse .notNumber) wordsOfInt

mutual

/-- The words of a value inside a seed; those of a list stand one after the other. -/
def wordsOf : Value → Result (List UInt32)
  | .int n => wordsOfInt n
  | .bool b => wordsOfInt (if b then 1 else 0)
  | .text s => wordsOfText s
  | .list vs => wordsOfAll vs
  | .dict names _ => do pure (← names.mapM wordsOfText).flatten
  | _ => refuse .kind

def wordsOfAll : List Value → Result (List UInt32)
  | [] => pure []
  | v :: vs => do
    let ws ← wordsOf v
    let rest ← wordsOfAll vs
    pure (ws ++ rest)

end

/-- The generator of a value: of a number, or of a list of what seeds can be made of (`make_rng`). -/
def ofValue : Value → Result Generator
  | .int n => do pure (ofWords (← wordsOfInt n))
  | .bool b => pure (ofSeed (if b then 1 else 0))
  | .list vs => do pure (ofWords (← wordsOfAll vs))
  | _ => refuse .kind

/-! ## Drawing -/

def draw64 (g : Generator) : BitVec 64 × Generator :=
  let g := g.step
  let high : BitVec 64 := (g.state >>> 64).setWidth 64
  let low : BitVec 64 := g.state.setWidth 64
  ((high ^^^ low).rotateRight (g.state >>> 122).toNat, g)

/-- A draw of 32 bits: the low half of a draw, then its high half. -/
def draw32 (g : Generator) : UInt32 × Generator :=
  match g.kept with
  | some v => (v, { g with kept := none })
  | none =>
    let (v, g) := g.draw64
    (v.toNat.toUInt32, { g with kept := some (v.toNat / wordSize).toUInt32 })

/-- The smallest number of ones in binary that is not below `n`. -/
def mask (n : Nat) : Nat := if n = 0 then 0 else Nat.pow 2 (Nat.log2 n + 1) - 1

/-- A draw that is at most `limit`: draws under the mask are repeated until one is small enough. Each one is with
a chance of a half or more, and after `fuel` draws it is zero. -/
def drawUpTo (limit : Nat) : Nat → Generator → Nat × Generator
  | 0, g => (0, g)
  | fuel + 1, g =>
    let (v, g) := g.draw32
    let n := v.toNat &&& mask limit
    if n ≤ limit then (n, g) else drawUpTo limit fuel g

def attempts : Nat := 1024

/-- Swaps the places from `i` down, each with one that is not behind it. -/
def shuffleFrom : Nat → Array Nat → Generator → Array Nat × Generator
  | 0, a, g => (a, g)
  | i + 1, a, g =>
    let (j, g) := drawUpTo (i + 1) attempts g
    shuffleFrom i (a.swapIfInBounds (i + 1) j) g

/-- The next order of `0 … n - 1` (`Generator.permutation`). -/
def permutation (n : Nat) (g : Generator) : Array Nat × Generator := shuffleFrom (n - 1) (Array.range n) g

instance : OrderSource Generator := ⟨permutation⟩

end Generator

end Tessera
