import MappingTables.Packing.Backward

/-!
# State codes

In a state code the symbol is known from the state, and the next bits lead to the next state. The
more frequent a symbol is, the more states stand for it, and the fewer bits are needed.

* `StateCode.ofShares`: the code in which symbols have given shares of the states.
* `StateCode.readShares`: reads the shares of symbols.
* `StateCode.start`, `StateCode.next`: the first state and those that follow.
-/

namespace MappingTables.Packing

/-- What a state means. -/
structure CodeState where
  /-- The symbol that it stands for. -/
  symbol : Nat := 0
  /-- How many bits lead to the next state. -/
  bits : Nat := 0
  /-- The next state if these are zeros. -/
  base : Nat := 0

/-- A state code. -/
structure StateCode where
  /-- The number of bits of a state. -/
  bits : Nat
  /-- What each state means. -/
  states : Array CodeState

namespace StateCode

open Reader

/-- The code with one `symbol` that needs no bits. -/
def single (symbol : Nat) : StateCode where
  bits := 0
  states := #[{ symbol }]

/-- The symbols with the least share, which is written as -1: each has one state, and these come
last. -/
def rareSymbols (shares : List Int) : List Nat :=
  (shares.zipIdx.filter fun (share, _) => share = -1).map Prod.snd

/-- All other symbols, as often as they have states. -/
def usualSymbols (shares : List Int) : List Nat :=
  shares.zipIdx.flatMap fun (share, symbol) => List.replicate share.toNat symbol

/-- The places of the states of other symbols: they are spread over all that are not taken. -/
def usualPlaces (size rare : Nat) : List Nat :=
  ((List.range size).map fun i => i * (size / 2 + size / 8 + 3) % size).filter (· < size - rare)

/-- The symbols by state. -/
def symbolsByState (size : Nat) (shares : List Int) : Array Nat :=
  let rare := rareSymbols shares
  let places := usualPlaces size rare.length ++ (List.range rare.length).map (size - 1 - ·)
  (places.zip (usualSymbols shares ++ rare)).foldl
    (fun symbols (place, symbol) => symbols.setIfInBounds place symbol) (Array.replicate size 0)

/-- The code in which symbols have the given shares of `2 ^ bits` states. Of the states of a symbol
the later ones need fewer bits, or lead to later states. -/
def ofShares (bits : Nat) (shares : List Int) : StateCode :=
  let size := 1 <<< bits
  let counts := (shares.map fun share => if share = -1 then 1 else share.toNat).toArray
  let (states, _) := (symbolsByState size shares).foldl (fun (states, counts) symbol =>
    let count := counts.getD symbol 1
    let needed := bits - count.log2
    (states.push { symbol, bits := needed, base := count * 1 <<< needed - size },
      counts.modify symbol (· + 1))) ((#[] : Array CodeState), counts)
  { bits, states }

/-- Reads how many more symbols have no share, in groups of up to three. The first argument bounds
the number of groups. -/
def readZeros (invalid : Fault) : Nat → Reader Nat
  | 0 => throw invalid
  | groups + 1 => do
    let count ← number 2
    if count < 3 then return count
    return 3 + (← readZeros invalid groups)

/-- Reads shares as long as states are left. There are at most `symbols` of them. -/
def readSharesFrom (invalid : Fault) : (symbols left : Nat) → Reader (List Int)
  | _, 0 => return []
  | 0, _ + 1 => throw invalid
  | symbols + 1, left + 1 => do
    let bits := (left + 2).log2
    let spare := 2 * 1 <<< bits - 1 - (left + 2)
    let low ← number bits
    let value ←
      if low < spare then pure low
      else do
        let value := low + 1 <<< bits * (← bit)
        pure (if 1 <<< bits ≤ value then value - spare else value)
    let share : Int := (value : Int) - 1
    let zeros ← if value = 1 then readZeros invalid (symbols + 1) else pure 0
    let used := if value = 0 then 1 else value - 1
    if left + 1 < used then throw invalid
    let rest ← readSharesFrom invalid (symbols - zeros) (left + 1 - used)
    return share :: (List.replicate zeros 0 ++ rest)

/-- Reads a code with at most the given number of symbols, and at most `2 ^ longest` states. -/
def readShares (invalid : Fault) (symbols longest : Nat) : Reader StateCode := do
  let bits := 5 + (← number 4)
  require (bits ≤ longest) invalid
  let shares ← readSharesFrom invalid symbols (1 <<< bits)
  require (shares.length ≤ symbols) invalid
  alignToByte
  return ofShares bits shares

/-- What a state means. -/
def state (code : StateCode) (place : Nat) : CodeState :=
  code.states.getD place {}

/-- Reads the first state. -/
def start (code : StateCode) (b : Backward) : CodeState × Backward :=
  let (place, b) := b.number code.bits
  (code.state place, b)

/-- Reads the state after the last one. -/
def next (code : StateCode) (last : CodeState) (b : Backward) : CodeState × Backward :=
  let (low, b) := b.number last.bits
  (code.state (last.base + low), b)

end StateCode

end MappingTables.Packing
