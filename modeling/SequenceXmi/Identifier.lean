/-! # Identifiers of document elements

Elements of a document refer to each other by identifiers that mean nothing in themselves. They are
drawn one after another from an `IdSupply`: a sequence of names and the count of those already
drawn. The supply goes on where it stopped, so that two documents can share one. -/

namespace SequenceXmi

/-! ## Supplies -/

/-- A sequence of identifiers, from which some have been drawn. -/
structure IdSupply where
  /-- The identifier drawn when `n` have been drawn before. -/
  name : Nat → String
  /-- How many have been drawn. -/
  drawn : Nat

namespace IdSupply

/-- The next identifier, and the supply after it. -/
def draw (s : IdSupply) : String × IdSupply := (s.name s.drawn, { s with drawn := s.drawn + 1 })

/-- The next `n` identifiers, and the supply after them. -/
def drawMany (s : IdSupply) (n : Nat) : List String × IdSupply :=
  ((List.range n).map fun i => s.name (s.drawn + i), { s with drawn := s.drawn + n })

@[simp] theorem draw_fst (s : IdSupply) : s.draw.1 = s.name s.drawn := rfl

@[simp] theorem draw_snd_drawn (s : IdSupply) : s.draw.2.drawn = s.drawn + 1 := rfl

@[simp] theorem draw_snd_name (s : IdSupply) : s.draw.2.name = s.name := rfl

/-! ## Numbered identifiers -/

/-- The identifier with a number. -/
def numbered (n : Nat) : String := "_id" ++ n.repr

/-- Numbered identifiers, the first of which has number 1. The numbers never end. A counter of 64
bits gives the same identifiers as long as fewer than 2 ^ 64 - 1 of them are drawn; the next draw
would take it past its last value. -/
def sequential : IdSupply := ⟨fun n => numbered (n + 1), 0⟩

/-! ## Random identifiers

A random identifier is an underscore and a version 4 UUID in 32 hexadecimal digits: 128 random bits
of which six are fixed to say version and variant. -/

/-- The last `digits` hexadecimal digits of a number. -/
def hexText (digits n : Nat) : List Char :=
  (List.range digits).reverse.map fun i => Nat.digitChar (n / Nat.pow 16 i % 16)

/-- The identifier made of two words of random bits. -/
def random (high low : UInt64) : String :=
  let high := high.toNat / 0x10000 * 0x10000 + 0x4000 + high.toNat % 0x1000
  let low := 0x8000000000000000 + low.toNat % 0x4000000000000000
  String.ofList ('_' :: (hexText 16 high ++ hexText 16 low))

/-- A word that looks random, for each seed and number: a multiple of an odd constant, then three
invertible mixing steps, so that different numbers give different words. -/
def mixed (seed : UInt64) (n : Nat) : UInt64 :=
  let z := seed + (n + 1).toUInt64 * 0x9E3779B97F4A7C15
  let z := (z ^^^ (z >>> 30)) * 0xBF58476D1CE4E5B9
  let z := (z ^^^ (z >>> 27)) * 0x94D049BB133111EB
  z ^^^ (z >>> 31)

/-- Random identifiers from two seeds, one for each word. -/
def ofSeeds (high low : UInt64) : IdSupply := ⟨fun n => random (mixed high n) (mixed low n), 0⟩

end IdSupply

end SequenceXmi
